import StoryPlayer.Json.Basic
import StoryPlayer.Text.Quoted

/-!
# Reading JSON

A strict reader: one value, blanks around it, and nothing else.  There are no comments, no trailing
commas, no leading zeros and no control characters inside texts.

- `readNumber` reads a number; digits are gathered in a 64-bit significand and what does not fit
  only counts as a power of ten,
- `readText` reads a text up to its closing quote,
- `readValue` reads a value,
- `Json.parseForm` reads a whole text that is well formed,
- `Json.parse` reads a whole text that is legible as well and nested at most `maxDepth` deep.
-/

namespace StoryPlayer
namespace Json

/-! ## Blanks and digits -/

def isSpace (c : Char) : Bool :=
  c == ' ' || c == '\n' || c == '\t' || c == '\r'

def skipSpace (cs : List Char) : List Char :=
  cs.dropWhile isSpace

def digitValue (c : Char) : Nat :=
  c.toNat - 48

def hexValue? (c : Char) : Option Nat :=
  if c.isDigit then some (c.toNat - 48)
  else if 'a' ≤ c && c ≤ 'f' then some (c.toNat - 87)
  else if 'A' ≤ c && c ≤ 'F' then some (c.toNat - 55)
  else none

def hexNumber? (cs : List Char) : Option Nat :=
  cs.foldlM (fun n c => (hexValue? c).map fun d => 16 * n + d) 0

/-! ## Numbers -/

def maxSignificand : Nat := 0xffffffffffffffff

/-- Appends digits to a significand while they fit; returns it with the digits left over. -/
def gather (significand : Nat) : List Char → Nat × List Char
  | [] => (significand, [])
  | c :: rest =>
    let next := 10 * significand + digitValue c
    if next ≤ maxSignificand then gather next rest else (significand, c :: rest)

def powerOfTen (n : Nat) : Float :=
  Float.ofScientific 1 false n

/-- The significand divided by `10 ^ power`, in steps of at most `10 ^ 308`. -/
def scaleDown : Nat → Float → Nat → Float
  | 0, x, _ => x
  | fuel + 1, x, power =>
    if power ≤ 308 then x / powerOfTen power
    else if x == 0 then x
    else scaleDown fuel (x / powerOfTen 308) (power - 308)

/-- The double for `significand · 10 ^ power`; none when it is too large. -/
def scale (significand : Nat) (power : Int) : Option Float :=
  let x := Float.ofNat significand
  if power < 0 then some (scaleDown 8 x power.natAbs)
  else if x == 0 then some x
  else if power ≤ 308 then
    let scaled := x * powerOfTen power.toNat
    if scaled.isFinite then some scaled else none
  else none

structure Numeral where
  negative : Bool
  whole : List Char
  fraction : Option (List Char)
  exponent : Option (Bool × List Char)

/-- The exponents beyond which a number is zero or too large. -/
def maxExponent : Nat := 0x7fffffff

def signed (negative : Bool) (x : Float) : Float :=
  if negative then -x else x

/-- The number that a numeral stands for; none when it is too large. -/
def Numeral.value (n : Numeral) : Option Number :=
  let (significand, dropped) := gather 0 n.whole
  match n.fraction, n.exponent, dropped with
  | none, none, [] =>
    if !n.negative then some (.natural significand)
    else if significand = 0 || 0x8000000000000000 < significand then
      some (.real (-Float.ofNat significand))
    else some (.negative significand)
  | _, _, _ =>
    let digits := n.fraction.getD []
    let (significand, rest) := gather significand digits
    let power : Int := (dropped.length : Int) - ((digits.length - rest.length : Nat) : Int)
    match n.exponent with
    | none => (scale significand power).map fun x => .real (signed n.negative x)
    | some (below, ds) =>
      let size := ds.foldl (fun acc c => 10 * acc + digitValue c) 0
      if maxExponent < size then
        if significand = 0 || below then some (.real (signed n.negative 0)) else none
      else
        (scale significand (if below then power - size else power + size)).map fun x =>
          .real (signed n.negative x)

def takeDigits (cs : List Char) : List Char × List Char :=
  (cs.takeWhile Char.isDigit, cs.dropWhile Char.isDigit)

/-- Reads the whole part: no leading zeros, at least one digit. -/
def readWhole (cs : List Char) : Option (List Char × List Char) :=
  match takeDigits cs with
  | ([], _) => none
  | ('0' :: _ :: _, _) => none
  | (digits, rest) => some (digits, rest)

/-- Reads a fraction, if there is a point; the point needs a digit after it. -/
def readFraction (cs : List Char) : Option (Option (List Char) × List Char) :=
  match cs with
  | '.' :: rest =>
    match takeDigits rest with
    | ([], _) => none
    | (digits, rest) => some (some digits, rest)
  | _ => some (none, cs)

def readExponentDigits (below : Bool) (cs : List Char) :
    Option (Option (Bool × List Char) × List Char) :=
  match takeDigits cs with
  | ([], _) => none
  | (digits, rest) => some (some (below, digits), rest)

def readExponent (cs : List Char) : Option (Option (Bool × List Char) × List Char) :=
  match cs with
  | mark :: rest =>
    if mark == 'e' || mark == 'E' then
      match rest with
      | '+' :: rest => readExponentDigits false rest
      | '-' :: rest => readExponentDigits true rest
      | rest => readExponentDigits false rest
    else some (none, cs)
  | [] => some (none, cs)

def Numeral.toJson (n : Numeral) : Json :=
  match n.value with
  | some n => .number n
  | none => .unreadable

def readUnsigned (negative : Bool) (cs : List Char) : Option (Json × List Char) := do
  let (whole, rest) ← readWhole cs
  let (fraction, rest) ← readFraction rest
  let (exponent, rest) ← readExponent rest
  return (Numeral.toJson ⟨negative, whole, fraction, exponent⟩, rest)

def readNumber (cs : List Char) : Option (Json × List Char) :=
  match cs with
  | '-' :: rest => readUnsigned true rest
  | _ => readUnsigned false cs

/-! ## Texts -/

def isHighSurrogate (n : Nat) : Bool := 0xd800 ≤ n && n ≤ 0xdbff

def isLowSurrogate (n : Nat) : Bool := 0xdc00 ≤ n && n ≤ 0xdfff

/-- A unit of a text as it is written: a character, or half a surrogate pair. -/
inductive TextUnit
  | char (c : Char)
  | high (n : Nat)
  | low (n : Nat)

def TextUnit.ofCode (n : Nat) : TextUnit :=
  if isHighSurrogate n then .high n else if isLowSurrogate n then .low n else .char (Char.ofNat n)

/-- The characters of the units; none if half a pair stands alone. -/
def TextUnit.join : List TextUnit → Option (List Char)
  | [] => some []
  | .char c :: rest => (join rest).map (c :: ·)
  | .high a :: .low b :: rest =>
    (join rest).map (Char.ofNat (0x10000 + (a - 0xd800) * 0x400 + (b - 0xdc00)) :: ·)
  | _ => none

def readEscape (cs : List Char) : Option (TextUnit × List Char) :=
  match cs with
  | 'b' :: rest => some (.char (Char.ofNat 8), rest)
  | 'f' :: rest => some (.char (Char.ofNat 12), rest)
  | 'n' :: rest => some (.char '\n', rest)
  | 'r' :: rest => some (.char '\r', rest)
  | 't' :: rest => some (.char '\t', rest)
  | 'u' :: a :: b :: c :: d :: rest =>
    (hexNumber? [a, b, c, d]).map fun n => (.ofCode n, rest)
  | c :: rest =>
    if c == Text.doubleQuote || c == Text.backslash || c == '/' then some (.char c, rest) else none
  | [] => none

/-- Reads the rest of a text up to its closing quote; `acc` holds what was read, last first. -/
def readText : Nat → List TextUnit → List Char → Option (List TextUnit × List Char)
  | 0, _, _ => none
  | _, _, [] => none
  | fuel + 1, acc, c :: rest =>
    if c == Text.doubleQuote then some (acc.reverse, rest)
    else if c == Text.backslash then
      match readEscape rest with
      | some (unit, rest) => readText fuel (unit :: acc) rest
      | none => none
    else if c.toNat < 0x20 then none
    else readText fuel (.char c :: acc) rest

/-- Reads a text whose opening quote was read; the text itself is none if it is not legible. -/
def readQuoted (cs : List Char) : Option (Option String × List Char) :=
  (readText (cs.length + 1) [] cs).map fun (units, rest) =>
    ((TextUnit.join units).map String.ofList, rest)

def ofText : Option String → Json
  | some s => .text s
  | none => .unreadable

/-- The object with the members, if all its names are legible. -/
def ofMembers (members : List (Option String × Json)) : Json :=
  match members.mapM fun member => member.1.map fun name => (name, member.2) with
  | some members => .object members
  | none => .unreadable

/-! ## Values -/

def readWord (word : String) (value : Json) (cs : List Char) : Option (Json × List Char) :=
  let letters := word.toList
  if letters.isPrefixOf cs then some (value, cs.drop letters.length) else none

mutual

def readValue : Nat → List Char → Option (Json × List Char)
  | 0, _ => none
  | fuel + 1, cs =>
    match skipSpace cs with
    | '[' :: rest =>
      match skipSpace rest with
      | ']' :: rest => some (.list [], rest)
      | rest => (readItems fuel rest).map fun (items, rest) => (.list items, rest)
    | '\x7b' :: rest =>
      match skipSpace rest with
      | '\x7d' :: rest => some (.object [], rest)
      | rest => (readMembers fuel rest).map fun (members, rest) => (ofMembers members, rest)
    | 'n' :: rest => readWord "ull" .null rest
    | 't' :: rest => readWord "rue" (.bool true) rest
    | 'f' :: rest => readWord "alse" (.bool false) rest
    | c :: rest =>
      if c == Text.doubleQuote then (readQuoted rest).map fun (s, rest) => (ofText s, rest)
      else readNumber (c :: rest)
    | [] => none

def readItems : Nat → List Char → Option (List Json × List Char)
  | 0, _ => none
  | fuel + 1, cs =>
    match readValue fuel cs with
    | none => none
    | some (item, rest) =>
      match skipSpace rest with
      | ',' :: rest => (readItems fuel rest).map fun (items, rest) => (item :: items, rest)
      | ']' :: rest => some ([item], rest)
      | _ => none

def readMembers : Nat → List Char → Option (List (Option String × Json) × List Char)
  | 0, _ => none
  | fuel + 1, cs =>
    match skipSpace cs with
    | [] => none
    | quote :: rest =>
      if quote != Text.doubleQuote then none
      else
        match readQuoted rest with
        | none => none
        | some (name, rest) =>
          match skipSpace rest with
          | ':' :: rest =>
            match readValue fuel rest with
            | none => none
            | some (value, rest) =>
              match skipSpace rest with
              | ',' :: rest =>
                (readMembers fuel rest).map fun (members, rest) =>
                  ((name, value) :: members, rest)
              | '\x7d' :: rest => some ([(name, value)], rest)
              | _ => none
          | _ => none

end

def parseChars (cs : List Char) : Option Json :=
  match readValue (2 * cs.length + 2) cs with
  | some (value, rest) => if (skipSpace rest).isEmpty then some value else none
  | none => none

/-- Reads a well-formed document that fills the text.  Parts of it may stand for nothing and may be
nested at any depth: a reader that passes over them need not mind. -/
def parseForm (s : String) : Option Json :=
  parseChars s.toList

/-- Reads a document that fills the text; all of it is legible and not nested too deep. -/
def parse (s : String) : Option Json :=
  (parseForm s).bind (whole 0 some)

def parseCanonical (s : String) : Option Json :=
  (parse s).map canonical

/-! ## What is said about what cannot be read -/

/-- How a library puts in words that a text is not what it looks for, or that a document is not. -/
structure Words where
  ofText : String → Option String
  ofDocument : Json → Option String

def Words.silent : Words := ⟨fun _ => none, fun _ => none⟩

end Json
end StoryPlayer
