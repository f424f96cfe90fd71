import StoryPlayer.Json.Reader
import StoryPlayer.Text.Blank

/-!
# Tokens of formulas

Formulas are the expressions and code blocks of a story.  This module cuts their text into tokens.

- `Token` is a piece of a formula; a text with inserted expressions becomes several pieces,
- `Token.scan` cuts a text; the first piece that is not part of the language ends the list with
  `Token.invalid`.
-/

namespace StoryPlayer
namespace Formula

inductive Token
  | int (n : Int)
  | float (x : Float)
  | char (c : Char)
  | text (s : String)
  /-- A piece of text before an inserted expression. -/
  | piece (s : String)
  /-- The piece of text after the last inserted expression. -/
  | lastPiece (s : String)
  | name (s : String)
  /-- A word of the language. -/
  | word (s : String)
  /-- A word that cannot be a name. -/
  | reserved (s : String)
  /-- An operator or a bracket. -/
  | mark (s : String)
  | invalid

namespace Token

/-! ## Words -/

def words : List String :=
  ["true", "false", "let", "const", "if", "else", "switch", "do", "while", "until", "loop", "for",
    "in", "fn", "private", "continue", "break", "return", "throw", "try", "catch", "import",
    "export", "as"]

def functionWords : List String :=
  ["print", "debug", "type_of", "Fn", "call", "curry", "is_def_var", "is_def_fn", "is_shared"]

def methodWords : List String :=
  ["type_of", "call", "curry", "is_shared"]

def freeWords : List String :=
  ["this", "public", "protected", "super", "new", "use", "module", "package", "var", "static",
    "shared", "with", "is", "goto", "match", "case", "default", "void", "null", "nil", "spawn",
    "thread", "go", "sync", "async", "await", "yield"]

def disabledWords : List String := ["eval"]

def isLetter (c : Char) : Bool :=
  c.isAlpha

def isNameChar (c : Char) : Bool :=
  c.isAlphanum || c == '_'

def isName (cs : List Char) : Bool :=
  match cs.dropWhile (· == '_') with
  | c :: _ => isLetter c
  | [] => false

def ofWord (cs : List Char) : Token :=
  let s := String.ofList cs
  if s == "_" then .mark "_"
  else if words.contains s then .word s
  else if disabledWords.contains s then .invalid
  else if functionWords.contains s || freeWords.contains s then .reserved s
  else if isName cs then .name s
  else .invalid

/-! ## Numbers -/

def natOf (ds : List Char) : Nat :=
  ds.foldl (fun n c => 10 * n + Json.digitValue c) 0

/-- The double nearest to `mantissa · 10 ^ power`. -/
def floatOf (mantissa : Nat) (power : Int) : Float :=
  let size : Int := (Nat.toDigits 10 mantissa).length
  if mantissa = 0 then 0
  -- Far out of range the power need not be computed.
  else if 400 < power + size then 1.0 / 0.0
  else if power + size < -400 then 0
  else if power < 0 then Float.ofScientific mantissa true power.natAbs
  else Float.ofScientific mantissa false power.toNat

/-- A number as it is read: its sign, its digits, its fraction and its exponent. -/
structure Numeral where
  negative : Bool := false
  whole : List Char := []
  fraction : Option (List Char) := none
  exponent : Option (Bool × List Char) := none

def maxInt : Nat := 0x7fffffffffffffff

def wordSize : Nat := 0x10000000000000000

def signed (negative : Bool) (x : Float) : Float :=
  if negative then -x else x

/-- The token of a number; whole numbers that do not fit into 64 bits become doubles. -/
def Numeral.token (n : Numeral) : Token :=
  match n.fraction, n.exponent with
  | none, none =>
    let value := natOf n.whole
    if value ≤ maxInt then .int (if n.negative then -(value : Int) else value)
    -- The least whole number has no positive counterpart.
    else if n.negative && value = maxInt + 1 then .int (-(value : Int))
    else .float (signed n.negative (floatOf value 0))
  | fraction, none =>
    let digits := fraction.getD []
    .float (signed n.negative (floatOf (natOf (n.whole ++ digits)) (-digits.length)))
  | _, some (_, []) => .invalid
  | fraction, some (below, ds) =>
    let digits := fraction.getD []
    let size : Int := natOf ds
    .float (signed n.negative (floatOf (natOf (n.whole ++ digits))
      ((if below then -size else size) - digits.length)))

/-- Drops the separators among the leading characters that satisfy `p` and returns the others with
the rest. -/
def takeSeparated (p : Char → Bool) (cs : List Char) : List Char × List Char :=
  ((cs.takeWhile fun c => p c || c == '_').filter (· != '_'),
    cs.dropWhile fun c => p c || c == '_')

def isExponentMark (c : Char) : Bool :=
  c == 'e' || c == 'E'

def scanExponent (n : Numeral) (cs : List Char) : Numeral × List Char :=
  match cs with
  | letter :: c :: rest =>
    if !isExponentMark letter then (n, cs)
    else if c == '+' || c == '-' then
      let (ds, rest) := takeSeparated Char.isDigit rest
      ({ n with exponent := some (c == '-', ds) }, rest)
    else if c.isDigit then
      let (ds, rest) := takeSeparated Char.isDigit (c :: rest)
      ({ n with exponent := some (false, ds) }, rest)
    else (n, cs)
  | _ => (n, cs)

/-- Reads a fraction, unless the point starts a range or a property. -/
def scanFraction (n : Numeral) (cs : List Char) : Numeral × List Char :=
  match cs with
  | '.' :: c :: rest =>
    if c.isDigit then
      let (ds, rest) := takeSeparated Char.isDigit (c :: rest)
      ({ n with fraction := some ds }, rest)
    else if c == '_' || c == '.' || isLetter c then (n, cs)
    -- A point with nothing behind it belongs to the number as well.
    else ({ n with fraction := some ['0'] }, c :: rest)
  | _ => (n, cs)

/-- The number in the given base; none if a digit is too large or there is none. -/
def baseNumber? (base : Nat) (ds : List Char) : Option Nat :=
  if ds.isEmpty then none
  else ds.foldlM (fun n c => do
    let d ← Json.hexValue? c
    if d < base then some (base * n + d) else none) 0

/-- Reads the digits of a number in base 16, 8 or 2; 64 bits are read as a signed number. -/
def scanBase (base : Nat) (cs : List Char) : Token × List Char :=
  let isDigit (c : Char) : Bool := if base = 16 then (Json.hexValue? c).isSome else c.isDigit
  let (ds, rest) := takeSeparated isDigit cs
  match baseNumber? base ds with
  | some n =>
    if n ≤ maxInt then (.int n, rest)
    else if n < wordSize then (.int ((n : Int) - wordSize), rest)
    else (.invalid, rest)
  | none => (.invalid, rest)

def baseOf? (c : Char) : Option Nat :=
  if c == 'x' || c == 'X' then some 16
  else if c == 'o' || c == 'O' then some 8
  else if c == 'b' || c == 'B' then some 2
  else none

/-- The base that a letter after a leading zero announces, with the rest; separators may stand
before the letter. -/
def base? (cs : List Char) : Option (Nat × List Char) :=
  match cs with
  | '0' :: rest =>
    match rest.dropWhile (· == '_') with
    | c :: rest => (baseOf? c).map fun base => (base, rest)
    | [] => none
  | _ => none

/-- Reads a number; only a decimal number may have a sign. -/
def scanNumber (negative : Bool) (cs : List Char) : Token × List Char :=
  match base? cs with
  | some (base, rest) => if negative then (.invalid, []) else scanBase base rest
  | none =>
    let (whole, rest) := takeSeparated Char.isDigit cs
    let (n, rest) := scanFraction { negative, whole } rest
    let (n, rest) := scanExponent n rest
    (n.token, rest)

/-- The marks after which a minus right before a digit belongs to the number. -/
def openingMarks : List String :=
  [";", ":", ",", "??", "..", "..=", "\x7b", "(", "[", "+", "+=", "-", "-=", "*", "*=", "/", "/=",
    "%", "%=", "**", "**=", "<<", "<<=", ">>", ">>=", "=", "==", "!=", "<", ">", "<=", ">=", "!",
    "&&", "||", "&", "&=", "|", "|=", "^", "^=", "!in"]

/-- The words after which a minus right before a digit belongs to the number. -/
def openingWords : List String :=
  ["if", "while", "until", "in", "return", "throw"]

/-- A number may have a sign after the token. -/
def opensOperand : Option Token → Bool
  | none => true
  | some (.mark m) => openingMarks.contains m
  | some (.word w) => openingWords.contains w
  | _ => false

/-! ## Texts -/

/-- The character with the code in the first `digits` characters. -/
def scanCode (digits : Nat) (cs : List Char) : Option (Char × List Char) := do
  let code := cs.take digits
  if code.length < digits then none
  else
    let n ← Json.hexNumber? code
    -- Halves of surrogate pairs are no characters.
    if n < 0xd800 || (0xdfff < n && n < 0x110000) then some (Char.ofNat n, cs.drop digits)
    else none

/-- Reads what follows a backslash in a text closed by `closing`. -/
def scanEscape (closing : Char) (cs : List Char) : Option (Char × List Char) :=
  match cs with
  | 't' :: rest => some ('\t', rest)
  | 'n' :: rest => some ('\n', rest)
  | 'r' :: rest => some ('\r', rest)
  | 'x' :: rest => scanCode 2 rest
  | 'u' :: rest => scanCode 4 rest
  | 'U' :: rest => scanCode 8 rest
  | c :: rest => if c == Text.backslash || c == closing then some (c, rest) else none
  | [] => none

def isSpace (c : Char) : Bool :=
  c == ' ' || c == '\t' || c == '\n' || c == '\r' || c.toNat == 0x0c

def lastLine (cs : List Char) : Nat :=
  (cs.reverse.takeWhile (· != '\n')).length

/-- Passes over at most `columns` blanks of a line. -/
def skipIndent : Nat → List Char → List Char
  | columns + 1, c :: rest =>
    if Text.isBlank c && c != '\n' then skipIndent columns rest else c :: rest
  | _, cs => cs

/-- What follows a backslash at the end of a line: the text goes on in the next line, whose blanks
up to the column of the opening mark do not count. -/
def continued? (column : Nat) (cs : List Char) : Option (List Char) :=
  match cs with
  | '\n' :: rest => some (skipIndent column rest)
  | '\r' :: '\n' :: rest => some (skipIndent column rest)
  | _ => none

/-- Reads a text on one line up to its closing mark; a doubled mark stands for itself.  `before` is
what stands before the opening mark, `acc` holds what was read, last first. -/
def scanQuoted (before : List Char) (closing : Char) :
    Nat → List Char → List Char → Option (List Char × List Char)
  | 0, _, _ => none
  | _, _, [] => none
  | fuel + 1, acc, c :: rest =>
    if c == closing then
      match rest with
      | next :: rest' =>
        if next == closing then scanQuoted before closing fuel (closing :: acc) rest'
        else some (acc.reverse, rest)
      | [] => some (acc.reverse, rest)
    else if c == Text.backslash then
      match scanEscape closing rest with
      | some (c, rest) => scanQuoted before closing fuel (c :: acc) rest
      | none =>
        -- Only between double quotes a text may go on in the next line.
        if closing != Text.doubleQuote then none
        else
          match continued? (lastLine before + 1) rest with
          | some rest => scanQuoted before closing fuel acc rest
          | none => none
    else if c == '\n' then none
    else if c == '\r' && rest.head? == some '\n' then scanQuoted before closing fuel acc rest
    else scanQuoted before closing fuel (c :: acc) rest

def graveAccent : Char := Char.ofNat 96

inductive PieceEnd
  | closed
  | inserted

/-- Reads a text of several lines up to its closing mark or to an inserted expression.  `acc` holds
what was read, last first. -/
def scanPiece : Nat → List Char → List Char → Option (List Char × PieceEnd × List Char)
  | 0, _, _ => none
  | _, _, [] => none
  | fuel + 1, acc, c :: rest =>
    if c == graveAccent then
      match rest with
      | next :: rest' =>
        if next == graveAccent then scanPiece fuel (graveAccent :: acc) rest'
        else some (acc.reverse, .closed, rest)
      | [] => some (acc.reverse, .closed, rest)
    else if c == '$' && rest.head? == some '\x7b' then some (acc.reverse, .inserted, rest.drop 1)
    else if c == '\r' && rest.head? == some '\n' then scanPiece fuel acc rest
    else scanPiece fuel (c :: acc) rest

/-- A line break right after the opening mark is not part of the text. -/
def skipFirstBreak (cs : List Char) : List Char :=
  match cs with
  | '\n' :: rest => rest
  | '\r' :: '\n' :: rest => rest
  | '\r' :: rest => rest
  | _ => cs

/-! ## Comments and marks -/

/-- What follows a comment between marks; comments may be nested. -/
def skipComment : Nat → Nat → List Char → List Char
  | 0, _, cs => cs
  | _, _, [] => []
  | fuel + 1, level, '*' :: '/' :: rest =>
    match level with
    | 0 => rest
    | level + 1 => skipComment fuel level rest
  | fuel + 1, level, '/' :: '*' :: rest => skipComment fuel (level + 1) rest
  | fuel + 1, level, _ :: rest => skipComment fuel level rest

def marks : List String :=
  ["**=", "<<=", ">>=", "..=",
    "+=", "-=", "*=", "/=", "%=", "&=", "|=", "^=", "==", "!=", "<=", ">=", "&&", "||", "??",
    "**", "<<", ">>", "..", "::", "=>", "()", "#\x7b",
    "\x7b", "\x7d", "(", ")", "[", "]", "+", "-", "*", "/", "%", "<", ">", "=", "!", "|", "&", "^",
    ";", ":", ",", "."]

/-- Marks that belong to no operator; longer ones first. -/
def strayMarks : List String :=
  ["===", "!==", "::<", "...", "..<", "->", "<-", "<|", "|>", ":=", "++", "--", "?.", "?["]

/-- The first of the marks that starts the characters, with the rest. -/
def findMark? (marks : List String) (cs : List Char) : Option (String × List Char) :=
  marks.findSome? fun m =>
    let letters := m.toList
    if letters.isPrefixOf cs then some (m, cs.drop letters.length) else none

def startsNotIn (cs : List Char) : Bool :=
  match cs with
  | '!' :: 'i' :: 'n' :: rest => !(rest.head?.any isNameChar)
  | _ => false

/-- The characters start with a minus right before a digit. -/
def startsSign (cs : List Char) : Bool :=
  match cs with
  | '-' :: c :: _ => c.isDigit
  | _ => false

def scanMark (cs : List Char) : Token × List Char :=
  if startsNotIn cs then (.mark "!in", cs.drop 3)
  else if startsSign cs then (.mark "-", cs.drop 1)
  else if (findMark? strayMarks cs).isSome then (.invalid, [])
  else
    match findMark? marks cs with
    | some (m, rest) => (.mark m, rest)
    | none => (.invalid, [])

/-! ## The whole text -/

def ofChars : List Char → Token
  | [c] => .char c
  | _ => .invalid

/-- Cuts the characters into tokens.  `source` is the whole text, `last` the token before.  `nested`
counts, for each inserted expression that was begun, the braces opened in it; a closing brace
without an opening one ends the innermost. -/
def scanAll (source : List Char) : Nat → Option Token → List Nat → List Char → List Token
  | 0, _, _, _ => [.invalid]
  | _, _, _, [] => []
  | fuel + 1, last, nested, c :: rest =>
    let emit (token : Token) (nested : List Nat) (rest : List Char) : List Token :=
      token :: scanAll source fuel (some token) nested rest
    let pieces (first : Bool) (nested : List Nat) (cs : List Char) : List Token :=
      match scanPiece (cs.length + 1) [] cs with
      | some (s, .inserted, rest) =>
        .piece (String.ofList s) ::
          .mark "\x7b" :: scanAll source fuel (some (.mark "\x7b")) (0 :: nested) rest
      | some (s, .closed, rest) =>
        emit (if first then .text (String.ofList s) else .lastPiece (String.ofList s)) nested rest
      | none => [.invalid]
    if isSpace c then scanAll source fuel last nested rest
    else if c == '/' && rest.head? == some '/' then
      scanAll source fuel last nested (rest.dropWhile fun c => c != '\n' && c != '\r')
    else if c == '/' && rest.head? == some '*' then
      scanAll source fuel last nested (skipComment (rest.length + 1) 0 (rest.drop 1))
    else if c == Text.doubleQuote then
      let before := source.take (source.length - rest.length - 1)
      match scanQuoted before Text.doubleQuote (rest.length + 1) [] rest with
      | some (s, rest) => emit (.text (String.ofList s)) nested rest
      | none => [.invalid]
    else if c == Text.apostrophe then
      -- There is no empty character.
      if rest.head? == some Text.apostrophe then [.invalid]
      else
        match scanQuoted [] Text.apostrophe (rest.length + 1) [] rest with
        | some (s, rest) => emit (ofChars s) nested rest
        | none => [.invalid]
    else if c == graveAccent then pieces true nested (skipFirstBreak rest)
    else if c.isDigit then
      let (token, rest) := scanNumber false (c :: rest)
      emit token nested rest
    else if startsSign (c :: rest) && opensOperand last then
      let (token, rest) := scanNumber true rest
      emit token nested rest
    else if isLetter c || c == '_' then
      emit (ofWord ((c :: rest).takeWhile isNameChar)) nested ((c :: rest).dropWhile isNameChar)
    else
      let (token, rest) := scanMark (c :: rest)
      -- After the brace that ends an inserted expression the text around it goes on.
      match token, nested with
      | .mark "\x7d", 0 :: outer => token :: pieces false outer rest
      | .mark "\x7d", (n + 1) :: outer => emit token (n :: outer) rest
      | .mark "\x7b", n :: outer => emit token ((n + 1) :: outer) rest
      | .mark "#\x7b", n :: outer => emit token ((n + 1) :: outer) rest
      | _, _ => emit token nested rest

def scan (s : String) : List Token :=
  scanAll s.toList (s.length + 1) none [] s.toList

/-- The text can be the name of a function: it is a name, a word of the language or an operator. -/
def namesFunction (s : String) : Bool :=
  s.toList.all isNameChar && isName s.toList ||
    match scan s with
    | [.mark _] => true
    | [.word _] => true
    | [.reserved _] => true
    | _ => false

end Token
end Formula
end StoryPlayer
