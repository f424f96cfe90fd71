import StoryPlayer.Formula.Library.Basic
import StoryPlayer.Formula.Token
import StoryPlayer.Text.Blank

/-!
# Functions on numbers

- `Library.numbers` are the functions that formulas call by their names alone,
- `Library.mathFunctions` and `Library.mathConstants` make up the module of mathematics, which knows
  doubles only and takes whole numbers as doubles.
-/

namespace StoryPlayer
namespace Formula
namespace Library

open Arithmetic

/-! ## Conversions -/

/-- A double without its fraction; the number must fit into 64 bits. -/
def toInt (x : Float) : Except Trouble Datum :=
  if x.isNaN then .ok (.int 0)
  else if x.isInf then .error .failed
  else
    let n := truncate x
    if n = intBound then .ok (.int (intBound - 1)) else checked n

def splitSign : List Char → Bool × List Char
  | '-' :: rest => (true, rest)
  | '+' :: rest => (false, rest)
  | cs => (false, cs)

def digitIn? (base : Nat) (c : Char) : Option Nat :=
  let n :=
    if c.isDigit then c.toNat - '0'.toNat
    else if c.isAlpha then c.toLower.toNat - 'a'.toNat + 10
    else base
  if n < base then some n else none

def natIn? (base : Nat) (ds : List Char) : Option Nat :=
  if ds.isEmpty then none
  else ds.foldlM (fun n c => (digitIn? base c).map fun d => base * n + d) 0

def parseInt (s : String) (base : Int) : Except Trouble Datum :=
  if base < 2 ∨ 36 < base then .error .failed
  else
    let (negative, ds) := splitSign (Text.trim s).toList
    match natIn? base.toNat ds with
    | some n => checked (if negative then -(n : Int) else n)
    | none => .error .failed

def parseExponent (cs : List Char) : Option Int :=
  match cs with
  | [] => some 0
  | mark :: rest =>
    let (below, ds) := splitSign rest
    if (mark == 'e' || mark == 'E') && !ds.isEmpty && ds.all Char.isDigit then
      some (if below then -(Token.natOf ds : Int) else Token.natOf ds)
    else none

def parseUnsigned (cs : List Char) : Option Float :=
  let word := (String.ofList cs).toLower
  if word == "inf" || word == "infinity" then some (1.0 / 0.0)
  else if word == "nan" then some (0.0 / 0.0)
  else
    let whole := cs.takeWhile Char.isDigit
    let rest := cs.dropWhile Char.isDigit
    let (fraction, rest) :=
      match rest with
      | '.' :: rest => (rest.takeWhile Char.isDigit, rest.dropWhile Char.isDigit)
      | rest => ([], rest)
    if whole.isEmpty && fraction.isEmpty then none
    else
      match parseExponent rest with
      | some power =>
        some (Token.floatOf (Token.natOf (whole ++ fraction)) (power - fraction.length))
      | none => none

def parseFloat (s : String) : Except Trouble Datum :=
  let (negative, cs) := splitSign (Text.trim s).toList
  match parseUnsigned cs with
  | some x => .ok (.float (withSign negative x))
  | none => .error .failed

/-! ## Functions -/

def ofFloat (f : Float → Float) : Native
  | [.float x] => give (.float (f x))
  | _ => none

def abs : Native
  | [.int n] => attempt (checked n.natAbs)
  | [.float x] => give (.float x.abs)
  | _ => none

def toIntFunction : Native
  | [.int n] => give (.int n)
  | [.float x] => attempt (toInt x)
  | [.char c] => give (.int c.toNat)
  | _ => none

def toFloatFunction : Native
  | [.int n] => give (.float (Float.ofInt n))
  | [.float x] => give (.float x)
  | _ => none

inductive Choice
  | least
  | greatest

/-- The first of two things if it is on the wanted side of the second, and else the second. -/
def Choice.of {α : Type} (choice : Choice) (less : α → α → Bool) (a b : α) : α :=
  match choice with
  | .least => if less a b then a else b
  | .greatest => if less b a then a else b

def pick (choice : Choice) : Native
  | [.int a, .int b] => give (.int (choice.of (· < ·) a b))
  | [.float x, .float y] => give (.float (choice.of (· < ·) x y))
  | [.int a, .float y] => give (.float (choice.of (· < ·) (Float.ofInt a) y))
  | [.float x, .int b] => give (.float (choice.of (· < ·) x (Float.ofInt b)))
  | [.text a, .text b] => give (.text (choice.of (· < ·) a b))
  | [.char a, .char b] => give (.char (choice.of (· < ·) a b))
  | _ => none

def parseIntFunction : Native
  | [.text s] => attempt (parseInt s 10)
  | [.text s, .int base] => attempt (parseInt s base)
  | _ => none

def parseFloatFunction : Native
  | [.text s] => attempt (parseFloat s)
  | _ => none

def numbers : Library :=
  [("abs", abs), ("floor", ofFloat Float.floor), ("ceiling", ofFloat Float.ceil),
    ("round", ofFloat Float.round), ("to_int", toIntFunction), ("to_float", toFloatFunction),
    ("parse_int", parseIntFunction), ("parse_float", parseFloatFunction),
    ("min", pick .least), ("max", pick .greatest)]

/-! ## Mathematics -/

/-- The double that an argument stands for; other kinds are refused with a message. -/
def mathArgument : Datum → Except Trouble Float
  | .int n => .ok (Float.ofInt n)
  | .float x => .ok x
  | d => .error (.thrown (.text ("Math expects a number, got " ++ d.typeName ++ ".")))

def mathUnary (f : Float → Float) : Native
  | [d] => attempt ((mathArgument d).map fun x => .float (f x))
  | _ => none

def mathBinary (f : Float → Float → Float) : Native
  | [a, b] => attempt do
    let x ← mathArgument a
    let y ← mathArgument b
    return .float (f x y)
  | _ => none

def withoutFraction (x : Float) : Float :=
  if x < 0 then x.ceil else x.floor

/-- The sign of a double as a double; zero for both zeros. -/
def signOf (x : Float) : Float :=
  if x == 0 then 0 else if x < 0 then -1 else if 0 < x then 1 else x

def mathFunctions : Library :=
  [("floor", mathUnary Float.floor), ("ceil", mathUnary Float.ceil),
    ("round", mathUnary Float.round), ("trunc", mathUnary withoutFraction),
    ("abs", mathUnary Float.abs), ("sqrt", mathUnary Float.sqrt), ("sign", mathUnary signOf),
    ("pow", mathBinary Float.pow), ("min", mathBinary smaller), ("max", mathBinary larger)]

def mathConstants : List (String × Float) :=
  [("PI", Float.ofBits 0x400921fb54442d18), ("E", Float.ofBits 0x4005bf0a8b145769)]

end Library
end Formula
end StoryPlayer
