import StoryPlayer.Decimal.Layout
import StoryPlayer.Fault
import StoryPlayer.Text.Quoted
import StoryPlayer.Value.Basic

/-!
# Data of formulas

What a formula computes with.  It is richer than what a variable can hold: there are whole numbers
beside doubles, single characters, ranges, functions, and the unit that stands for no value.

- `Datum.ofValue` lets a value in, `Datum.toValue` lets a datum out,
- `Datum.typeName` and `Datum.signature` name kinds of data,
- `Datum.joined` and `Datum.constantText` are the written forms,
- `Datum.identical` compares data without any conversion.
-/

namespace StoryPlayer
namespace Formula

inductive Datum
  | unit
  | bool (b : Bool)
  | int (n : Int)
  | float (x : Float)
  | char (c : Char)
  | text (s : String)
  | list (items : Array Datum)
  | map (entries : List (String × Datum))
  | range (low high : Int) (inclusive : Bool)
  /-- A function, with arguments that it already has. -/
  | function (name : String) (curried : List Datum)
  /-- A variable that functions share, by the number of its cell. -/
  | cell (index : Nat)

namespace Datum

/-! ## In and out -/

mutual

def ofValue : Value → Datum
  | .bool b => .bool b
  | .number x => .float x
  | .text s => .text s
  | .list items => .list ⟨ofItems items⟩
  | .map entries => .map (ofEntries entries)

def ofItems : List Value → List Datum
  | [] => []
  | item :: rest => ofValue item :: ofItems rest

def ofEntries : List (String × Value) → List (String × Datum)
  | [] => []
  | (name, value) :: rest => (name, ofValue value) :: ofEntries rest

end

/-- A whole number of 64 bits as a double. -/
def double (n : Int) : Float :=
  let size := (UInt64.ofNat n.natAbs).toFloat
  if n < 0 then -size else size

/-- The full name of the type of a datum that no variable can hold. -/
def foreignName : Datum → String
  | .range _ _ false => "core::ops::range::Range<i64>"
  | .range _ _ true => "core::ops::range::RangeInclusive<i64>"
  | _ => "Fn"

mutual

/-- The value of a datum.  The unit, numbers that are not finite, ranges and functions have none, on
their own or inside a list or a map. -/
def toValue : Datum → Except Fault Value
  | .unit => .error .noValue
  | .bool b => .ok (.bool b)
  | .int n => .ok (.number (double n))
  | .float x =>
    if x.isFinite then .ok (.number x)
    else .error (.numberNotFinite (Decimal.Layout.plain.write x))
  | .char c => .ok (.text c.toString)
  | .text s => .ok (.text s)
  | .list ⟨items⟩ => (toItems items).map .list
  | .map entries => (toEntries entries).map fun entries => .map (Dict.ofList entries)
  | .range low high inclusive =>
    .error (.valueUnsupported (foreignName (.range low high inclusive)))
  | .function name _ => .error (.valueUnsupported (foreignName (.function name [])))
  | .cell index => .error (.valueUnsupported (foreignName (.cell index)))

/-- The values of the items of a list, or the fault of the first that has none. -/
def toItems : List Datum → Except Fault (List Value)
  | [] => .ok []
  | item :: rest =>
    match toValue item with
    | .error fault => .error fault
    | .ok value =>
      match toItems rest with
      | .error fault => .error fault
      | .ok values => .ok (value :: values)

/-- The values of the entries of a map, or the fault of the first that has none. -/
def toEntries : List (String × Datum) → Except Fault (List (String × Value))
  | [] => .ok []
  | (name, datum) :: rest =>
    match toValue datum with
    | .error fault => .error fault
    | .ok value =>
      match toEntries rest with
      | .error fault => .error fault
      | .ok entries => .ok ((name, value) :: entries)

end

def ofList (items : List Datum) : Datum :=
  .list items.toArray

/-! ## Names of kinds -/

def typeName : Datum → String
  | .unit => "()"
  | .bool _ => "bool"
  | .int _ => "i64"
  | .float _ => "f64"
  | .char _ => "char"
  | .text _ => "string"
  | .list _ => "array"
  | .map _ => "map"
  | .range _ _ false => "range"
  | .range _ _ true => "range="
  | .function .. => "Fn"
  | .cell _ => "Fn"

def argumentName : Datum → String
  | .text _ => "&str | ImmutableString | String"
  | d => d.typeName

/-- The signature of a call: the function and the kinds of its arguments. -/
def signature (function : String) (arguments : List Datum) : String :=
  function ++ " (" ++ ", ".intercalate (arguments.map argumentName) ++ ")"

/-! ## Written forms -/

def intText (n : Int) : String :=
  if n < 0 then "-" ++ String.ofList (Decimal.digitChars n.natAbs)
  else String.ofList (Decimal.digitChars n.natAbs)

/-- The size above which a double is written with an exponent. -/
def largeDouble : Float := 9999999827968.0

/-- The size below which a double is written with an exponent. -/
def smallDouble : Float := 9.9999998245167e-14

/-- A double with a fraction, or with an exponent when it is very large or very small. -/
def floatText (x : Float) : String :=
  if x == 0 then "0.0"
  else if largeDouble < x.abs || x.abs < smallDouble then Decimal.Layout.scientific.write x
  else if x.isNaN then "NaN"
  else
    let body := Decimal.Layout.plain.write x
    if body.toList.contains '.' then body else body ++ ".0"

mutual

/-- A datum inside another one: texts are quoted, characters if `marked`. -/
def nested (marked : Bool) : Datum → String
  | .unit => "()"
  | .bool true => "true"
  | .bool false => "false"
  | .int n => intText n
  | .float x => Decimal.Layout.literal.write x
  | .char c => if marked then Text.quoteWith Text.apostrophe [c] else c.toString
  | .text s => Text.quote s
  | .list ⟨items⟩ => "[" ++ ", ".intercalate (nestedItems marked items) ++ "]"
  | .map entries => "#\x7b" ++ ", ".intercalate (nestedEntries marked entries) ++ "\x7d"
  | .range low high inclusive =>
    intText low ++ (if inclusive then "..=" else "..") ++ intText high
  | .function name _ => "Fn(" ++ name ++ ")"
  | .cell _ => ""

def nestedItems (marked : Bool) : List Datum → List String
  | [] => []
  | item :: rest => nested marked item :: nestedItems marked rest

def nestedEntries (marked : Bool) : List (String × Datum) → List String
  | [] => []
  | (name, datum) :: rest =>
    (Text.quote name ++ ": " ++ nested marked datum) :: nestedEntries marked rest

end

/-- The text of a datum: texts and characters as they are, nothing for the unit. -/
def textWith (marked : Bool) : Datum → String
  | .unit => ""
  | .char c => c.toString
  | .text s => s
  | .float x => floatText x
  | d => nested marked d

/-- A datum as it is joined to a text while a formula runs; characters in lists are bare. -/
def joined (d : Datum) : String :=
  textWith false d

/-- A constant as it is joined to a text before a formula runs; characters in lists are quoted. -/
def constantText (d : Datum) : String :=
  textWith true d

/-! ## Identity -/

mutual

/-- The two data are of one kind and written with the same parts; doubles have the same bits. -/
def identical : Datum → Datum → Bool
  | .unit, .unit => true
  | .bool a, .bool b => a == b
  | .int a, .int b => a == b
  | .float x, .float y => x.toBits == y.toBits
  | .char a, .char b => a == b
  | .text a, .text b => a == b
  | .list ⟨as⟩, .list ⟨bs⟩ => identicalItems as bs
  | .map as, .map bs => identicalEntries as bs
  | .range a b c, .range a' b' c' => a == a' && b == b' && c == c'
  | .function a as, .function b bs => a == b && identicalItems as bs
  | _, _ => false

def identicalItems : List Datum → List Datum → Bool
  | [], [] => true
  | a :: as, b :: bs => identical a b && identicalItems as bs
  | _, _ => false

def identicalEntries : List (String × Datum) → List (String × Datum) → Bool
  | [], [] => true
  | (name, a) :: as, (name', b) :: bs => name == name' && identical a b && identicalEntries as bs
  | _, _ => false

end

end Datum
end Formula
end StoryPlayer
