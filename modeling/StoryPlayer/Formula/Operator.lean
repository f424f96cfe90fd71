import StoryPlayer.Decimal.Shortest
import StoryPlayer.Formula.Tree

/-!
# Operators of formulas

What the operators compute.  Whole numbers have 64 bits and never wrap around in arithmetic; as soon
as one side is a double, so is the result.

- `Trouble` is what stops a computation,
- `Arithmetic` holds the operations on numbers,
- `Datum.same` compares data, `Operator.compare` puts them in order,
- `Operator.builtin?` and `Operator.library?` apply an operator to two operands, `Operator.unary` to
  one,
- `Operator.update` is an assignment with an operator.
-/

namespace StoryPlayer
namespace Formula

inductive Trouble
  | undefined (name : String)
  /-- No function has the name for arguments of these kinds. -/
  | noFunction (signature : String)
  /-- A formula or a host function has given up with a payload. -/
  | thrown (payload : Datum)
  /-- An operation has no result. -/
  | failed
  /-- A limit is reached; no handler can catch that. -/
  | exhausted

namespace Arithmetic

/-! ## Whole numbers -/

def intBound : Int := 0x8000000000000000

def exponentBound : Int := 0x100000000

/-- The number if it fits into 64 bits with a sign. -/
def checked (n : Int) : Except Trouble Datum :=
  if -intBound ≤ n ∧ n < intBound then .ok (.int n) else .error .failed

def wrapped (n : Int) : Datum :=
  .int (n.bmod 0x10000000000000000)

def quotient (a b : Int) : Except Trouble Datum :=
  if b = 0 then .error .failed else checked (a.tdiv b)

/-- The remainder, with the sign of the dividend; none where there is no quotient. -/
def remainder (a b : Int) : Except Trouble Datum :=
  match quotient a b with
  | .ok _ => checked (a.tmod b)
  | .error trouble => .error trouble

/-- The power; no exponent may be negative or beyond 32 bits. -/
def power (a b : Int) : Except Trouble Datum :=
  if b < 0 ∨ exponentBound ≤ b then .error .failed
  else if a.natAbs ≤ 1 then checked (a.pow (if b = 0 then 0 else 2 - b.toNat % 2))
  else if 64 ≤ b then .error .failed
  else checked (a.pow b.toNat)

/-- Shifts to the left and drops what leaves the 64 bits; a negative distance shifts to the
right. -/
def shift (a distance : Int) : Datum :=
  if 64 ≤ distance then .int 0
  else if 0 ≤ distance then wrapped (a * Nat.pow 2 distance.toNat)
  else if distance ≤ -64 then .int (if a < 0 then -1 else 0)
  else .int (a.fdiv (Nat.pow 2 distance.natAbs))

def bits (f : Int64 → Int64 → Int64) (a b : Int) : Datum :=
  .int (f (Int64.ofInt a) (Int64.ofInt b)).toInt

/-! ## Doubles -/

def truncate (x : Float) : Int :=
  let b := Decimal.Binary.ofFloat x
  let size := if b.exponent < 0 then b.mantissa / Nat.pow 2 b.exponent.natAbs
    else b.mantissa * Nat.pow 2 b.exponent.toNat
  if b.negative then -(size : Int) else size

/-- The double with the sign of `negative` and the size of `x`. -/
def withSign (negative : Bool) (x : Float) : Float :=
  if negative then -x else x

/-- The exact remainder of two finite doubles, the second not zero. -/
def finiteRemainder (x y : Float) : Float :=
  let a := Decimal.Binary.ofFloat x
  let b := Decimal.Binary.ofFloat y
  let e := min a.exponent b.exponent
  let dividend := a.mantissa * Nat.pow 2 (a.exponent - e).toNat
  let divisor := b.mantissa * Nat.pow 2 (b.exponent - e).toNat
  let rest := dividend % divisor
  withSign a.negative ((Float.ofNat rest).scaleB e)

def floatRemainder (x y : Float) : Float :=
  if x.isNaN || y.isNaN || x.isInf || y == 0 then 0.0 / 0.0
  else if y.isInf then x
  else finiteRemainder x y

/-- The larger of two doubles; a number rather than none. -/
def larger (x y : Float) : Float :=
  if x.isNaN then y else if y.isNaN then x else if x < y then y else x

/-- The smaller of two doubles; a number rather than none. -/
def smaller (x y : Float) : Float :=
  if x.isNaN then y else if y.isNaN then x else if y < x then y else x

def epsilon : Float := Float.ofBits 0x3cb0000000000000

/-- How far `x` is above `y`, measured by the larger of them. -/
def excess (x y : Float) : Float :=
  (x - y) / (if x * y == 0 then 1 else larger x.abs y.abs)

def ofFloats (op : Binary) (x y : Float) : Option Datum :=
  match op with
  | .add => some (.float (x + y))
  | .sub => some (.float (x - y))
  | .mul => some (.float (x * y))
  | .div => some (.float (x / y))
  | .rem => some (.float (floatRemainder x y))
  | .pow => some (.float (x.pow y))
  | .eq => some (.bool ((excess x y).abs ≤ epsilon))
  | .ne => some (.bool !((excess x y).abs ≤ epsilon))
  | .lt => some (.bool (epsilon < excess y x))
  | .le => some (.bool (-epsilon < excess y x))
  | .gt => some (.bool (epsilon < excess x y))
  | .ge => some (.bool (-epsilon < excess x y))
  | _ => none

end Arithmetic

namespace Operator

open Arithmetic

def symbol : Binary → String
  | .add => "+"
  | .sub => "-"
  | .mul => "*"
  | .div => "/"
  | .rem => "%"
  | .pow => "**"
  | .shiftLeft => "<<"
  | .shiftRight => ">>"
  | .bitAnd => "&"
  | .bitOr => "|"
  | .bitXor => "^"
  | .eq => "=="
  | .ne => "!="
  | .lt => "<"
  | .le => "<="
  | .gt => ">"
  | .ge => ">="
  | .range => ".."
  | .rangeInclusive => "..="

def missing (op : Binary) (a b : Datum) : Trouble :=
  .noFunction (Datum.signature (symbol op) [a, b])

def ofInts (op : Binary) (a b : Int) : Except Trouble Datum :=
  match op with
  | .add => checked (a + b)
  | .sub => checked (a - b)
  | .mul => checked (a * b)
  | .div => quotient a b
  | .rem => remainder a b
  | .pow => power a b
  | .shiftLeft => .ok (shift a b)
  | .shiftRight => .ok (shift a (-b))
  | .bitAnd => .ok (bits (· &&& ·) a b)
  | .bitOr => .ok (bits (· ||| ·) a b)
  | .bitXor => .ok (bits (· ^^^ ·) a b)
  | .eq => .ok (.bool (a == b))
  | .ne => .ok (.bool (a != b))
  | .lt => .ok (.bool (a < b))
  | .le => .ok (.bool (a ≤ b))
  | .gt => .ok (.bool (b < a))
  | .ge => .ok (.bool (b ≤ a))
  | .range => .ok (.range a b false)
  | .rangeInclusive => .ok (.range a b true)

/-- A comparison of two things of one kind, given whether they are equal and which is less. -/
def compare (op : Binary) (same less : Bool) : Option Datum :=
  match op with
  | .eq => some (.bool same)
  | .ne => some (.bool !same)
  | .lt => some (.bool less)
  | .le => some (.bool (less || same))
  | .gt => some (.bool !(less || same))
  | .ge => some (.bool !less)
  | _ => none

def unordered (op : Binary) (same : Bool) : Option Datum :=
  match op with
  | .eq => some (.bool same)
  | .ne => some (.bool !same)
  | _ => none

/-- A comparison of two things of different kinds: they are not equal and in no order. -/
def unrelated (op : Binary) : Option Datum :=
  match op with
  | .eq => some (.bool false)
  | .ne => some (.bool true)
  | .lt => some (.bool false)
  | .le => some (.bool false)
  | .gt => some (.bool false)
  | .ge => some (.bool false)
  | _ => none

/-- Removes every occurrence of the second text from the first, from left to right. -/
def removeAll : Nat → List Char → List Char → List Char
  | 0, _, cs => cs
  | _, _, [] => []
  | fuel + 1, gone, c :: rest =>
    if gone.isPrefixOf (c :: rest) then removeAll fuel gone ((c :: rest).drop gone.length)
    else c :: removeAll fuel gone rest

def without (a b : String) : String :=
  if b.isEmpty then a else String.ofList (removeAll a.length b.toList a.toList)

def ofTexts (op : Binary) (a b : String) : Option Datum :=
  match op with
  | .add => some (.text (a ++ b))
  | .sub => some (.text (without a b))
  | op => compare op (a == b) (decide (a < b))

def ofBools (op : Binary) (a b : Bool) : Option Datum :=
  match op with
  | .bitAnd => some (.bool (a && b))
  | .bitOr => some (.bool (a || b))
  | .bitXor => some (.bool (a != b))
  | op => compare op (a == b) (!a && b)

def ofChars (op : Binary) (a b : Char) : Option Datum :=
  match op with
  | .add => some (.text (a.toString ++ b.toString))
  | op => compare op (a == b) (decide (a < b))

end Operator

namespace Datum

/-- The operator applied to two data that are neither lists nor maps; none if it does not apply to
their kinds. -/
def simple (op : Binary) : Datum → Datum → Option (Except Trouble Datum)
  | .int a, .int b => some (Operator.ofInts op a b)
  | .float x, .float y => (Arithmetic.ofFloats op x y).map .ok
  | .int a, .float y => (Arithmetic.ofFloats op (Float.ofInt a) y).map .ok
  | .float x, .int b => (Arithmetic.ofFloats op x (Float.ofInt b)).map .ok
  | .unit, .unit => (Operator.unrelated op).map fun _ => .ok (.bool (op == .eq))
  | .bool a, .bool b => (Operator.ofBools op a b).map .ok
  | .text a, .text b => (Operator.ofTexts op a b).map .ok
  | .text a, .char b => (Operator.ofTexts op a b.toString).map .ok
  | .char a, .text b =>
    if op = .sub then none else (Operator.ofTexts op a.toString b).map .ok
  | .char a, .char b => (Operator.ofChars op a b).map .ok
  | .range a b c, .range a' b' c' =>
    (Operator.unordered op (a == a' && b == b' && c == c')).map .ok
  | _, _ => none

/-- The two data are of one kind, one that has no operators of its own. -/
def alike : Datum → Datum → Bool
  | .function .., .function .. => true
  | _, _ => false

mutual

/-- The two data are equal.  Functions cannot be compared. -/
def same : Datum → Datum → Except Trouble Bool
  | .list ⟨as⟩, .list ⟨bs⟩ => sameItems as bs
  | .map as, .map bs => if as.length = bs.length then sameEntries as bs else .ok false
  | a, b =>
    if alike a b then .error (Operator.missing .eq a b)
    else
      match simple .eq a b with
      | some (.ok (.bool b)) => .ok b
      | some (.error trouble) => .error trouble
      | _ => .ok false

def sameItems : List Datum → List Datum → Except Trouble Bool
  | [], [] => .ok true
  | a :: as, b :: bs =>
    if as.length = bs.length then
      match same a b with
      | .ok true => sameItems as bs
      | other => other
    else .ok false
  | _, _ => .ok false

def sameEntries : List (String × Datum) → List (String × Datum) → Except Trouble Bool
  | [], _ => .ok true
  | (name, a) :: rest, bs =>
    match Dict.get? bs name with
    | none => .ok false
    | some b =>
      match same a b with
      | .ok true => sameEntries rest bs
      | other => other

end

/-- The entries of both maps; where a name is in both, the second counts. -/
def merge (as bs : List (String × Datum)) : List (String × Datum) :=
  bs.foldl (fun d entry => Dict.insert d entry.1 entry.2) as

end Datum

namespace Operator

def ofLists (op : Binary) (as bs : Array Datum) : Option (Except Trouble Datum) :=
  match op with
  | .add => some (.ok (.list (as ++ bs)))
  | .eq => some ((Datum.same (.list as) (.list bs)).map .bool)
  | .ne => some ((Datum.same (.list as) (.list bs)).map fun b => .bool !b)
  | _ => none

def ofMaps (op : Binary) (as bs : List (String × Datum)) : Option (Except Trouble Datum) :=
  match op with
  | .add => some (.ok (.map (Datum.merge as bs)))
  | .eq => some ((Datum.same (.map as) (.map bs)).map .bool)
  | .ne => some ((Datum.same (.map as) (.map bs)).map fun b => .bool !b)
  | _ => none

/-- The two data joined into one text, if one of them is a text. -/
def joined? (a b : Datum) : Option Datum :=
  match a, b with
  | .text s, b => some (.text (s ++ b.joined))
  | a, .text s => some (.text (a.joined ++ s))
  | _, _ => none

/-- The operations of the language itself: on two plain data, and comparisons of different kinds. -/
def builtin? (op : Binary) (a b : Datum) : Option (Except Trouble Datum) :=
  match Datum.simple op a b with
  | some result => some result
  | none => if a.typeName == b.typeName then none else (unrelated op).map .ok

/-- The operations that are functions of the library: on lists and maps, and joining anything to a
text. -/
def library? (op : Binary) (a b : Datum) : Option (Except Trouble Datum) :=
  match a, b with
  | .list as, .list bs => ofLists op as bs
  | .map as, .map bs => ofMaps op as bs
  | a, b => if op = .add then (joined? a b).map .ok else none

def binary (op : Binary) (a b : Datum) : Except Trouble Datum :=
  match builtin? op a b with
  | some result => result
  | none =>
    match library? op a b with
    | some result => result
    | none => .error (missing op a b)

def unary (op : Unary) (d : Datum) : Except Trouble Datum :=
  match op, d with
  | .minus, .int n => Arithmetic.checked (-n)
  | .minus, .float x => .ok (.float (-x))
  | .plus, .int n => .ok (.int n)
  | .plus, .float x => .ok (.float x)
  | .not, .bool b => .ok (.bool !b)
  | .minus, d => .error (.noFunction (Datum.signature "-" [d]))
  | .plus, d => .error (.noFunction (Datum.signature "+" [d]))
  | .not, d => .error (.noFunction (Datum.signature "!" [d]))

/-- A list or a text with more at its end: a list takes up anything that is no list as one more
item.  Other data are given back. -/
def extended (old new : Datum) : Except Datum Datum :=
  match old, new with
  | .list items, .list more => .ok (.list (items ++ more))
  | .list items, d => .ok (.list (items.push d))
  | .text s, .text t => .ok (.text (s ++ t))
  | old, _ => .error old

/-- What a variable holds after an assignment with an operator. -/
def update (op : Binary) (old new : Datum) : Except Trouble Datum :=
  match op, extended old new with
  | .add, .ok d => .ok d
  | op, _ => binary op old new

def updateCost (op : Binary) (old new : Datum) : Nat :=
  match old, new with
  | .int _, .int _ => 0
  | .float _, .float _ => 0
  | .float _, .int _ => 0
  | .bool _, .bool _ => 0
  | .text _, .text _ => 0
  | .text _, .char _ => 0
  | .text _, _ => if op = .add then 1 else 2
  | .map _, .map _ => if op = .add then 1 else 2
  | .list _, _ => if op = .add then 0 else 2
  | _, _ => 2

end Operator
end Formula
end StoryPlayer
