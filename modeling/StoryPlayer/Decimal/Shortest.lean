/-!
# Shortest decimal digits

The decimal number with the fewest digits that reads back as a given double, and of those the
nearest to it.

- `Binary` is a double as a sign and an integer times a power of two,
- `Decimal` is a natural number times a power of ten,
- `Binary.shortest` searches the decimal grids from coarse to fine: on each grid only the two
  neighbours of the value can lie in its rounding interval.
-/

namespace StoryPlayer
namespace Decimal

/-! ## Doubles as integers -/

/-- The finite double `±mantissa · 2 ^ exponent`. -/
structure Binary where
  negative : Bool
  mantissa : Nat
  exponent : Int
  deriving DecidableEq, Repr

def signUnit : Nat := 0x8000000000000000

/-- The bit above the fraction, which is not stored. -/
def hiddenBit : Nat := 0x10000000000000

def Binary.ofBits (bits : Nat) : Binary :=
  let negative : Bool := bits / signUnit % 2 == 1
  let biased : Nat := bits / hiddenBit % 0x800
  let fraction := bits % hiddenBit
  if biased = 0 then ⟨negative, fraction, -1074⟩
  else ⟨negative, fraction + hiddenBit, (biased : Int) - 1075⟩

def Binary.ofFloat (x : Float) : Binary :=
  Binary.ofBits x.toBits.toNat

/-! ## Decimal numbers -/

/-- The number `digits · 10 ^ exponent`. -/
structure Digits where
  digits : Nat
  exponent : Int
  deriving DecidableEq, Repr

def digitChars (n : Nat) : List Char :=
  Nat.toDigits 10 n

/-- Moves trailing zeros of the digits into the exponent, at most `fuel` of them. -/
def Digits.strip : Nat → Digits → Digits
  | 0, d => d
  | fuel + 1, d =>
    if d.digits ≠ 0 ∧ d.digits % 10 = 0 then strip fuel ⟨d.digits / 10, d.exponent + 1⟩ else d

def Digits.scientific (d : Digits) : Int :=
  d.exponent + ((digitChars d.digits).length : Int) - 1

/-! ## The search -/

/-- The rounding interval of a positive double and the double itself, as integers over one common
scale `up / down`. -/
structure Interval where
  low : Nat
  value : Nat
  high : Nat
  up : Nat
  down : Nat
  closed : Bool

/-- The numbers that round to the double, in quarters of its last place.  Below a power of two the
next double is nearer, so the lower end is nearer too.  The ends round to an even mantissa. -/
def Binary.interval (b : Binary) : Interval :=
  let m := b.mantissa
  let narrow := m == hiddenBit && b.exponent != -1074
  let shift := b.exponent - 2
  { low := if narrow then 4 * m - 1 else 4 * m - 2
    value := 4 * m
    high := 4 * m + 2
    up := Nat.pow 2 shift.toNat
    down := Nat.pow 2 (-shift).toNat
    closed := m % 2 == 0 }

/-- The interval measured in units of `10 ^ power`. -/
def Interval.inUnits (i : Interval) (power : Int) : Interval :=
  { i with up := i.up * Nat.pow 10 (-power).toNat, down := i.down * Nat.pow 10 power.toNat }

/-- The whole number `n` of units lies in the interval. -/
def Interval.contains (i : Interval) (n : Nat) : Bool :=
  if i.closed then i.low * i.up ≤ n * i.down && n * i.down ≤ i.high * i.up
  else i.low * i.up < n * i.down && n * i.down < i.high * i.up

/-- The nearest whole number of units in the interval, if one of the two neighbours of the value is
in it.  An exact tie goes to the even one. -/
def Interval.nearest? (i : Interval) : Option Nat :=
  let below := i.value * i.up / i.down
  let above := below + 1
  match i.contains below, i.contains above with
  | true, true =>
    let gapBelow := i.value * i.up - below * i.down
    let gapAbove := above * i.down - i.value * i.up
    if gapBelow < gapAbove then some below
    else if gapAbove < gapBelow then some above
    else if below % 2 = 0 then some below
    else some above
  | true, false => some below
  | false, true => some above
  | false, false => none

def Interval.reaches (i : Interval) (power : Int) : Bool :=
  i.down * Nat.pow 10 power.toNat ≤ i.value * i.up * Nat.pow 10 (-power).toNat

def Binary.leading (b : Binary) : Int :=
  let guess := ((b.mantissa.log2 : Int) + b.exponent) * 30103 / 100000
  let i := b.interval
  if i.reaches (guess + 1) then guess + 1
  else if i.reaches guess then guess
  else guess - 1

def Binary.shortest (b : Binary) : Digits :=
  if b.mantissa = 0 then ⟨0, 0⟩
  else
    let lead := b.leading
    let i := b.interval
    let found := (List.range 17).findSome? fun (n : Nat) =>
      let power : Int := lead - n
      ((i.inUnits power).nearest?).map fun digits => (⟨digits, power⟩ : Digits)
    (found.getD ⟨b.mantissa, b.exponent⟩).strip 18

/-- The shortest decimal number that reads back as the size of a finite double. -/
def shortest (x : Float) : Digits :=
  (Binary.ofFloat x).shortest

end Decimal
end StoryPlayer
