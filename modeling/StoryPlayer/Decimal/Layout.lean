import StoryPlayer.Decimal.Shortest

/-!
# Layout of decimal digits

Writing a double from its shortest digits.  A `Layout` holds the decisions of one format: which
powers of ten are written out in full, whether whole numbers keep a fraction, and how an exponent is
signed.

- `Layout.plain`, `Layout.document`, `Layout.scientific`, `Layout.literal` are the formats in use,
- `Layout.write` writes a double.
-/

namespace StoryPlayer
namespace Decimal

structure Layout where
  /-- The least power of ten of a leading digit that is written in full; none for no bound. -/
  least : Option Int
  /-- The greatest power of ten of a leading digit that is written in full; none for no bound. -/
  greatest : Option Int
  /-- Whole numbers written in full end in a zero fraction. -/
  fraction : Bool
  /-- A positive exponent carries a plus sign. -/
  plusSign : Bool

/-- Every digit in full, and a fraction only where there is one. -/
def Layout.plain : Layout := ⟨none, none, false, false⟩

/-- Numbers of a saved document: in full from `1e-5` up to `1e16`, always with a fraction. -/
def Layout.document : Layout := ⟨some (-5), some 15, true, true⟩

def Layout.scientific : Layout := ⟨some 1, some 0, false, false⟩

/-- Numbers inside a printed list: in full from `1e-4` up to `1e16`, always with a fraction. -/
def Layout.literal : Layout := ⟨some (-4), some 15, true, false⟩

def Layout.inFull (l : Layout) (power : Int) : Bool :=
  (l.least.all fun low => low ≤ power) && (l.greatest.all fun high => power ≤ high)

/-- The digits with the point after the first `power + 1` of them, padded with zeros. -/
def writeInFull (fraction : Bool) (ds : List Char) (power : Int) : List Char :=
  if power < 0 then
    '0' :: '.' :: List.replicate ((-power).toNat - 1) '0' ++ ds
  else
    let whole := power.toNat + 1
    let front := ds.take whole ++ List.replicate (whole - ds.length) '0'
    match ds.drop whole with
    | [] => if fraction then front ++ ['.', '0'] else front
    | rest => front ++ '.' :: rest

/-- The digits with the point after the first one, and the power of ten as an exponent. -/
def writeExponent (plusSign : Bool) (ds : List Char) (power : Int) : List Char :=
  let mantissa := match ds with
    | first :: second :: rest => first :: '.' :: second :: rest
    | short => short
  let sign := if power < 0 then ['-'] else if plusSign then ['+'] else []
  mantissa ++ 'e' :: sign ++ digitChars power.natAbs

def Layout.write (l : Layout) (x : Float) : String :=
  if x.isNaN then "NaN"
  else if x.isInf then (if x < 0 then "-inf" else "inf")
  else
    let b := Binary.ofFloat x
    let d := b.shortest
    let ds := digitChars d.digits
    let power := if d.digits = 0 then 0 else d.scientific
    let body :=
      if d.digits = 0 || l.inFull power then writeInFull l.fraction ds power
      else writeExponent l.plusSign ds power
    String.ofList (if b.negative then '-' :: body else body)

end Decimal
end StoryPlayer
