import Ridehail.Double.Basic
import Ridehail.Number.Digits

/-!
# Reading a double by scaling

The quick way to read a decimal numeral: its leading digits, as many as stay
below `2 ^ 64`, are taken as a whole number, and its double is multiplied or
divided by a power of ten. Every step rounds, so the result can be a neighbour
of the double that is nearest to the numeral. Nothing is read beyond the largest
double.

## Main definitions

* `Significand`, `Significand.ofNumeral` — the leading digits and the power of
  ten that belongs to them.
* `scaled?` — the double of a numeral.
-/

namespace Ridehail.Double

/-! ## Leading digits -/

/-- What a significand stays below. -/
def significandLimit : Nat := twoPow 64

/-- `value` followed by the digits that still fit, and how many do not fit. From
the first one that does not, all are left out. -/
def takeDigits (value : Nat) : List Char → Nat × Nat
  | [] => (value, 0)
  | c :: cs =>
      if 10 * value + digitValue c < significandLimit then
        takeDigits (10 * value + digitValue c) cs
      else (value, cs.length + 1)

/-- The number `value * 10 ^ exponent`. -/
structure Significand where
  value : Nat
  exponent : Int
  deriving DecidableEq, Repr

/-- The leading digits of a numeral. Digits left out before the point each count
as a zero, those behind it do not count. Leaving some out before the point does
not keep a digit behind it from being taken. -/
def Significand.ofNumeral (whole fraction : List Char) (exponent : Int) :
    Significand :=
  let (value, zeros) := takeDigits 0 whole
  let (value, unread) := takeDigits value fraction
  ⟨value, exponent + zeros - (fraction.length - unread : Nat)⟩

/-! ## Scaling -/

/-- The largest power of ten that is a double. -/
def greatestPower : Nat := 308

/-- The double nearest to a power of ten. -/
def powerOfTen (k : Nat) : Float := Float.ofScientific 1 false k

/-- `x` multiplied by a power of ten, unless that leads beyond the doubles. -/
def scaleUp? (x : Float) (places : Nat) : Option Float :=
  if places ≤ greatestPower then
    if (x * powerOfTen places).isInf then none else some (x * powerOfTen places)
  else if x == 0.0 then some x
  else none

/-- `x` divided by a power of ten, by the largest one first as often as it
takes. -/
def scaleDown (x : Float) (places : Nat) : Float :=
  if places ≤ greatestPower then x / powerOfTen places
  else if x == 0.0 then x
  else scaleDown (x / powerOfTen greatestPower) (places - greatestPower)
  termination_by places
  decreasing_by simp only [greatestPower] at *; omega

/-- The double of a significand. -/
def Significand.toDouble? (s : Significand) : Option Float :=
  let x := ofInt s.value
  if 0 ≤ s.exponent then scaleUp? x s.exponent.toNat
  else some (scaleDown x (-s.exponent).toNat)

/-- The double of a numeral `± whole.fraction * 10 ^ exponent`. -/
def scaled? (negative : Bool) (whole fraction : List Char) (exponent : Int) :
    Option Float :=
  (Significand.ofNumeral whole fraction exponent).toDouble?.map fun x =>
    if negative then -x else x

end Ridehail.Double
