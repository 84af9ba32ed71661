import Ridehail.Number.Power
import Ridehail.Number.Rounding

/-!
# Exact values and orders of doubles

Coordinates, distances and demand factors are 64-bit floating-point numbers.
Arithmetic on them is `Float` arithmetic. Everything else that has to be exact
(printing, rounding to an integer, sorting with `NaN` among the values) starts
from the number a double stands for, which `value?` reads off its bits as
`± mantissa * 2 ^ exponent`.

## Main definitions

* `value?` — the value of a finite double.
* `Datum` — a double whose `NaN` has a sign.
* `orderKey`, `totalLe` — the total order in which
  `-NaN < -inf < … < -0 < 0 < … < inf < NaN`.
* `nearestInt?`, `truncate` — rounding to an integer, half away from zero, and
  cutting off the fraction.
-/

namespace Ridehail.Double

/-- The value `± mantissa * 2 ^ exponent` of a finite double. -/
structure Exact where
  negative : Bool
  mantissa : Nat
  exponent : Int
  deriving DecidableEq, Repr

/-- Whether the sign bit is set, also for a zero. -/
def signBit (x : Float) : Bool := twoPow 63 ≤ x.toBits.toNat

/-- The eleven exponent bits. -/
def exponentBits (x : Float) : Nat := x.toBits.toNat / twoPow 52 % twoPow 11

/-- The fifty-two fraction bits. -/
def fractionBits (x : Float) : Nat := x.toBits.toNat % twoPow 52

/-- The exact value of a double, or nothing for an infinity or `NaN`. -/
def value? (x : Float) : Option Exact :=
  if exponentBits x = 2047 then none
  else if exponentBits x = 0 then some ⟨signBit x, fractionBits x, -1074⟩
  else some ⟨signBit x, twoPow 52 + fractionBits x, exponentBits x - 1075⟩

/-- The magnitude of an exact value as a quotient of naturals. -/
def Exact.ratio (e : Exact) : Nat × Nat :=
  if 0 ≤ e.exponent then (e.mantissa * twoPow e.exponent.toNat, 1)
  else (e.mantissa, twoPow (-e.exponent).toNat)

/-- An integer with the sign of the value put back. -/
def Exact.signed (e : Exact) (n : Nat) : Int :=
  if e.negative then -(n : Int) else n

/-! ## The total order -/

/-- A double as a datum of its format, in which a `NaN` has a sign like every
other value. A `Float` holds one `NaN` only, so the sign of a `NaN` stands
beside it. -/
structure Datum where
  value : Float
  nanNegative : Bool := false
  deriving DecidableEq, Repr, Inhabited

/-- The `NaN` of a `Float` counts as the positive one. -/
instance : Coe Float Datum := ⟨fun value => { value }⟩

/-- The key of what lies as far on the other side of zero. -/
def oppositeKey (key : Int) : Int := -key - 1

/-- A key whose order is the order of the doubles, `-0.0` just below `0.0` and
the two kinds of `NaN` at the ends. -/
def orderKey (d : Datum) : Int :=
  if d.value.isNaN then
    if d.nanNegative then oppositeKey d.value.toBits.toNat
    else d.value.toBits.toNat
  else if signBit d.value then
    oppositeKey (d.value.toBits.toNat - twoPow 63 : Nat)
  else d.value.toBits.toNat

/-- The total order of the doubles. -/
def totalLe (x y : Datum) : Bool := orderKey x ≤ orderKey y

/-- Strictly smaller in the total order. -/
def totalLt (x y : Datum) : Bool := orderKey x < orderKey y

/-- The total order is total. -/
theorem totalLe_total (x y : Datum) : (totalLe x y || totalLe y x) = true := by
  simp only [totalLe, Bool.or_eq_true, decide_eq_true_eq]
  omega

/-- The total order is transitive. -/
theorem totalLe_trans {x y z : Datum} (hxy : totalLe x y = true)
    (hyz : totalLe y z = true) :
    totalLe x z = true := by
  simp only [totalLe, decide_eq_true_eq] at *
  omega

/-! ## Integers -/

/-- The integers of 64-bit signed width. -/
def int64Min : Int := -9223372036854775808

@[inherit_doc int64Min]
def int64Max : Int := 9223372036854775807

/-- An integer brought into 64-bit signed range. -/
def saturate (n : Int) : Int := max int64Min (min n int64Max)

/-- The nearest integer of a finite double, halves away from zero. -/
def nearestInt? (x : Float) : Option Int :=
  (value? x).map fun e => e.signed (roundDiv .up e.ratio.1 e.ratio.2)

/-- The 64-bit integer nearest to a double: `NaN` gives zero and whatever is out
of range gives the bound it passed. -/
def nearestInt64 (x : Float) : Int :=
  match nearestInt? x with
  | some n => saturate n
  | none => if x.isNaN then 0 else if signBit x then int64Min else int64Max

/-- The nearest double to an integer. -/
def ofInt : Int → Float
  | .ofNat n => Float.ofScientific n false 0
  | .negSucc n => -Float.ofScientific (n + 1) false 0

/-- The nearest whole double, halves away from zero and the sign kept. From
`2 ^ 52` on every double is whole. -/
def roundHalfAway (x : Float) : Float :=
  match value? x with
  | none => x
  | some e =>
      if 0 ≤ e.exponent then x
      else
        let whole := ofInt (roundDiv .up e.ratio.1 e.ratio.2)
        if e.negative then -whole else whole

/-! ## Larger and smaller -/

/-- The larger of two doubles; a `NaN` counts as missing. -/
def larger (x y : Float) : Float :=
  if x.isNaN then y else if y.isNaN then x else if x < y then y else x

/-- The smaller of two doubles; a `NaN` counts as missing. -/
def smaller (x y : Float) : Float :=
  if x.isNaN then y else if y.isNaN then x else if y < x then y else x

end Ridehail.Double

namespace Ridehail

/-- A whole number of 64 bits. -/
def IsInt64 (n : Int) : Prop := Double.int64Min ≤ n ∧ n ≤ Double.int64Max

instance (n : Int) : Decidable (IsInt64 n) :=
  inferInstanceAs (Decidable (Double.int64Min ≤ n ∧ n ≤ Double.int64Max))

end Ridehail
