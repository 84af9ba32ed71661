import Ridehail.Decimal.Basic

/-!
# Decimal arithmetic

Sums, differences and products follow one rule: the exact result if it has a
mantissa below `mantissaLimit` and at most 28 places, and otherwise the exact
result rounded, halves to the even neighbour, to the most places at which it
fits. A result that does not fit even as a whole number is an overflow.

## Main definitions

* `fit?` — the rule, for an exact value given by sign, mantissa and scale.
* `add`, `sub`, `mul` — the operations, a missing result being an `Overflow`.
* `mulSign` — the sign of a product that is too small to be told from zero.
-/

namespace Ridehail.Decimal

/-- An arithmetic result beyond the largest decimal. -/
inductive Overflow where
  | addition
  | subtraction
  | multiplication
  deriving DecidableEq, Repr

/-- The wording of an overflow. -/
def Overflow.message : Overflow → String
  | .addition => "Addition overflowed"
  | .subtraction => "Subtraction overflowed"
  | .multiplication => "Multiplication overflowed"

/-- `± mantissa / 10 ^ scale` rounded to `places` places, if that fits. -/
def fitAt? (negative : Bool) (mantissa scale places : Nat) : Option Decimal :=
  mk? negative (roundDiv .toEven mantissa (tenPow (scale - places))) places

/-- The first fit at `places` places or fewer. -/
def fitFrom? (negative : Bool) (mantissa scale : Nat) : Nat → Option Decimal
  | 0 => fitAt? negative mantissa scale 0
  | places + 1 =>
      match fitAt? negative mantissa scale (places + 1) with
      | some d => some d
      | none => fitFrom? negative mantissa scale places

/-- `± mantissa / 10 ^ scale` at the most places that fit. -/
def fit? (negative : Bool) (mantissa scale : Nat) : Option Decimal :=
  fitFrom? negative mantissa scale (min scale 28)

/-- A value within bounds is its own best fit. -/
theorem fit?_eq_some {negative : Bool} {mantissa scale : Nat}
    (hm : mantissa < mantissaLimit) (hs : scale ≤ 28) :
    fit? negative mantissa scale =
      some { negative := negative && mantissa != 0, mantissa, scale,
             mantissa_lt := hm, scale_le := hs } := by
  have hfit : fitAt? negative mantissa scale scale =
      some { negative := negative && mantissa != 0, mantissa, scale,
             mantissa_lt := hm, scale_le := hs } := by
    rw [fitAt?, Nat.sub_self, tenPow_zero, roundDiv_one, mk?, dif_pos ⟨hm, hs⟩]
  rw [fit?, Nat.min_eq_left hs]
  cases scale with
  | zero => simpa [fitFrom?] using hfit
  | succ places => simp [fitFrom?, hfit]

/-- The best fit of a whole number of units `10 ^ -scale`. -/
def ofScaled? (units : Int) (scale : Nat) : Option Decimal :=
  fit? (units < 0) units.natAbs scale

/-- The signed mantissa of `d` at a scale of at least its own. -/
def unitsAt (d : Decimal) (scale : Nat) : Int :=
  d.signed * tenPow (scale - d.scale)

/-- The sum; adding zero changes nothing. -/
def add (a b : Decimal) : Except Overflow Decimal :=
  if a.mantissa = 0 then .ok b
  else if b.mantissa = 0 then .ok a
  else
    let scale := max a.scale b.scale
    match ofScaled? (a.unitsAt scale + b.unitsAt scale) scale with
    | some d => .ok d
    | none => .error .addition

/-- The difference; subtracting zero changes nothing. -/
def sub (a b : Decimal) : Except Overflow Decimal :=
  if a.mantissa = 0 then .ok (if b.mantissa = 0 then b else b.neg)
  else if b.mantissa = 0 then .ok a
  else
    let scale := max a.scale b.scale
    match ofScaled? (a.unitsAt scale - b.unitsAt scale) scale with
    | some d => .ok d
    | none => .error .subtraction

/-- Whether the mantissa has at most 32 bits. -/
def isNarrow (d : Decimal) : Bool := d.mantissa < twoPow 32

/-- The sign of a product that came out as zero: that of the exact product, but
none if both factors are narrow. -/
def mulSign (a b : Decimal) : Bool :=
  (a.negative != b.negative) && !(a.isNarrow && b.isNarrow)

/-- The product; a product with zero has no places. A product too small for 28
places is a zero with the sign `mulSign`. -/
def mul (a b : Decimal) : Except Overflow Decimal :=
  if a.mantissa = 0 ∨ b.mantissa = 0 then .ok zero
  else
    match fit? (a.negative != b.negative) (a.mantissa * b.mantissa)
      (a.scale + b.scale) with
    | some d =>
        .ok (if d.mantissa = 0 then { d with negative := mulSign a b } else d)
    | none => .error .multiplication

end Ridehail.Decimal
