import Ridehail.Number.Digits
import Ridehail.Number.Power
import Ridehail.Number.Rounding

/-!
# Decimals: money and multipliers

Fares and price multipliers are decimals `± mantissa / 10 ^ scale` with a
mantissa below `mantissaLimit` and at most 28 places. Two decimals with
different scales may denote one number, so equality of amounts is `same`, the
order is numeric, and a decimal has one canonical text, that of its `normalize`d
form.

## Main definitions

* `Decimal` — the type, its bounds part of it.
* `scaled`, `compare`, `same`, `lt` — numeric comparison.
* `larger`, `smaller`, `clamp` — choosing among decimals; on a numeric tie the
  first argument stays.
* `withScale`, `roundCents` — fewer places, halves away from zero.
* `normalize`, `text` — the form without trailing zeros and its text.
-/

namespace Ridehail

/-- What every mantissa is below: `2 ^ 96`. -/
def mantissaLimit : Nat := 79228162514264337593543950336

/-- The decimal `± mantissa / 10 ^ scale`. -/
structure Decimal where
  negative : Bool
  mantissa : Nat
  scale : Nat
  mantissa_lt : mantissa < mantissaLimit := by decide
  scale_le : scale ≤ 28 := by decide
  deriving DecidableEq, Repr

namespace Decimal

/-! ## Making decimals -/

/-- Zero, with no places. -/
def zero : Decimal := { negative := false, mantissa := 0, scale := 0 }

/-- One, with no places. -/
def one : Decimal := { negative := false, mantissa := 1, scale := 0 }

instance : Inhabited Decimal := ⟨zero⟩

/-- A whole number of units of a place, held below the bound of mantissas. -/
def ofUnits (n scale : Nat) (h : scale ≤ 28) : Decimal :=
  { negative := false, mantissa := min n (mantissaLimit - 1),
    scale, scale_le := h
    mantissa_lt := by unfold mantissaLimit; omega }

/-- `n` hundredths. -/
def cents (n : Nat) : Decimal := ofUnits n 2 (by decide)

/-- `n` tenths. -/
def tenths (n : Nat) : Decimal := ofUnits n 1 (by decide)

/-- A decimal from its sign, mantissa and scale, if they are within bounds. A
zero is made without a sign. -/
def mk? (negative : Bool) (mantissa scale : Nat) : Option Decimal :=
  if h : mantissa < mantissaLimit ∧ scale ≤ 28 then
    some { negative := negative && mantissa != 0, mantissa, scale,
           mantissa_lt := h.1, scale_le := h.2 }
  else none

/-- The decimal of a whole number; every 64-bit number is far within bounds, and
anything beyond them is held at the bound. -/
def ofInt (n : Int) : Decimal :=
  { negative := n < 0, mantissa := min n.natAbs (mantissaLimit - 1), scale := 0,
    mantissa_lt := by unfold mantissaLimit; omega }

/-! ## Sign and order -/

/-- The mantissa with its sign. -/
def signed (d : Decimal) : Int :=
  if d.negative then -(d.mantissa : Int) else d.mantissa

/-- The value in units of `10 ^ -28`, in which every decimal is whole. -/
def scaled (d : Decimal) : Int := d.signed * tenPow (28 - d.scale)

/-- Numeric comparison. -/
def compare (a b : Decimal) : Ordering := Ord.compare a.scaled b.scaled

/-- Whether two decimals denote the same number. -/
def same (a b : Decimal) : Bool := a.scaled = b.scaled

/-- Whether `a` denotes a smaller number than `b`. -/
def lt (a b : Decimal) : Bool := a.scaled < b.scaled

/-- Whether the number is below zero; no zero is. -/
def isNegative (d : Decimal) : Bool := d.negative && d.mantissa != 0

/-- The same magnitude without a sign. -/
def abs (d : Decimal) : Decimal := { d with negative := false }

/-- The same magnitude with the other sign. -/
def neg (d : Decimal) : Decimal := { d with negative := !d.negative }

/-- The larger of two decimals. -/
def larger (a b : Decimal) : Decimal := if a.lt b then b else a

/-- The smaller of two decimals. -/
def smaller (a b : Decimal) : Decimal := if b.lt a then b else a

/-- Raised to `low` and then lowered to `high`. -/
def clamp (d low high : Decimal) : Decimal := (d.larger low).smaller high

/-! ## Fewer places -/

/-- Dividing by ten or more and rounding stays within 96 bits. -/
theorem roundDiv_lt {m den : Nat} (tie : Tie) (hm : m < mantissaLimit)
    (hden : 10 ≤ den) :
    roundDiv tie m den < mantissaLimit := by
  have hquot : m / den ≤ m / 10 := Nat.div_le_div_left hden (by decide)
  unfold mantissaLimit at *
  unfold roundDiv
  split <;> omega

/-- Rounded to at most the places it has, halves away from zero. The sign stays
even if no other digit does. -/
def withScale (d : Decimal) (places : Nat) (h : places ≤ d.scale) : Decimal :=
  { negative := d.negative
    mantissa := roundDiv .up d.mantissa (tenPow (d.scale - places))
    scale := places
    scale_le := Nat.le_trans h d.scale_le
    mantissa_lt := by
      rcases Nat.eq_or_lt_of_le h with heq | hlt
      · rw [heq, Nat.sub_self, tenPow_zero, roundDiv_one]
        exact d.mantissa_lt
      · exact roundDiv_lt .up d.mantissa_lt (ten_le_tenPow (by omega)) }

/-- Rounded to two places, halves away from zero; fewer places are kept. A
number that only becomes zero loses its sign, a zero keeps it. -/
def roundCents (d : Decimal) : Decimal :=
  if d.mantissa = 0 then { negative := d.negative, mantissa := 0, scale := 2 }
  else if h : d.scale ≤ 2 then d
  else
    let rounded := d.withScale 2 (by omega)
    { rounded with negative := d.negative && rounded.mantissa != 0 }

/-! ## Canonical form -/

/-- Drops trailing zeros of `mantissa / 10 ^ scale`, as many as there are
places. -/
def stripZeros (mantissa : Nat) : Nat → Nat × Nat
  | 0 => (mantissa, 0)
  | scale + 1 =>
      if mantissa % 10 = 0 then stripZeros (mantissa / 10) scale
      else (mantissa, scale + 1)

/-- Stripping only makes the mantissa smaller. -/
theorem stripZeros_mantissa_le (mantissa scale : Nat) :
    (stripZeros mantissa scale).1 ≤ mantissa := by
  fun_induction stripZeros mantissa scale with
  | case1 => exact Nat.le_refl _
  | case2 mantissa scale _ ih => omega
  | case3 => exact Nat.le_refl _

/-- Stripping only removes places. -/
theorem stripZeros_scale_le (mantissa scale : Nat) :
    (stripZeros mantissa scale).2 ≤ scale := by
  fun_induction stripZeros mantissa scale with
  | case1 => exact Nat.le_refl _
  | case2 mantissa scale _ ih => omega
  | case3 => exact Nat.le_refl _

/-- The same number without trailing zeros, and without a sign if it is zero. -/
def normalize (d : Decimal) : Decimal :=
  { negative := d.isNegative
    mantissa := (stripZeros d.mantissa d.scale).1
    scale := (stripZeros d.mantissa d.scale).2
    mantissa_lt := Nat.lt_of_le_of_lt (stripZeros_mantissa_le _ _) d.mantissa_lt
    scale_le := Nat.le_trans (stripZeros_scale_le _ _) d.scale_le }

/-- The characters of the canonical text. -/
def chars (d : Decimal) : List Char :=
  let n := d.normalize
  let digits := pointedDigits n.scale n.mantissa
  if n.negative then '-' :: digits else digits

/-- The canonical text: no exponent, no trailing zeros, no sign on zero. -/
def text (d : Decimal) : String := String.ofList d.chars

end Decimal

end Ridehail
