import Mathlib.Algebra.Order.Field.Basic
import Mathlib.Data.Rat.Cast.Order
import Mathlib.Tactic.FieldSimp
import Mathlib.Tactic.Linarith
import Mathlib.Tactic.NormNum
import Mathlib.Tactic.Positivity
import Mathlib.Tactic.Ring
import Ridehail.Decimal.Arithmetic

/-!
# The numbers that decimals denote

A decimal denotes a rational number.  Comparing decimals is comparing these
numbers, and an arithmetic operation answers with the exact result or with a
decimal near it: near is within one half, because a result is rounded to whole
units at worst.

A result can be exact, with no more places than the operands called for, if it
needs no more digits than a mantissa has.  An operation overflows only if not
even the whole units fit.

## Main results

* `lt_iff_value`, `same_iff_value`, `value_clamp` — comparing and choosing.
* `add_near`, `sub_near`, `mul_near` — a result that fits is near the exact one.
* `add_exact`, `sub_exact`, `mul_exact` — a result with few digits is the exact
  one.
* `le_value_roundCents` — rounding to cents does not pass an amount in cents.
-/

namespace Ridehail

/-! ## Powers and quotients -/

@[simp] theorem cast_tenPow (k : Nat) : (tenPow k : ℚ) = 10 ^ k := by
  rw [show tenPow k = 10 ^ k from rfl]
  push_cast
  rfl

theorem mantissaLimit_eq : (mantissaLimit : ℚ) = 2 ^ 96 := by
  norm_num [mantissaLimit]

/-- A number of units of one place is the number of units of a later place. -/
theorem mul_pow_div_pow {scale places : Nat} (h : scale ≤ places) (x : ℚ) :
    x * 10 ^ (places - scale) / 10 ^ places = x / 10 ^ scale := by
  have hsplit : (10 : ℚ) ^ places = 10 ^ scale * 10 ^ (places - scale) := by
    rw [← pow_add, Nat.add_sub_of_le h]
  rw [hsplit]
  exact mul_div_mul_right _ _ (by positivity)

/-- A quotient and the natural that it is rounded to differ by a half at
most. -/
theorem abs_roundDiv_sub_le (tie : Tie) (num : Nat) {den : Nat}
    (hden : 0 < den) :
    |(roundDiv tie num den : ℚ) - num / den| ≤ 1 / 2 := by
  have hpos : (0 : ℚ) < den := by exact_mod_cast hden
  have hhigh : (2 * den * roundDiv tie num den : ℚ) ≤ 2 * num + den := by
    exact_mod_cast two_mul_roundDiv_le tie num den
  have hlow : (2 * num : ℚ) ≤ 2 * den * roundDiv tie num den + den := by
    exact_mod_cast le_two_mul_roundDiv tie num hden
  have hquot : (num / den : ℚ) * den = num := div_mul_cancel₀ _ hpos.ne'
  rw [abs_le]
  constructor
  · nlinarith
  · nlinarith

namespace Decimal

/-- The number that a decimal denotes. -/
def value (d : Decimal) : ℚ := d.signed / 10 ^ d.scale

/-! ## Comparing -/

theorem scaled_eq_value (d : Decimal) : (d.scaled : ℚ) = d.value * 10 ^ 28 := by
  have hcast : ((tenPow (28 - d.scale) : Int) : ℚ) = 10 ^ (28 - d.scale) := by
    exact_mod_cast cast_tenPow (28 - d.scale)
  rw [scaled, value, Int.cast_mul, hcast, ← mul_pow_div_pow d.scale_le,
    div_mul_cancel₀ _ (by positivity)]

theorem lt_iff_value {a b : Decimal} : a.lt b = true ↔ a.value < b.value := by
  have hscaled : a.scaled < b.scaled ↔ (a.scaled : ℚ) < b.scaled :=
    Int.cast_lt.symm
  rw [lt, decide_eq_true_iff, hscaled, scaled_eq_value, scaled_eq_value]
  exact mul_lt_mul_iff_of_pos_right (by positivity)

theorem same_iff_value {a b : Decimal} :
    a.same b = true ↔ a.value = b.value := by
  have hscaled : a.scaled = b.scaled ↔ (a.scaled : ℚ) = b.scaled :=
    Int.cast_inj.symm
  rw [same, decide_eq_true_iff, hscaled, scaled_eq_value, scaled_eq_value]
  exact mul_left_inj' (by positivity)

theorem value_larger (a b : Decimal) :
    (a.larger b).value = max a.value b.value := by
  unfold larger
  split
  · rename_i h
    exact (max_eq_right (lt_iff_value.1 h).le).symm
  · rename_i h
    exact (max_eq_left (not_lt.1 fun hlt => h (lt_iff_value.2 hlt))).symm

theorem value_smaller (a b : Decimal) :
    (a.smaller b).value = min a.value b.value := by
  unfold smaller
  split
  · rename_i h
    exact (min_eq_right (lt_iff_value.1 h).le).symm
  · rename_i h
    exact (min_eq_left (not_lt.1 fun hlt => h (lt_iff_value.2 hlt))).symm

theorem value_clamp (d low high : Decimal) :
    (d.clamp low high).value = min (max d.value low.value) high.value := by
  rw [clamp, value_smaller, value_larger]

/-- Clamping answers with the decimal or with one of the bounds. -/
theorem clamp_eq_or (d low high : Decimal) :
    d.clamp low high = d ∨ d.clamp low high = low ∨
      d.clamp low high = high := by
  have hlarger : d.larger low = d ∨ d.larger low = low := by
    unfold larger
    split
    · exact .inr rfl
    · exact .inl rfl
  unfold clamp smaller
  split
  · exact .inr (.inr rfl)
  · exact hlarger.imp id .inl

/-! ## Parts of a decimal -/

/-- A number with a sign of its own. -/
def withSign (negative : Bool) (x : ℚ) : ℚ := if negative then -x else x

@[simp] theorem abs_withSign (negative : Bool) (x : ℚ) :
    |withSign negative x| = |x| := by
  cases negative
  · rfl
  · exact abs_neg x

theorem withSign_sub (negative : Bool) (x y : ℚ) :
    withSign negative x - withSign negative y = withSign negative (x - y) := by
  cases negative
  · rfl
  · show -x - -y = -(x - y)
    ring

theorem value_eq_withSign (d : Decimal) :
    d.value = withSign d.negative (d.mantissa / 10 ^ d.scale) := by
  unfold value signed withSign
  split
  · push_cast
    ring
  · push_cast
    rfl

theorem abs_value (d : Decimal) : |d.value| = d.mantissa / 10 ^ d.scale := by
  rw [value_eq_withSign, abs_withSign]
  exact abs_of_nonneg (by positivity)

theorem value_abs (d : Decimal) : d.abs.value = |d.value| := by
  rw [abs_value, value_eq_withSign]
  rfl

theorem value_neg (d : Decimal) : d.neg.value = -d.value := by
  rw [value_eq_withSign, value_eq_withSign]
  show withSign (!d.negative) (d.mantissa / 10 ^ d.scale) = _
  cases d.negative
  · rfl
  · exact (neg_neg _).symm

theorem value_of_mantissa_eq_zero {d : Decimal} (h : d.mantissa = 0) :
    d.value = 0 := by
  rw [← abs_eq_zero, abs_value, h]
  simp

theorem value_zero : zero.value = 0 := value_of_mantissa_eq_zero rfl

theorem value_ofUnits {n scale : Nat} (h : scale ≤ 28)
    (hn : n < mantissaLimit) :
    (ofUnits n scale h).value = n / 10 ^ scale := by
  have hmin : min n (mantissaLimit - 1) = n := Nat.min_eq_left (by omega)
  rw [value_eq_withSign]
  show ((min n (mantissaLimit - 1) : Nat) : ℚ) / 10 ^ scale = _
  rw [hmin]

/-- A whole number of 64 bits is denoted by its decimal. -/
theorem value_ofInt {n : Int} (hn : n.natAbs < mantissaLimit) :
    (ofInt n).value = n := by
  have hmin : min n.natAbs (mantissaLimit - 1) = n.natAbs :=
    Nat.min_eq_left (by omega)
  rw [value_eq_withSign]
  show withSign (decide (n < 0))
    (((min n.natAbs (mantissaLimit - 1) : Nat) : ℚ) / 10 ^ 0) = n
  rw [hmin, pow_zero, div_one, Nat.cast_natAbs]
  by_cases hneg : n < 0
  · have hcast : ((|n| : Int) : ℚ) = -n := by rw [abs_of_neg hneg, Int.cast_neg]
    simp [withSign, hneg, hcast]
  · have hcast : ((|n| : Int) : ℚ) = n := by rw [abs_of_nonneg (not_lt.1 hneg)]
    simp [withSign, hneg, hcast]

/-! ## Fitting -/

theorem mk?_eq_some {negative : Bool} {mantissa scale : Nat} {d : Decimal}
    (h : mk? negative mantissa scale = some d) :
    d.scale = scale ∧ d.value = withSign negative (mantissa / 10 ^ scale) := by
  unfold mk? at h
  split at h
  · cases h
    refine ⟨rfl, ?_⟩
    rw [value_eq_withSign]
    cases negative with
    | false => rfl
    | true =>
        show withSign (mantissa != 0) (mantissa / 10 ^ scale) = _
        by_cases hzero : mantissa = 0
        · simp [hzero, withSign]
        · rw [bne_iff_ne.2 hzero]
  · cases h

/-- A fit has at most the places that were asked for, and is near the exact
value. -/
theorem fitFrom?_eq_some {negative : Bool} {mantissa scale places : Nat}
    {d : Decimal} (hplaces : places ≤ scale)
    (h : fitFrom? negative mantissa scale places = some d) :
    d.scale ≤ places ∧ |d.value - withSign negative (mantissa / 10 ^ scale)| ≤
      1 / 2 := by
  induction places with
  | zero =>
      obtain ⟨hscale, hvalue⟩ := mk?_eq_some h
      refine ⟨hscale.le, ?_⟩
      have hround :=
        abs_roundDiv_sub_le .toEven mantissa (tenPow_pos (scale - 0))
      rw [hvalue, withSign_sub, abs_withSign]
      simpa using hround
  | succ places ih =>
      unfold fitFrom? at h
      split at h
      · rename_i d' hfit
        cases h
        obtain ⟨hscale, hvalue⟩ := mk?_eq_some hfit
        refine ⟨hscale.le, ?_⟩
        have hround :=
          abs_roundDiv_sub_le .toEven mantissa
            (tenPow_pos (scale - (places + 1)))
        have hpow : (1 : ℚ) ≤ 10 ^ (places + 1) := one_le_pow₀ (by norm_num)
        have hsplit : (10 : ℚ) ^ scale =
            10 ^ (scale - (places + 1)) * 10 ^ (places + 1) := by
          rw [← pow_add, Nat.sub_add_cancel hplaces]
        rw [cast_tenPow] at hround
        rw [hvalue, withSign_sub, abs_withSign,
          hsplit, ← div_div, ← sub_div, abs_div,
          abs_of_pos (lt_of_lt_of_le one_pos hpow)]
        exact (div_le_self (abs_nonneg _) hpow).trans hround
      · obtain ⟨hscale, hnear⟩ := ih (by omega) h
        exact ⟨by omega, hnear⟩

/-- What fits as a whole number fits. -/
theorem exists_fitFrom? (negative : Bool) {mantissa scale : Nat} (places : Nat)
    (h : (mantissa : ℚ) / 10 ^ scale ≤ mantissaLimit - 1) :
    ∃ d, fitFrom? negative mantissa scale places = some d := by
  induction places with
  | zero =>
      have hround := abs_roundDiv_sub_le .toEven mantissa (tenPow_pos scale)
      rw [cast_tenPow, abs_le] at hround
      have hlt : roundDiv .toEven mantissa (tenPow scale) < mantissaLimit := by
        have hcast : (roundDiv .toEven mantissa (tenPow scale) : ℚ) <
            mantissaLimit := by
          linarith [hround.2]
        exact_mod_cast hcast
      unfold fitFrom? fitAt? mk?
      rw [Nat.sub_zero, dif_pos ⟨hlt, by decide⟩]
      exact ⟨_, rfl⟩
  | succ places ih =>
      unfold fitFrom?
      split
      · exact ⟨_, rfl⟩
      · exact ih

/-- A value that fits as a whole number has a fit near it. -/
theorem fit?_near (negative : Bool) {mantissa scale : Nat}
    (h : (mantissa : ℚ) / 10 ^ scale ≤ mantissaLimit - 1) :
    ∃ d, fit? negative mantissa scale = some d ∧
      |d.value - withSign negative (mantissa / 10 ^ scale)| ≤ 1 / 2 := by
  obtain ⟨d, hd⟩ := exists_fitFrom? negative (min scale 28) h
  exact ⟨d, hd, (fitFrom?_eq_some (Nat.min_le_left _ _) hd).2⟩

/-- A value with few digits is its own fit. -/
theorem fit?_exact (negative : Bool) {mantissa scale : Nat}
    (hm : mantissa < mantissaLimit) (hs : scale ≤ 28) :
    ∃ d, fit? negative mantissa scale = some d ∧ d.scale = scale ∧
      d.value = withSign negative (mantissa / 10 ^ scale) := by
  have hmk : mk? negative mantissa scale =
      some { negative := negative && mantissa != 0, mantissa, scale,
             mantissa_lt := hm, scale_le := hs } := dif_pos ⟨hm, hs⟩
  exact ⟨_, fit?_eq_some hm hs, rfl, (mk?_eq_some hmk).2⟩

/-! ## Sums and differences -/

/-- The number of some units, by its sign and magnitude. -/
theorem withSign_units (units : Int) (scale : Nat) :
    withSign (decide (units < 0)) ((units.natAbs : ℚ) / 10 ^ scale) =
      units / 10 ^ scale := by
  have habs : (units.natAbs : ℚ) = |(units : ℚ)| := by
    rw [Nat.cast_natAbs, Int.cast_abs]
  rw [habs]
  by_cases hneg : units < 0
  · have hcast : (units : ℚ) < 0 := by exact_mod_cast hneg
    simp only [withSign, hneg, decide_true, if_true, abs_of_neg hcast]
    ring
  · have hcast : (0 : ℚ) ≤ units := by exact_mod_cast not_lt.1 hneg
    simp [withSign, hneg, abs_of_nonneg hcast]

theorem ofScaled?_near {units : Int} {scale : Nat}
    (h : |(units : ℚ) / 10 ^ scale| ≤ mantissaLimit - 1) :
    ∃ d, ofScaled? units scale = some d ∧
      |d.value - units / 10 ^ scale| ≤ 1 / 2 := by
  rw [← withSign_units, abs_withSign, abs_of_nonneg (by positivity)] at h
  obtain ⟨d, hd, hnear⟩ := fit?_near (decide (units < 0)) h
  rw [withSign_units] at hnear
  exact ⟨d, hd, hnear⟩

theorem ofScaled?_exact {units : Int} {scale : Nat}
    (hunits : units.natAbs < mantissaLimit) (hs : scale ≤ 28) :
    ∃ d, ofScaled? units scale = some d ∧ d.scale = scale ∧
      d.value = units / 10 ^ scale := by
  obtain ⟨d, hd, hscale, hvalue⟩ := fit?_exact (decide (units < 0)) hunits hs
  rw [withSign_units] at hvalue
  exact ⟨d, hd, hscale, hvalue⟩

theorem unitsAt_eq_value {d : Decimal} {scale : Nat} (h : d.scale ≤ scale) :
    (d.unitsAt scale : ℚ) / 10 ^ scale = d.value := by
  have hcast : ((tenPow (scale - d.scale) : Int) : ℚ) =
      10 ^ (scale - d.scale) := by
    exact_mod_cast cast_tenPow (scale - d.scale)
  rw [unitsAt, value, Int.cast_mul, hcast, mul_pow_div_pow h]

variable {a b : Decimal}

theorem unitsAt_add :
    ((a.unitsAt (max a.scale b.scale) + b.unitsAt (max a.scale b.scale) : Int) :
    ℚ) / 10 ^ max a.scale b.scale = a.value + b.value := by
  rw [Int.cast_add, add_div, unitsAt_eq_value (le_max_left _ _),
    unitsAt_eq_value (le_max_right _ _)]

theorem unitsAt_sub :
    ((a.unitsAt (max a.scale b.scale) - b.unitsAt (max a.scale b.scale) : Int) :
    ℚ) / 10 ^ max a.scale b.scale = a.value - b.value := by
  rw [Int.cast_sub, sub_div, unitsAt_eq_value (le_max_left _ _),
    unitsAt_eq_value (le_max_right _ _)]

/-- Units whose number has few digits are few. -/
theorem natAbs_lt_of_value {units : Int} {scale : Nat} {x : ℚ}
    (hx : (units : ℚ) / 10 ^ scale = x) (h : |x| * 10 ^ scale < mantissaLimit) :
    units.natAbs < mantissaLimit := by
  have hcast : (units.natAbs : ℚ) < mantissaLimit := by
    rw [Nat.cast_natAbs, Int.cast_abs]
    rw [← hx, abs_div, abs_of_pos (show (0 : ℚ) < 10 ^ scale by positivity)]
      at h
    rwa [div_mul_cancel₀ _ (by positivity)] at h
  exact_mod_cast hcast

/-- A sum that fits as a whole number is near the exact one. -/
theorem add_near (h : |a.value + b.value| ≤ mantissaLimit - 1) :
    ∃ d, a.add b = .ok d ∧ |d.value - (a.value + b.value)| ≤ 1 / 2 := by
  unfold add
  split
  · rename_i hzero
    exact ⟨b, rfl, by rw [value_of_mantissa_eq_zero hzero]; norm_num⟩
  · split
    · rename_i hzero
      exact ⟨a, rfl, by rw [value_of_mantissa_eq_zero hzero]; norm_num⟩
    · rw [← unitsAt_add] at h
      obtain ⟨d, hd, hnear⟩ := ofScaled?_near h
      rw [unitsAt_add] at hnear
      exact ⟨d, by simp only [hd], hnear⟩

/-- A difference that fits as a whole number is near the exact one. -/
theorem sub_near (h : |a.value - b.value| ≤ mantissaLimit - 1) :
    ∃ d, a.sub b = .ok d ∧ |d.value - (a.value - b.value)| ≤ 1 / 2 := by
  unfold sub
  split
  · rename_i hzero
    refine ⟨if b.mantissa = 0 then b else b.neg, rfl, ?_⟩
    rw [value_of_mantissa_eq_zero hzero]
    split
    · rename_i hboth
      rw [value_of_mantissa_eq_zero hboth]
      norm_num
    · rw [value_neg]
      norm_num
  · split
    · rename_i hzero
      exact ⟨a, rfl, by rw [value_of_mantissa_eq_zero hzero]; norm_num⟩
    · rw [← unitsAt_sub] at h
      obtain ⟨d, hd, hnear⟩ := ofScaled?_near h
      rw [unitsAt_sub] at hnear
      exact ⟨d, by simp only [hd], hnear⟩

/-- A sum with few digits is exact. -/
theorem add_exact
    (h : |a.value + b.value| * 10 ^ max a.scale b.scale < mantissaLimit) :
    ∃ d, a.add b = .ok d ∧ d.scale ≤ max a.scale b.scale ∧
      d.value = a.value + b.value := by
  unfold add
  split
  · rename_i hzero
    exact ⟨b, rfl, le_max_right _ _, by
      rw [value_of_mantissa_eq_zero hzero, zero_add]⟩
  · split
    · rename_i hzero
      exact ⟨a, rfl, le_max_left _ _, by
        rw [value_of_mantissa_eq_zero hzero, add_zero]⟩
    · obtain ⟨d, hd, hscale, hvalue⟩ :=
        ofScaled?_exact (natAbs_lt_of_value unitsAt_add h)
        (max_le a.scale_le b.scale_le)
      rw [unitsAt_add] at hvalue
      exact ⟨d, by simp only [hd], hscale.le, hvalue⟩

/-- A difference with few digits is exact. -/
theorem sub_exact
    (h : |a.value - b.value| * 10 ^ max a.scale b.scale < mantissaLimit) :
    ∃ d, a.sub b = .ok d ∧ d.scale ≤ max a.scale b.scale ∧
      d.value = a.value - b.value := by
  unfold sub
  split
  · rename_i hzero
    refine ⟨if b.mantissa = 0 then b else b.neg, rfl, ?_, ?_⟩
    · split <;> exact le_max_right _ _
    · rw [value_of_mantissa_eq_zero hzero, zero_sub]
      split
      · rename_i hboth
        rw [value_of_mantissa_eq_zero hboth, neg_zero]
      · exact value_neg b
  · split
    · rename_i hzero
      exact ⟨a, rfl, le_max_left _ _, by
        rw [value_of_mantissa_eq_zero hzero, sub_zero]⟩
    · obtain ⟨d, hd, hscale, hvalue⟩ :=
        ofScaled?_exact (natAbs_lt_of_value unitsAt_sub h)
        (max_le a.scale_le b.scale_le)
      rw [unitsAt_sub] at hvalue
      exact ⟨d, by simp only [hd], hscale.le, hvalue⟩

/-! ## Products -/

theorem value_mul_eq : a.value * b.value =
    withSign (a.negative != b.negative) ((a.mantissa * b.mantissa : Nat) /
      10 ^ (a.scale + b.scale)) := by
  have hsigns (x y : ℚ) : withSign a.negative x * withSign b.negative y =
      withSign (a.negative != b.negative) (x * y) := by
    cases a.negative <;> cases b.negative <;> simp [withSign]
  rw [value_eq_withSign a, value_eq_withSign b, hsigns, pow_add, Nat.cast_mul]
  congr 1
  field_simp

/-- A product of no zeros is the best fit, which as a zero may have another
sign. -/
theorem mul_of_fit? {d : Decimal} (ha : a.mantissa ≠ 0) (hb : b.mantissa ≠ 0)
    (h : fit? (a.negative != b.negative) (a.mantissa * b.mantissa)
      (a.scale + b.scale) = some d) :
    ∃ d', a.mul b = .ok d' ∧ d'.scale = d.scale ∧ d'.value = d.value := by
  unfold mul
  rw [if_neg (by simp [ha, hb]), h]
  by_cases hzero : d.mantissa = 0
  · refine ⟨{ d with negative := mulSign a b }, by simp [hzero], rfl, ?_⟩
    rw [value_of_mantissa_eq_zero hzero]
    exact value_of_mantissa_eq_zero hzero
  · exact ⟨d, by simp [hzero], rfl, rfl⟩

theorem mul_of_zero (h : a.mantissa = 0 ∨ b.mantissa = 0) :
    a.mul b = .ok zero ∧ a.value * b.value = 0 := by
  refine ⟨if_pos h, ?_⟩
  rcases h with h | h
  · rw [value_of_mantissa_eq_zero h, zero_mul]
  · rw [value_of_mantissa_eq_zero h, mul_zero]

/-- A product that fits as a whole number is near the exact one. -/
theorem mul_near (h : |a.value * b.value| ≤ mantissaLimit - 1) :
    ∃ d, a.mul b = .ok d ∧ |d.value - a.value * b.value| ≤ 1 / 2 := by
  by_cases hzero : a.mantissa = 0 ∨ b.mantissa = 0
  · obtain ⟨hmul, hvalue⟩ := mul_of_zero hzero
    exact ⟨zero, hmul, by rw [hvalue, value_zero]; norm_num⟩
  · obtain ⟨ha, hb⟩ := not_or.1 hzero
    rw [value_mul_eq, abs_withSign, abs_of_nonneg (by positivity)] at h
    obtain ⟨d, hd, hnear⟩ := fit?_near (a.negative != b.negative) h
    obtain ⟨d', hmul, -, hvalue⟩ := mul_of_fit? ha hb hd
    rw [← value_mul_eq, ← hvalue] at hnear
    exact ⟨d', hmul, hnear⟩

/-- A product with few digits is exact. -/
theorem mul_exact
    (h : |a.value * b.value| * 10 ^ (a.scale + b.scale) < mantissaLimit)
    (hscale : a.scale + b.scale ≤ 28) :
    ∃ d, a.mul b = .ok d ∧ d.scale ≤ a.scale + b.scale ∧
      d.value = a.value * b.value := by
  by_cases hzero : a.mantissa = 0 ∨ b.mantissa = 0
  · obtain ⟨hmul, hvalue⟩ := mul_of_zero hzero
    exact ⟨zero, hmul, Nat.zero_le _, by rw [hvalue, value_zero]⟩
  · obtain ⟨ha, hb⟩ := not_or.1 hzero
    have hlt : a.mantissa * b.mantissa < mantissaLimit := by
      rw [value_mul_eq, abs_withSign, abs_of_nonneg (by positivity),
        div_mul_cancel₀ _ (by positivity)] at h
      exact_mod_cast h
    obtain ⟨d, hd, hd', hvalue⟩ :=
      fit?_exact (a.negative != b.negative) hlt hscale
    obtain ⟨d', hmul, hsame, hvalue'⟩ := mul_of_fit? ha hb hd
    exact ⟨d', hmul, (hsame.trans hd').le, by
      rw [hvalue', hvalue, value_mul_eq]⟩

/-! ## Whole cents -/

variable {d : Decimal}

theorem scale_roundCents_le (d : Decimal) : d.roundCents.scale ≤ 2 := by
  unfold roundCents
  split
  · exact Nat.le_refl 2
  · split
    · assumption
    · exact Nat.le_refl 2

/-- Rounding to cents changes an amount by half a cent at most. -/
theorem abs_value_roundCents_sub_le (d : Decimal) :
    |d.roundCents.value - d.value| ≤ 1 / 200 := by
  unfold roundCents
  split
  · rename_i hzero
    rw [value_of_mantissa_eq_zero hzero, value_of_mantissa_eq_zero rfl]
    norm_num
  · split
    · rw [sub_self]
      norm_num
    · rename_i hmany
      have hplaces : 2 ≤ d.scale := by omega
      have hround :=
        abs_roundDiv_sub_le .up d.mantissa (tenPow_pos (d.scale - 2))
      have hsplit : (10 : ℚ) ^ d.scale = 10 ^ (d.scale - 2) * 10 ^ 2 := by
        rw [← pow_add, Nat.sub_add_cancel hplaces]
      -- Dropping the sign of a zero leaves the number alone.
      have hvalue (rounded : Decimal) :
          ({ rounded with
            negative := d.negative && rounded.mantissa != 0 } : Decimal).value =
            withSign d.negative (rounded.mantissa / 10 ^ rounded.scale) := by
        rw [value_eq_withSign]
        by_cases hzero : rounded.mantissa = 0
        · simp [withSign, hzero]
        · show withSign (d.negative && rounded.mantissa != 0) _ = _
          rw [bne_iff_ne.2 hzero, Bool.and_true]
      rw [hvalue, value_eq_withSign d, withSign_sub, abs_withSign,
        hsplit, ← div_div]
      show |(roundDiv .up d.mantissa (tenPow (d.scale - 2)) : ℚ) / 10 ^ 2 - _| ≤
        _
      rw [cast_tenPow] at hround
      rw [← sub_div, abs_div, abs_of_pos (show (0 : ℚ) < 10 ^ 2 by norm_num)]
      linarith

/-- An amount in cents is a whole number of cents. -/
theorem exists_cents (h : d.scale ≤ 2) : ∃ n : Int, d.value = n / 100 := by
  refine ⟨d.unitsAt 2, ?_⟩
  rw [← unitsAt_eq_value h]
  norm_num

/-- Rounding to cents does not pass an amount in cents. -/
theorem le_value_roundCents {c : Decimal} (hc : c.scale ≤ 2)
    (h : c.value ≤ d.value) :
    c.value ≤ d.roundCents.value := by
  obtain ⟨n, hn⟩ := exists_cents hc
  obtain ⟨m, hm⟩ := exists_cents (scale_roundCents_le d)
  have hnear := abs_le.1 (abs_value_roundCents_sub_le d)
  rw [hn] at h ⊢
  rw [hm] at hnear ⊢
  have hlt : ((n - 1 : Int) : ℚ) < m := by
    push_cast
    linarith [hnear.1]
  have hle : n ≤ m := by
    have hint : n - 1 < m := by exact_mod_cast hlt
    omega
  have hcast : (n : ℚ) ≤ m := by exact_mod_cast hle
  linarith

end Decimal

end Ridehail
