import Ridehail.Pricing.Factors
import Ridehail.Proofs.Decimal.OfDouble

/-!
# Multipliers stay in bounds

The factors of a place may be any doubles, so their weighted sum may come near
the largest decimal.  It does not overflow: the weights make one, every share
and every partial sum is rounded by half a unit at most, and the decimal of a
double keeps far more than these few units away from the bound.

The step from the previous multiplier is at most one half because the previous
one is a multiplier itself, that is, in bounds and in whole cents.  The
difference of a huge sum and a multiplier is rounded, but it is huge as well,
and every other difference is exact.

## Main results

* `SurgeFactors.exists_weighted` — any factors have a weighted sum, in whole
  cents.
* `Surge.exists_smooth` — the next multiplier is one, and within a step of the
  previous.
* `Surge.exists_predictNextHour` — the prediction is one, and no less than the
  present.
-/

namespace Ridehail

open Decimal

/-- The decimals that a multiplier can be: from one to five, in whole cents. -/
structure Surge.IsMultiplier (m : Decimal) : Prop where
  one_le : 1 ≤ m.value
  le_five : m.value ≤ 5
  scale_le : m.scale ≤ 2

/-! ## The weighted sum -/

namespace SurgeFactors

/-- What a share adds to the size of a sum at most: the largest decimal of a
double with its weight, and two roundings. -/
def allowance (weight : Decimal) : ℚ :=
  (mantissaLimit - 2 ^ 43) * weight.value + 1

theorem allowance_nonneg {weight : Decimal} (h : 0 ≤ weight.value) :
    0 ≤ allowance weight := by
  have hprod : 0 ≤ ((2 : ℚ) ^ 96 - 2 ^ 43) * weight.value :=
    mul_nonneg (by norm_num) h
  rw [allowance, mantissaLimit_eq]
  linarith

/-- One more share is added. -/
theorem exists_addShare {total value weight : Decimal}
    (hvalue : |value.value| ≤ mantissaLimit - 2 ^ 43)
    (hweight : 0 ≤ weight.value)
    (h : |total.value| + allowance weight ≤ mantissaLimit - 1) :
    ∃ share next, value.mul weight = .ok share ∧ total.add share = .ok next ∧
      |next.value| ≤ |total.value| + allowance weight := by
  rw [allowance] at h ⊢
  have htotal := abs_nonneg total.value
  have hproduct : |value.value * weight.value| ≤
      (mantissaLimit - 2 ^ 43) * weight.value := by
    rw [abs_mul, abs_of_nonneg hweight]
    exact mul_le_mul_of_nonneg_right hvalue hweight
  obtain ⟨share, hmul, hshare⟩ :=
    mul_near (a := value) (b := weight) (by linarith)
  have hshareSize :=
    abs_sub_abs_le_abs_sub share.value (value.value * weight.value)
  have hsum := abs_add_le total.value share.value
  obtain ⟨next, hadd, hnext⟩ := add_near (a := total) (b := share) (by linarith)
  have hnextSize :=
    abs_sub_abs_le_abs_sub next.value (total.value + share.value)
  exact ⟨share, next, hmul, hadd, by linarith⟩

theorem exists_accumulate {pairs : List (Decimal × Decimal)} (total : Decimal)
    (hpairs : ∀ pair ∈ pairs, |pair.1.value| ≤ mantissaLimit - 2 ^ 43 ∧
      0 ≤ pair.2.value)
    (h : |total.value| + (pairs.map fun pair => allowance pair.2).sum ≤
      mantissaLimit - 1) :
    ∃ sum, accumulate total pairs = .ok sum ∧
      |sum.value| ≤ |total.value| +
        (pairs.map fun pair => allowance pair.2).sum := by
  induction pairs generalizing total with
  | nil => exact ⟨total, rfl, by simp⟩
  | cons pair rest ih =>
      obtain ⟨value, weight⟩ := pair
      obtain ⟨hvalue, hweight⟩ := hpairs _ List.mem_cons_self
      have hothers : ∀ pair ∈ rest, |pair.1.value| ≤ mantissaLimit - 2 ^ 43 ∧
          0 ≤ pair.2.value :=
        fun pair hpair => hpairs pair (List.mem_cons_of_mem _ hpair)
      have hrest : 0 ≤ (rest.map fun pair => allowance pair.2).sum := by
        apply List.sum_nonneg
        intro x hx
        obtain ⟨pair, hpair, rfl⟩ := List.mem_map.1 hx
        exact allowance_nonneg (hothers pair hpair).2
      rw [List.map_cons, List.sum_cons] at h ⊢
      have hone : |total.value| + allowance weight ≤ mantissaLimit - 1 := by
        linarith
      obtain ⟨share, next, hmul, hadd, hnext⟩ :=
        exists_addShare hvalue hweight hone
      obtain ⟨sum, hrun, hbound⟩ := ih next hothers (by linarith)
      refine ⟨sum, ?_, by linarith⟩
      show (do
        let share ← value.mul weight
        accumulate (← total.add share) rest) = _
      rw [hmul]
      show (do accumulate (← total.add share) rest) = _
      rw [hadd]
      exact hrun

/-- A weight is a share of one. -/
theorem weight_bounds {weight : Decimal} (h : weight ∈ weights) :
    0 ≤ weight.value ∧ weight.value ≤ 1 := by
  have hcents : ∃ n ≤ 100, weight = Decimal.cents n := by
    simp only [weights, List.mem_cons, List.not_mem_nil, or_false] at h
    rcases h with h | h | h | h | h | h <;> exact ⟨_, by decide, h⟩
  obtain ⟨n, hn, rfl⟩ := hcents
  have hsmall : n < mantissaLimit := by
    unfold mantissaLimit
    omega
  rw [Decimal.cents, value_ofUnits _ hsmall]
  constructor
  · positivity
  · rw [div_le_one (by norm_num)]
    exact_mod_cast hn

/-- Any factors have a weighted sum, in whole cents. -/
theorem exists_weighted (f : SurgeFactors) :
    ∃ d, f.weighted = .ok d ∧ d.scale ≤ 2 ∧ |d.value| ≤ mantissaLimit - 10 := by
  let pairs := (f.toList.map Decimal.ofDouble).zip weights
  have hweight (n : Nat) (hn : n < mantissaLimit) :
      (Decimal.cents n).value = n / 100 := by
    rw [Decimal.cents, value_ofUnits _ hn]
    norm_num
  have hsum : (pairs.map fun pair => allowance pair.2).sum =
      mantissaLimit - 2 ^ 43 + 6 := by
    simp only [pairs, toList, weights, List.map_cons, List.map_nil,
      List.zip_cons_cons, List.zip_nil_right, List.sum_cons, List.sum_nil,
      allowance]
    rw [hweight 40 (by decide), hweight 25 (by decide), hweight 15 (by decide),
      hweight 10 (by decide), hweight 5 (by decide)]
    push_cast
    ring
  have hpairs : ∀ pair ∈ pairs, |pair.1.value| ≤ mantissaLimit - 2 ^ 43 ∧
      0 ≤ pair.2.value := by
    intro pair hpair
    obtain ⟨hleft, hright⟩ := List.of_mem_zip hpair
    obtain ⟨x, -, hx⟩ := List.mem_map.1 hleft
    exact ⟨hx ▸ abs_value_ofDouble_le x, (weight_bounds hright).1⟩
  obtain ⟨sum, hrun, hbound⟩ := exists_accumulate Decimal.zero hpairs (by
    rw [hsum, value_zero, abs_zero]
    linarith)
  have hcents := abs_value_roundCents_sub_le sum
  have htriangle := abs_add_le (sum.roundCents.value - sum.value) sum.value
  rw [sub_add_cancel] at htriangle
  rw [hsum, value_zero, abs_zero] at hbound
  refine ⟨sum.roundCents, ?_, scale_roundCents_le sum, by linarith⟩
  show (do
    let sum ← accumulate Decimal.zero pairs
    return sum.roundCents) = _
  rw [hrun]
  rfl

end SurgeFactors

/-! ## Steps -/

namespace Surge

theorem value_tenths {n : Nat} (hn : n < mantissaLimit) :
    (tenths n).value = n / 10 := by
  rw [tenths, value_ofUnits _ hn, pow_one]

theorem value_lowest : lowest.value = 1 := by
  rw [lowest, value_tenths (by decide)]
  norm_num

theorem value_highest : highest.value = 5 := by
  rw [highest, value_tenths (by decide)]
  norm_num

theorem value_step : step.value = 1 / 2 := by
  rw [step, value_tenths (by decide)]
  norm_num

theorem isMultiplier_lowest : IsMultiplier lowest :=
  ⟨value_lowest.ge, by rw [value_lowest]; norm_num, by decide⟩

/-- Whatever is in whole cents is clamped to a multiplier. -/
theorem isMultiplier_clamp {d : Decimal} (h : d.scale ≤ 2) :
    IsMultiplier (d.clamp lowest highest) := by
  have hvalue := value_clamp d lowest highest
  rw [value_lowest, value_highest] at hvalue
  refine ⟨?_, ?_, ?_⟩
  · rw [hvalue]
    exact le_min (le_max_right _ _) (by norm_num)
  · rw [hvalue]
    exact min_le_right _ _
  · rcases clamp_eq_or d lowest highest with heq | heq | heq
    · rwa [heq]
    · rw [heq]
      decide
    · rw [heq]
      decide

variable {computed previous : Decimal}

/-- A number of few digits, for numbers as small as multipliers and their
steps. -/
theorem small_mul_pow_lt {x : ℚ} {places : Nat} (hx : |x| ≤ 10)
    (hplaces : places ≤ 3) :
    |x| * 10 ^ places < mantissaLimit := by
  have hpow : (10 : ℚ) ^ places ≤ 10 ^ 3 :=
    pow_le_pow_right₀ (by norm_num) hplaces
  have hprod : |x| * 10 ^ places ≤ 10 * 10 ^ 3 :=
    mul_le_mul hx hpow (by positivity) (by norm_num)
  rw [mantissaLimit_eq]
  linarith [show (10 : ℚ) * 10 ^ 3 < 2 ^ 96 by norm_num]

/-- A difference of numbers in whole cents that comes out as a step at most is a
step at most. -/
theorem abs_sub_le_of_change {change : Decimal} (hcomputed : computed.scale ≤ 2)
    (hprevious : previous.scale ≤ 2) (hsub : computed.sub previous = .ok change)
    (hnear : |change.value - (computed.value - previous.value)| ≤ 1 / 2)
    (hchange : |change.value| ≤ 1 / 2) :
    |computed.value - previous.value| ≤ 1 / 2 := by
  by_cases hfew : |computed.value - previous.value| *
      10 ^ max computed.scale previous.scale < mantissaLimit
  · obtain ⟨d, hd, -, hvalue⟩ := sub_exact hfew
    cases hsub.symm.trans hd
    rwa [hvalue] at hchange
  · -- What needs more digits than there are is far more than a step, rounded or
    -- not.
    exfalso
    have hpow : (10 : ℚ) ^ max computed.scale previous.scale ≤ 10 ^ 2 :=
      pow_le_pow_right₀ (by norm_num) (max_le hcomputed hprevious)
    have hmany := not_lt.1 hfew
    rw [mantissaLimit_eq] at hmany
    have hlarge : (2 : ℚ) ^ 96 ≤ |computed.value - previous.value| * 10 ^ 2 :=
      hmany.trans (mul_le_mul_of_nonneg_left hpow (abs_nonneg _))
    have htriangle :=
      abs_sub_le (computed.value - previous.value) change.value 0
    rw [sub_zero, sub_zero, abs_sub_comm _ change.value] at htriangle
    linarith [show (100 : ℚ) < 2 ^ 96 by norm_num]

/-- A multiplier moves by a step at most, in whole cents. -/
theorem exists_limitStep (hscale : computed.scale ≤ 2)
    (hsize : |computed.value| ≤ mantissaLimit - 10)
    (hprevious : IsMultiplier previous) :
    ∃ next, limitStep computed previous = .ok next ∧ next.scale ≤ 2 ∧
      |next.value - previous.value| ≤ 1 / 2 := by
  obtain ⟨hone, hfive, hcents⟩ := hprevious
  have habs : |previous.value| ≤ 5 := abs_le.2 ⟨by linarith, hfive⟩
  have hdiff : |computed.value - previous.value| ≤ mantissaLimit - 1 := by
    have htriangle := abs_sub computed.value previous.value
    linarith
  obtain ⟨change, hsub, hnear⟩ := sub_near hdiff
  have hplaces : max previous.scale step.scale ≤ 2 := max_le hcents (by decide)
  have hdown : |previous.value - step.value| ≤ 10 := by
    rw [value_step, abs_le]
    constructor <;> linarith
  have hup : |previous.value + step.value| ≤ 10 := by
    rw [value_step, abs_le]
    constructor <;> linarith
  unfold limitStep
  rw [hsub]
  show ∃ next, (if step.lt change.abs then
    if change.isNegative then previous.sub step else previous.add step
    else .ok computed) = .ok next ∧ _
  split
  · split
    · obtain ⟨next, hnext, hnextScale, hvalue⟩ :=
        sub_exact (small_mul_pow_lt hdown (hplaces.trans (by decide)))
      refine ⟨next, hnext, hnextScale.trans hplaces, ?_⟩
      rw [hvalue, value_step, sub_sub_cancel_left]
      norm_num
    · obtain ⟨next, hnext, hnextScale, hvalue⟩ :=
        add_exact (small_mul_pow_lt hup (hplaces.trans (by decide)))
      refine ⟨next, hnext, hnextScale.trans hplaces, ?_⟩
      rw [hvalue, value_step, add_sub_cancel_left]
      norm_num
  · rename_i hlittle
    refine ⟨computed, rfl, hscale, ?_⟩
    rw [lt_iff_value, value_step, value_abs, not_lt] at hlittle
    exact abs_sub_le_of_change hscale hcents hsub hnear hlittle

/-- The next multiplier is one, and no further than a step from the previous. -/
theorem exists_smooth (hscale : computed.scale ≤ 2)
    (hsize : |computed.value| ≤ mantissaLimit - 10) (previous : Option Decimal)
    (hprevious : ∀ p ∈ previous, IsMultiplier p) :
    ∃ m, smooth computed previous = .ok m ∧ IsMultiplier m ∧
      ∀ p ∈ previous, |m.value - p.value| ≤ 1 / 2 := by
  cases previous with
  | none =>
      refine ⟨computed.clamp lowest highest, rfl, isMultiplier_clamp hscale, ?_⟩
      intro p hp
      cases hp
  | some p =>
      have hp := hprevious p rfl
      obtain ⟨next, hnext, hnextScale, hstep⟩ :=
        exists_limitStep hscale hsize hp
      refine ⟨next.clamp lowest highest, ?_, isMultiplier_clamp hnextScale, ?_⟩
      · show (do
          let next ← limitStep computed p
          return next.clamp lowest highest) = _
        rw [hnext]
        rfl
      · intro q hq
        cases hq
        -- Clamping to bounds between which the previous one lies brings the two
        -- no further apart.
        rw [value_clamp, value_lowest, value_highest]
        have hbounds := abs_le.1 hstep
        rw [abs_le]
        rcases le_total next.value 1 with hlow | hlow
        · rw [max_eq_right hlow, min_eq_left (by norm_num)]
          constructor <;> linarith [hp.one_le, hp.le_five]
        · rw [max_eq_left hlow]
          rcases le_total next.value 5 with hhigh | hhigh
          · rw [min_eq_left hhigh]
            exact hbounds
          · rw [min_eq_right hhigh]
            constructor <;> linarith [hp.one_le, hp.le_five]

/-! ## Predictions -/

theorem nextHourFactor_bounds (hour : Nat) :
    1 ≤ (nextHourFactor hour).value ∧ (nextHourFactor hour).value ≤ 2 ∧
      (nextHourFactor hour).scale ≤ 1 := by
  unfold nextHourFactor
  split
  · rw [value_tenths (by decide)]
    norm_num
    decide
  · split
    · rw [value_tenths (by decide)]
      norm_num
      decide
    · have hone : Decimal.one.value = 1 := by
        rw [value_eq_withSign]
        norm_num [Decimal.one, withSign]
      rw [hone]
      norm_num
      decide

/-- The prediction from a multiplier is a multiplier, and no less. -/
theorem exists_predictNextHour {current : Decimal} (h : IsMultiplier current)
    (local_ : LocalTime) :
    ∃ next, predictNextHour current local_ = .ok next ∧ IsMultiplier next ∧
      current.value ≤ next.value := by
  obtain ⟨hone, htwo, hplaces⟩ :=
    nextHourFactor_bounds ((local_.time.hour + 1) % 24)
  generalize hfactor : nextHourFactor ((local_.time.hour + 1) % 24) =
    factor at hone htwo hplaces
  have hgrow : current.value ≤ current.value * factor.value :=
    le_mul_of_one_le_right (by linarith [h.one_le]) hone
  have hsize : |current.value * factor.value| ≤ 10 := by
    rw [abs_of_nonneg (by linarith [h.one_le])]
    nlinarith [h.one_le, h.le_five]
  have hscale : current.scale + factor.scale ≤ 3 :=
    Nat.add_le_add h.scale_le hplaces
  obtain ⟨product, hmul, -, hvalue⟩ :=
    mul_exact (small_mul_pow_lt hsize hscale) (hscale.trans (by decide))
  refine ⟨product.roundCents.clamp lowest highest, ?_,
    isMultiplier_clamp (scale_roundCents_le product), ?_⟩
  · unfold predictNextHour
    rw [hfactor, hmul]
    rfl
  · have hrounded : current.value ≤ product.roundCents.value :=
      le_value_roundCents h.scale_le (hvalue ▸ hgrow)
    rw [value_clamp, value_highest]
    exact le_min (hrounded.trans (le_max_left _ _)) h.le_five

end Surge

end Ridehail
