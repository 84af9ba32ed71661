import Ridehail.Proofs.Pricing.Monotone

/-!
# The multiplier settles

The step limit comes before the bounds, so a bound may cut off a step that was
limited already.  As the previous multiplier lies within the bounds, this is the
same as a limited step towards the computed multiplier within bounds, the
target.  A step therefore ends between where it began and the target, and comes
nearer to it by one half, or reaches it.

No multiplier is more than four away from a target.  While the computed
multiplier stays as it is, eight steps reach the target, and all later ones stay
there.  Nothing of this depends on how many places the multipliers have.

## Main results

* `Surge.bounded_limited` — a step is a limited step towards the target.
* `Surge.exists_settle` — how far from the target any number of steps end.
* `Surge.smooth_settles` — no step passes the target, and eight steps reach it.
-/

namespace Ridehail.Surge

open Decimal

/-! ## One step -/

section Step

variable {computed previous target : ℚ}

theorem one_le_bounded (x : ℚ) : 1 ≤ bounded x :=
  le_min (le_max_right _ _) (by norm_num)

theorem bounded_le_five (x : ℚ) : bounded x ≤ 5 := min_le_right _ _

/-- From a number within the bounds it makes no difference whether a step is
limited first or kept within the bounds first. -/
theorem bounded_limited (hone : 1 ≤ previous) (hfive : previous ≤ 5) :
    bounded (limited computed previous) =
      limited (bounded computed) previous := by
  unfold bounded limited
  grind

/-- A limited step ends between where it began and the target. -/
theorem limited_mem_uIcc :
    limited target previous ∈ Set.uIcc previous target := by
  rw [Set.mem_uIcc, limited]
  grind

/-- A limited step comes nearer to the target by one half, or reaches it. -/
theorem abs_limited_sub :
    |limited target previous - target| =
      max (|previous - target| - 1 / 2) 0 := by
  unfold limited
  grind

/-- No two numbers within the bounds are more than four apart. -/
theorem abs_sub_le_four (hone : 1 ≤ previous) (hfive : previous ≤ 5) (x : ℚ) :
    |previous - bounded x| ≤ 4 := by
  rw [abs_le]
  constructor <;> linarith [one_le_bounded x, bounded_le_five x]

end Step

/-! ## Steps one after the other -/

variable {computed start : Decimal}

/-- The multiplier after some steps from a first one, all with one computed
multiplier. -/
def settle (computed start : Decimal) : Nat → Except Overflow Decimal
  | 0 => .ok start
  | n + 1 => do smooth computed (some (← settle computed start n))

/-- One more step takes the multiplier towards the target. -/
theorem settle_succ {m : Decimal} {n : Nat}
    (hsize : |computed.value| ≤ mantissaLimit - 10)
    (hm : settle computed start n = .ok m) (hone : 1 ≤ m.value)
    (hfive : m.value ≤ 5) :
    ∃ next, settle computed start (n + 1) = .ok next ∧
      next.value = limited (bounded computed.value) m.value := by
  obtain ⟨next, hnext, hvalue⟩ :=
    smooth_value hsize (some m) (by simp [hone, hfive])
  refine ⟨next, ?_, hvalue.trans (bounded_limited hone hfive)⟩
  rw [settle, hm]
  exact hnext

/-- Any number of steps ends within the bounds, and half as many units nearer to
the target as there were steps, or at the target. -/
theorem exists_settle (hsize : |computed.value| ≤ mantissaLimit - 10)
    (hone : 1 ≤ start.value) (hfive : start.value ≤ 5) (n : Nat) :
    ∃ m, settle computed start n = .ok m ∧ 1 ≤ m.value ∧ m.value ≤ 5 ∧
      |m.value - bounded computed.value| =
        max (|start.value - bounded computed.value| - n / 2) 0 := by
  induction n with
  | zero => exact ⟨start, rfl, hone, hfive, by simp⟩
  | succ n ih =>
      obtain ⟨m, hm, hlow, hhigh, hdistance⟩ := ih
      obtain ⟨next, hnext, hvalue⟩ := settle_succ hsize hm hlow hhigh
      have hbetween : next.value ∈ Set.uIcc m.value (bounded computed.value) :=
        hvalue ▸ limited_mem_uIcc
      have hbounds : Set.uIcc m.value (bounded computed.value) ⊆ Set.Icc 1 5 :=
        Set.uIcc_subset_Icc ⟨hlow, hhigh⟩ ⟨one_le_bounded _, bounded_le_five _⟩
      refine ⟨next, hnext, (hbounds hbetween).1, (hbounds hbetween).2, ?_⟩
      rw [hvalue, abs_limited_sub, hdistance]
      push_cast
      grind

/-- The next multiplier is the computed one, clamped first to within one half of
the previous one and then to the bounds, and it lies between the previous one
and the target.  While the computed one stays the same, every step goes towards
the target and does not pass it, the distance shrinks by one half with each step
until it is gone, and after eight steps it is. -/
theorem smooth_settles (hsize : |computed.value| ≤ 10 ^ 28)
    (hone : 1 ≤ start.value) (hfive : start.value ≤ 5) :
    (∃ m, smooth computed (some start) = .ok m ∧
      m.value = bounded (limited computed.value start.value) ∧
      m.value ∈ Set.uIcc start.value (bounded computed.value)) ∧
    ∀ n : Nat, ∃ m next, settle computed start n = .ok m ∧
      settle computed start (n + 1) = .ok next ∧
      next.value ∈ Set.uIcc m.value (bounded computed.value) ∧
      |m.value - bounded computed.value| =
        max (|start.value - bounded computed.value| - n / 2) 0 ∧
      (8 ≤ n → m.value = bounded computed.value) := by
  have hroom : |computed.value| ≤ mantissaLimit - 10 := by
    rw [mantissaLimit_eq]
    linarith [show (10 : ℚ) ^ 28 ≤ 2 ^ 96 - 10 by norm_num]
  constructor
  · obtain ⟨m, hm, hvalue⟩ :=
      smooth_value hroom (some start) (by simp [hone, hfive])
    refine ⟨m, hm, hvalue, ?_⟩
    have htarget : m.value = limited (bounded computed.value) start.value :=
      hvalue.trans (bounded_limited hone hfive)
    exact htarget ▸ limited_mem_uIcc
  · intro n
    obtain ⟨m, hm, hlow, hhigh, hdistance⟩ := exists_settle hroom hone hfive n
    obtain ⟨next, hnext, hvalue⟩ := settle_succ hroom hm hlow hhigh
    refine ⟨m, next, hm, hnext, hvalue ▸ limited_mem_uIcc, hdistance,
      fun hlate => ?_⟩
    have hfar := abs_sub_le_four hone hfive computed.value
    have hsteps : (8 : ℚ) ≤ n := by exact_mod_cast hlate
    rw [max_eq_right (by linarith), abs_eq_zero] at hdistance
    exact sub_eq_zero.1 hdistance

/-- From the lowest multiplier, eight steps reach the highest one. -/
theorem smooth_settles_storm :
    |(tenths 72).value| ≤ 10 ^ 28 ∧ 1 ≤ lowest.value ∧ lowest.value ≤ 5 ∧
      (∃ m, smooth (tenths 72) (some lowest) = .ok m ∧ m.value = 3 / 2) ∧
      ∃ m, settle (tenths 72) lowest 8 = .ok m ∧ m.value = 5 := by
  have hcomputed : (tenths 72).value = 36 / 5 := by
    rw [value_tenths (by decide)]
    norm_num
  have hsize : |(tenths 72).value| ≤ 10 ^ 28 := by
    rw [hcomputed]
    norm_num
  have hone : 1 ≤ lowest.value := value_lowest.ge
  have hfive : lowest.value ≤ 5 := by
    rw [value_lowest]
    norm_num
  obtain ⟨⟨m, hm, hvalue, -⟩, hsteps⟩ := smooth_settles hsize hone hfive
  obtain ⟨last, -, hlast, -, -, -, hsettled⟩ := hsteps 8
  refine ⟨hsize, hone, hfive, ⟨m, hm, ?_⟩, last, hlast, ?_⟩
  · rw [hvalue, hcomputed, value_lowest]
    norm_num [bounded, limited]
  · rw [hsettled le_rfl, hcomputed]
    norm_num [bounded]

end Ridehail.Surge
