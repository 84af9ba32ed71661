import Mathlib.Data.List.Forall2
import Ridehail.Proofs.Decimal.Fitting
import Ridehail.Proofs.Double.Magnitude
import Ridehail.Proofs.Pricing.Multiplier

/-!
# The multiplier grows with every factor

Six products and as many sums lead to a computed multiplier, and any of them may
be rounded.  Each keeps the order, so the sum does, whatever number of places
the operations come down to.

The step from the previous multiplier is another matter, as it compares what a
difference is rounded to.  A difference that is not exact is that of a number
far from the previous multiplier, so the step is what it would be with exact
arithmetic: the computed multiplier, brought within a step of the previous one
and then within bounds.

## Main results

* `SurgeFactors.accumulate_mono`, `SurgeFactors.weighted_mono` — sums keep the
  order.
* `SurgeFactors.weighted_near` — and are near the exact ones if the factors are
  not huge.
* `Surge.smooth_value` — the next multiplier as a number.
* `Surge.smooth_weighted_mono` — it grows with every factor and with the
  previous one.
-/

namespace Ridehail

open Decimal

/-! ## The decimal of a double -/

/-- The decimal of a double of some magnitude has no larger one, but for its
rounding. -/
theorem Decimal.abs_value_ofDouble_le_of_atMost {x : Float} {bound : ℚ}
    (h : Double.AtMost bound x) : |(ofDouble x).value| ≤ bound + 2 := by
  obtain ⟨e, hx, -, hbound⟩ := Double.atMost_iff.1 h
  rcases ofDouble_cases hx with hzero | ⟨hexact, hexponent | ⟨hwhole, hroom⟩⟩
  · have hnonneg : 0 ≤ bound :=
      le_trans (mul_nonneg (Nat.cast_nonneg _) (Double.two_zpow_pos _).le)
        hbound
    rw [hzero, value_zero, abs_zero]
    linarith
  · have hquot : (e.mantissa : ℚ) / 2 ^ (-e.exponent).toNat =
        e.mantissa * 2 ^ e.exponent := by
      have hneg : e.exponent = -((-e.exponent).toNat : Int) := by omega
      rw [hneg, zpow_neg, zpow_natCast, ← hneg, div_eq_mul_inv]
    have hle := abs_value_ofExact_le_of_exponent hexponent
    rw [hexact]
    linarith
  · have hprod : ((e.mantissa * twoPow e.exponent.toNat : Nat) : ℚ) =
        e.mantissa * 2 ^ e.exponent := by
      have hcast : (2 : ℚ) ^ e.exponent = 2 ^ e.exponent.toNat := by
        rw [← zpow_natCast, Int.toNat_of_nonneg hwhole]
      rw [Nat.cast_mul, cast_twoPow, hcast]
    rw [hexact, abs_value_ofExact_of_whole hwhole hroom, hprod]
    linarith

/-! ## Sums -/

namespace SurgeFactors

/-- Each converted factor is at most the other one. -/
def AtMost (f g : SurgeFactors) : Prop :=
  List.Forall₂ (fun x y => (ofDouble x).value ≤ (ofDouble y).value)
    f.toList g.toList

/-- The weighted sum of the converted factors if nothing were rounded. -/
def exactWeighted (f : SurgeFactors) : ℚ :=
  (((f.toList.map ofDouble).zip weights).map fun pair =>
    pair.1.value * pair.2.value).sum

variable {total total' sum sum' value weight : Decimal}
  {values values' ws : List Decimal} {pairs rest : List (Decimal × Decimal)}

/-- A share is a product, and is added to the sum of the ones before. -/
theorem accumulate_cases
    (h : accumulate total ((value, weight) :: rest) = .ok sum) :
    ∃ share next : Decimal, Fits (value.value * weight.value) share ∧
      Fits (total.value + share.value) next ∧
      accumulate next rest = .ok sum := by
  obtain ⟨share, hmul, h⟩ := exists_of_bind h
  obtain ⟨next, hadd, h⟩ := exists_of_bind h
  exact ⟨share, next, mul_fits hmul, add_fits hadd, h⟩

/-- Smaller values have no larger sum. -/
theorem accumulate_mono
    (hvalues : List.Forall₂ (fun v v' => v.value ≤ v'.value) values values')
    (hws : ∀ weight ∈ ws, 0 ≤ weight.value)
    (htotal : total.value ≤ total'.value)
    (h : accumulate total (values.zip ws) = .ok sum)
    (h' : accumulate total' (values'.zip ws) = .ok sum') :
    sum.value ≤ sum'.value := by
  induction hvalues generalizing ws total total' with
  | nil =>
      cases h
      cases h'
      exact htotal
  | cons hle _ ih =>
      cases ws with
      | nil =>
          cases h
          cases h'
          exact htotal
      | cons weight ws =>
          obtain ⟨hweight, hothers⟩ := List.forall_mem_cons.1 hws
          obtain ⟨share, next, hshare, hnext, hrest⟩ := accumulate_cases h
          obtain ⟨share', next', hshare', hnext', hrest'⟩ := accumulate_cases h'
          have hshares :=
            hshare.mono hshare' (mul_le_mul_of_nonneg_right hle hweight)
          exact ih hothers (hnext.mono hnext' (add_le_add htotal hshares))
            hrest hrest'

theorem weighted_cases {f : SurgeFactors} {d : Decimal}
    (h : f.weighted = .ok d) :
    ∃ sum, accumulate zero ((f.toList.map ofDouble).zip weights) = .ok sum ∧
      d = sum.roundCents := by
  obtain ⟨sum, hsum, h⟩ := exists_of_bind h
  cases h
  exact ⟨sum, hsum, rfl⟩

/-- Smaller factors have no larger weighted sum. -/
theorem weighted_mono {f g : SurgeFactors} {c d : Decimal} (hle : f.AtMost g)
    (hc : f.weighted = .ok c) (hd : g.weighted = .ok d) :
    c.value ≤ d.value := by
  obtain ⟨sum, hsum, rfl⟩ := weighted_cases hc
  obtain ⟨sum', hsum', rfl⟩ := weighted_cases hd
  have hvalues : List.Forall₂ (fun v v' : Decimal => v.value ≤ v'.value)
      (f.toList.map ofDouble) (g.toList.map ofDouble) :=
    List.forall₂_map_left_iff.2 (List.forall₂_map_right_iff.2 hle)
  exact value_roundCents_mono
    (accumulate_mono hvalues (fun weight hw => (weight_bounds hw).1)
      le_rfl hsum hsum')

/-- What is rounded on the way to a sum of values that are not huge. -/
theorem accumulate_near
    (hpairs : ∀ pair ∈ pairs, |pair.1.value| ≤ 10 ^ 7 ∧ 0 ≤ pair.2.value ∧
      pair.2.value ≤ 1)
    (hroom : |total.value| + pairs.length * (2 * 10 ^ 7) ≤ 10 ^ 9)
    (h : accumulate total pairs = .ok sum) :
    |sum.value - (total.value +
      (pairs.map fun pair => pair.1.value * pair.2.value).sum)| ≤
      pairs.length / 10 ^ 9 := by
  have hlimit := mantissaLimit_eq
  induction pairs generalizing total with
  | nil =>
      cases h
      simp
  | cons pair rest ih =>
      obtain ⟨value, weight⟩ := pair
      obtain ⟨⟨hvalue, hweight, hone⟩, hothers⟩ := List.forall_mem_cons.1 hpairs
      obtain ⟨share, next, hshare, hnext, hrest⟩ := accumulate_cases h
      have hproduct : |value.value * weight.value| ≤ 10 ^ 7 := by
        rw [abs_mul, abs_of_nonneg hweight]
        exact (mul_le_of_le_one_right (abs_nonneg _) hone).trans hvalue
      have hlength : (0 : ℚ) ≤ rest.length := Nat.cast_nonneg _
      rw [List.length_cons] at hroom ⊢
      push_cast at hroom ⊢
      have hshareNear := hshare.near 9 (by decide) (by rw [hlimit]; linarith)
      have hshareLe : |share.value| ≤ 10 ^ 7 + 1 := by
        have := abs_sub_abs_le_abs_sub share.value (value.value * weight.value)
        linarith
      have hsumLe := abs_add_le total.value share.value
      have hnextNear := hnext.near 9 (by decide) (by rw [hlimit]; linarith)
      have hnextLe : |next.value| ≤ |total.value| + 2 * 10 ^ 7 := by
        have := abs_sub_abs_le_abs_sub next.value (total.value + share.value)
        linarith
      have hfinal := ih hothers (by linarith) hrest
      rw [List.map_cons, List.sum_cons]
      dsimp only
      rw [abs_le] at hshareNear hnextNear hfinal ⊢
      constructor <;> linarith

/-- The weighted sum of factors up to a million is the exact one, but for half a
cent and what is rounded before that. -/
theorem weighted_near {f : SurgeFactors} {d : Decimal}
    (hf : ∀ x ∈ f.toList, Double.AtMost (10 ^ 6) x) (hd : f.weighted = .ok d) :
    |d.value - f.exactWeighted| ≤ 501 / 100000 := by
  obtain ⟨sum, hsum, rfl⟩ := weighted_cases hd
  have hpairs : ∀ pair ∈ (f.toList.map ofDouble).zip weights,
      |pair.1.value| ≤ 10 ^ 7 ∧ 0 ≤ pair.2.value ∧ pair.2.value ≤ 1 := by
    intro pair hpair
    obtain ⟨hleft, hright⟩ := List.of_mem_zip hpair
    obtain ⟨x, hx, hvalue⟩ := List.mem_map.1 hleft
    have hle := abs_value_ofDouble_le_of_atMost (hf x hx)
    rw [hvalue] at hle
    exact ⟨by linarith, weight_bounds hright⟩
  have hnear := accumulate_near hpairs (by
    rw [value_zero, abs_zero]
    norm_num [toList, weights]) hsum
  have hcents := abs_value_roundCents_sub_le sum
  have hlength : ((f.toList.map ofDouble).zip weights).length = 6 := rfl
  rw [value_zero, zero_add, ← exactWeighted, hlength] at hnear
  rw [abs_le] at hnear hcents ⊢
  push_cast at hnear
  constructor <;> linarith

end SurgeFactors

/-! ## Steps -/

namespace Surge

/-- A number brought within half a unit of another one. -/
def limited (computed previous : ℚ) : ℚ :=
  min (max computed (previous - 1 / 2)) (previous + 1 / 2)

/-- A number brought within the bounds of multipliers. -/
def bounded (x : ℚ) : ℚ := min (max x 1) 5

/-- The number of the next multiplier. -/
def following (computed : ℚ) : Option ℚ → ℚ
  | none => bounded computed
  | some previous => bounded (limited computed previous)

theorem bounded_mono {x y : ℚ} (h : x ≤ y) : bounded x ≤ bounded y :=
  min_le_min_right 5 (max_le_max_right 1 h)

theorem limited_mono {c d p q : ℚ} (hcd : c ≤ d) (hpq : p ≤ q) :
    limited c p ≤ limited d q := by
  unfold limited
  gcongr

variable {computed previous change : Decimal}

theorem isNegative_iff_value {d : Decimal} :
    d.isNegative = true ↔ d.value < 0 := by
  have hpow : (0 : ℚ) < 10 ^ d.scale := by positivity
  rw [Decimal.isNegative, value_eq_withSign]
  cases d.negative with
  | false =>
    simp [withSign, not_lt.2 (div_nonneg (Nat.cast_nonneg d.mantissa) hpow.le)]
  | true => simp [withSign, div_pos_iff_of_pos_right hpow, Nat.pos_iff_ne_zero]

/-- What has few whole digits has room for all places. -/
theorem mul_pow_lt_of_small {x : ℚ} {places : Nat} (hx : |x| ≤ 7)
    (hplaces : places ≤ 28) :
    |x| * 10 ^ places < mantissaLimit := by
  have hpow : (10 : ℚ) ^ places ≤ 10 ^ 28 :=
    pow_le_pow_right₀ (by norm_num) hplaces
  have hprod : |x| * 10 ^ places ≤ 7 * 10 ^ 28 :=
    mul_le_mul hx hpow (by positivity) (by norm_num)
  rw [mantissaLimit_eq]
  linarith

/-- A difference is exact, or it is large, and large on the same side. -/
theorem exists_change
    (h : |computed.value - previous.value| ≤ mantissaLimit - 1) :
    ∃ change, computed.sub previous = .ok change ∧
      (change.value = computed.value - previous.value ∨
        1 < change.value ∧ 1 < computed.value - previous.value ∨
        change.value < -1 ∧ computed.value - previous.value < -1) := by
  by_cases hsmall : |computed.value - previous.value| ≤ 7
  · have hroom :=
      mul_pow_lt_of_small hsmall (max_le computed.scale_le previous.scale_le)
    obtain ⟨change, hsub, -, hvalue⟩ := sub_exact hroom
    exact ⟨change, hsub, .inl hvalue⟩
  · obtain ⟨change, hsub, hnear⟩ := sub_near h
    refine ⟨change, hsub, .inr ?_⟩
    rw [abs_le] at hnear
    rcases lt_abs.1 (not_le.1 hsmall) with hmore | hless
    · exact .inl ⟨by linarith, by linarith⟩
    · exact .inr ⟨by linarith, by linarith⟩

/-- The step from the previous multiplier is what it would be if nothing were
rounded. -/
theorem limitStep_value (hsize : |computed.value| ≤ mantissaLimit - 10)
    (hone : 1 ≤ previous.value) (hfive : previous.value ≤ 5) :
    ∃ next, limitStep computed previous = .ok next ∧
      next.value = limited computed.value previous.value := by
  have hdiff : |computed.value - previous.value| ≤ mantissaLimit - 1 := by
    have htriangle := abs_sub computed.value previous.value
    have hprevious : |previous.value| ≤ 5 := abs_le.2 ⟨by linarith, hfive⟩
    linarith
  obtain ⟨change, hsub, hchange⟩ := exists_change hdiff
  have hplaces : max previous.scale step.scale ≤ 28 :=
    max_le previous.scale_le step.scale_le
  have hmore : 1 / 2 < change.value ↔
      1 / 2 < computed.value - previous.value := by
    rcases hchange with h | ⟨h, h'⟩ | ⟨h, h'⟩
    · rw [h]
    · exact iff_of_true (by linarith) (by linarith)
    · exact iff_of_false (by linarith) (by linarith)
  have hless : change.value < -(1 / 2) ↔
      computed.value - previous.value < -(1 / 2) := by
    rcases hchange with h | ⟨h, h'⟩ | ⟨h, h'⟩
    · rw [h]
    · exact iff_of_false (by linarith) (by linarith)
    · exact iff_of_true (by linarith) (by linarith)
  unfold limitStep
  rw [hsub]
  show ∃ next, (if step.lt change.abs then
    if change.isNegative then previous.sub step else previous.add step
    else .ok computed) = .ok next ∧ _
  split
  · rename_i hfar
    rw [lt_iff_value, value_step, value_abs, lt_abs] at hfar
    split
    · rename_i hneg
      rw [isNegative_iff_value] at hneg
      have hbelow := hless.1 (by rcases hfar with h | h <;> linarith)
      obtain ⟨next, hnext, -, hvalue⟩ := sub_exact (a := previous) (b := step)
        (mul_pow_lt_of_small (by
          rw [value_step, abs_le]; constructor <;> linarith) hplaces)
      refine ⟨next, hnext, ?_⟩
      rw [hvalue, value_step, limited, max_eq_right (by linarith),
        min_eq_left (by linarith)]
    · rename_i hpos
      rw [isNegative_iff_value, not_lt] at hpos
      have habove := hmore.1 (by rcases hfar with h | h <;> linarith)
      obtain ⟨next, hnext, -, hvalue⟩ := add_exact (a := previous) (b := step)
        (mul_pow_lt_of_small (by
          rw [value_step, abs_le]; constructor <;> linarith) hplaces)
      refine ⟨next, hnext, ?_⟩
      rw [hvalue, value_step, limited, max_eq_left (by linarith),
        min_eq_right (by linarith)]
  · rename_i hnear
    rw [lt_iff_value, value_step, value_abs, lt_abs, not_or] at hnear
    have hupper := not_lt.1 fun h => hnear.1 (hmore.2 h)
    have hlower := not_lt.1 fun h => hnear.2 (by linarith [hless.2 h])
    refine ⟨computed, rfl, ?_⟩
    rw [limited, max_eq_left (by linarith), min_eq_left (by linarith)]

/-- The next multiplier is what it would be if nothing were rounded. -/
theorem smooth_value (hsize : |computed.value| ≤ mantissaLimit - 10)
    (previous : Option Decimal)
    (hprevious : ∀ p ∈ previous, 1 ≤ p.value ∧ p.value ≤ 5) :
    ∃ next, smooth computed previous = .ok next ∧
      next.value = following computed.value (previous.map value) := by
  have hclamp (d : Decimal) : (d.clamp lowest highest).value =
      bounded d.value := by
    rw [value_clamp, value_lowest, value_highest, bounded]
  cases previous with
  | none => exact ⟨computed.clamp lowest highest, rfl, hclamp computed⟩
  | some p =>
      obtain ⟨hone, hfive⟩ := hprevious p rfl
      obtain ⟨next, hnext, hvalue⟩ := limitStep_value hsize hone hfive
      refine ⟨next.clamp lowest highest, ?_, ?_⟩
      · unfold smooth
        dsimp only
        rw [hnext]
        rfl
      · rw [hclamp, hvalue]
        rfl

/-- Two previous multipliers in bounds, the first of which is at most the
second. -/
def Preceding (p q : Decimal) : Prop :=
  1 ≤ p.value ∧ p.value ≤ q.value ∧ q.value ≤ 5

/-- A larger computed multiplier after no smaller a previous one has no smaller
a next one. -/
theorem smooth_mono {c d : Decimal} {p q : Option Decimal}
    (hc : |c.value| ≤ mantissaLimit - 10) (hd : |d.value| ≤ mantissaLimit - 10)
    (hcd : c.value ≤ d.value) (hpq : Option.Rel Preceding p q) :
    ∃ m n, smooth c p = .ok m ∧ smooth d q = .ok n ∧ m.value ≤ n.value := by
  cases hpq with
  | none =>
      obtain ⟨m, hm, hmv⟩ := smooth_value hc none (by simp)
      obtain ⟨n, hn, hnv⟩ := smooth_value hd none (by simp)
      refine ⟨m, n, hm, hn, ?_⟩
      rw [hmv, hnv]
      exact bounded_mono hcd
  | some hle =>
      rename_i p q
      obtain ⟨hone, hle, hfive⟩ := hle
      obtain ⟨m, hm, hmv⟩ := smooth_value hc (some p)
        (by rintro r ⟨⟩; exact ⟨hone, hle.trans hfive⟩)
      obtain ⟨n, hn, hnv⟩ := smooth_value hd (some q)
        (by rintro r ⟨⟩; exact ⟨hone.trans hle, hfive⟩)
      refine ⟨m, n, hm, hn, ?_⟩
      rw [hmv, hnv]
      exact bounded_mono (limited_mono hcd hle)

/-- The computed multiplier exists for all factors and grows with each of them,
and so does the next one, which grows with the previous one too.  If the factors
are a million at most, the computed multiplier is off by half a cent and a
thousandth of one at most. -/
theorem smooth_weighted_mono {f g : SurgeFactors} {p q : Option Decimal}
    (hfg : f.AtMost g) (hpq : Option.Rel Preceding p q) :
    ∃ c d m n, f.weighted = .ok c ∧ g.weighted = .ok d ∧ c.value ≤ d.value ∧
      smooth c p = .ok m ∧ smooth d q = .ok n ∧ m.value ≤ n.value ∧
      ((∀ x ∈ f.toList, Double.AtMost (10 ^ 6) x) →
        |c.value - f.exactWeighted| ≤ 501 / 100000) := by
  obtain ⟨c, hc, -, hsize⟩ := f.exists_weighted
  obtain ⟨d, hd, -, hsize'⟩ := g.exists_weighted
  have hcd := SurgeFactors.weighted_mono hfg hc hd
  obtain ⟨m, n, hm, hn, hmn⟩ := smooth_mono hsize hsize' hcd hpq
  exact ⟨c, d, m, n, hc, hd, hcd, hm, hn, hmn, fun hf =>
    SurgeFactors.weighted_near hf hc⟩

/-- A rush that raises one factor, after a multiplier that was raised as
well. -/
theorem smooth_weighted_mono_rush :
    ∃ c d m n, SurgeFactors.neutral.weighted = .ok c ∧
      { SurgeFactors.neutral with timeOfDay := 1.8 }.weighted = .ok d ∧
      c.value ≤ d.value ∧
      smooth c (some (tenths 12)) = .ok m ∧
      smooth d (some (tenths 15)) = .ok n ∧
      m.value ≤ n.value ∧ |c.value - SurgeFactors.neutral.exactWeighted| ≤
        501 / 100000 := by
  have hone : (ofDouble 1.0).value ≤ (ofDouble 1.8).value :=
    not_lt.1 (mt lt_iff_value.2 (by decide +kernel))
  have hfactors : SurgeFactors.neutral.AtMost { SurgeFactors.neutral with
      timeOfDay := 1.8 } :=
    .cons le_rfl
      (.cons hone
        (.cons le_rfl (.cons le_rfl (.cons le_rfl (.cons le_rfl .nil)))))
  have hprevious : Option.Rel Preceding (some (tenths 12))
      (some (tenths 15)) := by
    refine .some ?_
    unfold Preceding
    rw [value_tenths (by decide), value_tenths (by decide)]
    norm_num
  have hsmall : ∀ x ∈ SurgeFactors.neutral.toList,
      Double.AtMost (10 ^ 6) x := by
    have hneutral : Double.AtMost (10 ^ 6) 1.0 :=
      Double.atMost_iff.2 ⟨⟨false, 4503599627370496, -52⟩, by decide +kernel, by
        decide, by norm_num⟩
    intro x hx
    simp only [SurgeFactors.toList, SurgeFactors.neutral, List.mem_cons,
      List.not_mem_nil, or_false, or_self] at hx
    rwa [hx]
  obtain ⟨c, d, m, n, hc, hd, hcd, hm, hn, hmn, hnear⟩ :=
    smooth_weighted_mono hfactors hprevious
  exact ⟨c, d, m, n, hc, hd, hcd, hm, hn, hmn, hnear hsmall⟩

end Surge

end Ridehail
