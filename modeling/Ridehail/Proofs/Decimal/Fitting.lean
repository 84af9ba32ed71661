import Ridehail.Proofs.Decimal.Value

/-!
# Arithmetic keeps the order

An operation answers with the exact result at the most places that fit.  The
larger a number is, the fewer places these are, so two results of one operation
may lie on different grids, and that one of the exact numbers is smaller does
not say at once that its result is.  It is: a number that has just become too
large for a place is rounded to the coarser grid, and `mantissaLimit` is such
that this takes it past all numbers of the finer one.

All that is used of an operation from here on is that its result `Fits` the
exact number.  The order is kept, a decimal fits itself, and how far a result is
off follows from how large the number is.

## Main results

* `nearest_mono` — of two numbers, the smaller is not rounded to more, whatever
  the tie rule.
* `Decimal.add_fits`, `mul_fits` — results fit.
* `Decimal.Fits.mono` — of two exact numbers, the smaller has no larger result.
* `Decimal.Fits.near` — a number with room for some places is off by half a unit
  of these.
* `Decimal.value_roundCents_mono` — rounding to cents keeps the order.
-/

namespace Ridehail

/-! ## The nearest natural -/

/-- A quotient is rounded past `n` if it lies above the half after `n`, or on it
and the tie goes up there. -/
theorem lt_roundDiv_iff_mul (tie : Tie) {num den n : Nat} (hden : 0 < den) :
    n < roundDiv tie num den ↔
      (2 * n + 1) * den < 2 * num ∨
        (2 * n + 1) * den = 2 * num ∧ tie.raises n 1 2 = true := by
  have hsplit := Nat.div_add_mod num den
  have hrem := Nat.mod_lt num hden
  unfold roundDiv
  generalize num / den = q at *
  generalize num % den = r at *
  have hpast : (2 * n + 1) * den = 2 * (den * n) + den := by ring
  rw [hpast]
  rcases Nat.lt_trichotomy n q with hless | rfl | hmore
  · have hle : den * n + den ≤ den * q := by
      rw [← Nat.mul_succ]
      exact Nat.mul_le_mul_left den hless
    have hlt : n < if tie.raises q r den = true then q + 1 else q := by
      split <;> omega
    exact iff_of_true hlt (.inl (by omega))
  · have hraises : tie.raises n r den = true ↔
        den < 2 * r ∨ den = 2 * r ∧ tie.raises n 1 2 := by
      unfold Tie.raises
      rcases Nat.lt_trichotomy (2 * r) den with h | h | h
      · simp [h]
        omega
      · simp [h]
      · simp [Nat.lt_asymm h, h.ne', h]
    by_cases h : tie.raises n r den = true
    · rw [if_pos h]
      refine iff_of_true (Nat.lt_succ_self n) ?_
      rcases hraises.1 h with h | ⟨h, htie⟩
      · exact .inl (by omega)
      · exact .inr ⟨by omega, htie⟩
    · rw [if_neg h]
      refine iff_of_false (Nat.lt_irrefl n) fun hcases => h (hraises.2 ?_)
      rcases hcases with h | ⟨h, htie⟩
      · exact .inl (by omega)
      · exact .inr ⟨by omega, htie⟩
  · have hle : den * q + den ≤ den * n := by
      rw [← Nat.mul_succ]
      exact Nat.mul_le_mul_left den hmore
    have hnot : ¬n < if tie.raises q r den = true then q + 1 else q := by
      split <;> omega
    exact iff_of_false hnot (by omega)

/-- So what a quotient is rounded to depends on its number alone. -/
theorem lt_roundDiv_iff (tie : Tie) {num den n : Nat} (hden : 0 < den) :
    n < roundDiv tie num den ↔ (n : ℚ) + 1 / 2 < num / den ∨
      (n : ℚ) + 1 / 2 = num / den ∧ tie.raises n 1 2 = true := by
  have hpos : (0 : ℚ) < den := by exact_mod_cast hden
  have hhalf : (((2 * n + 1) * den : Nat) : ℚ) = 2 * den * (n + 1 / 2) := by
    push_cast
    ring
  have hnum : ((2 * num : Nat) : ℚ) = 2 * den * (num / den) := by
    push_cast
    field_simp
  rw [lt_roundDiv_iff_mul tie hden, ← Nat.cast_lt (α := ℚ), ← Nat.cast_inj
    (R := ℚ), hhalf, hnum, mul_lt_mul_iff_right₀ (by positivity),
    mul_right_inj' (by positivity)]

/-- The natural nearest to the magnitude of a number. -/
def nearest (tie : Tie) (x : ℚ) : Nat := roundDiv tie x.num.natAbs x.den

theorem natAbs_num_div_den (x : ℚ) : (x.num.natAbs : ℚ) / x.den = |x| := by
  rw [Nat.cast_natAbs, Int.cast_abs, ← Nat.abs_cast x.den, ← abs_div,
    Rat.num_div_den]

/-- A quotient of naturals is rounded to what its number is. -/
theorem nearest_div (tie : Tie) (num : Nat) {den : Nat} (hden : 0 < den) :
    nearest tie (num / den) = roundDiv tie num den := by
  apply eq_of_forall_lt_iff
  intro n
  have hnonneg : (0 : ℚ) ≤ num / den := by positivity
  rw [nearest, lt_roundDiv_iff tie (Rat.den_pos _), lt_roundDiv_iff tie hden,
    natAbs_num_div_den, abs_of_nonneg hnonneg]

variable {tie : Tie} {x y : ℚ}

/-- Of two numbers, the one of smaller magnitude is not rounded to more. -/
theorem nearest_mono (tie : Tie) (h : |x| ≤ |y|) :
    nearest tie x ≤ nearest tie y := by
  apply le_of_forall_lt
  intro n hn
  rw [nearest, lt_roundDiv_iff tie (Rat.den_pos _), natAbs_num_div_den] at hn ⊢
  rcases hn with hn | ⟨hn, htie⟩
  · exact .inl (hn.trans_le h)
  · exact (lt_or_eq_of_le (hn.trans_le h)).imp id fun hhalf => ⟨hhalf, htie⟩

theorem nearest_congr (h : |x| = |y|) : nearest tie x = nearest tie y :=
  Nat.le_antisymm (nearest_mono tie h.le) (nearest_mono tie h.ge)

theorem nearest_natCast (tie : Tie) (n : Nat) : nearest tie n = n := by
  have h := nearest_div tie n Nat.one_pos
  rwa [Nat.cast_one, div_one, roundDiv_one] at h

/-- A number and the natural that it is rounded to differ by a half at most. -/
theorem abs_nearest_sub_le (tie : Tie) (x : ℚ) :
    |(nearest tie x - |x|)| ≤ 1 / 2 := by
  have h := abs_roundDiv_sub_le tie x.num.natAbs x.den_pos
  rwa [natAbs_num_div_den] at h

namespace Decimal

/-! ## The best fit -/

/-- The magnitude of `d` is that of `x` rounded, halves to the even neighbour,
to the most places that fit: it is exact, or has all places that there are, or
one place more is one too many. -/
structure BestFit (x : ℚ) (d : Decimal) : Prop where
  mantissa_eq : d.mantissa = nearest .toEven (x * 10 ^ d.scale)
  full : |d.value| = |x| ∨ d.scale = 28 ∨
    mantissaLimit ≤ nearest .toEven (x * 10 ^ (d.scale + 1))

variable {d e : Decimal}

theorem abs_value_mul_pow (d : Decimal) :
    |d.value| * 10 ^ d.scale = d.mantissa := by
  rw [abs_value, div_mul_cancel₀ _ (by positivity)]

/-- At later places the magnitude of a decimal is whole as well. -/
theorem abs_value_mul_pow_of_le {places : Nat} (h : d.scale ≤ places) :
    |d.value| * 10 ^ places = (d.mantissa * 10 ^ (places - d.scale) : Nat) := by
  rw [← Nat.add_sub_of_le h, pow_add, ← mul_assoc, abs_value_mul_pow,
    Nat.add_sub_cancel_left]
  push_cast
  rfl

theorem abs_mul_pow (x : ℚ) (places : Nat) :
    |x * 10 ^ places| = |x| * 10 ^ places := by
  rw [abs_mul, abs_of_pos (show (0 : ℚ) < 10 ^ places by positivity)]

/-- What is rounded at the places of a decimal of that magnitude is the
decimal. -/
theorem nearest_eq_of_abs_eq {places : Nat} (hx : |d.value| = |x|)
    (h : d.scale ≤ places) :
    nearest .toEven (x * 10 ^ places) =
      d.mantissa * 10 ^ (places - d.scale) := by
  have hsame : |x * 10 ^ places| =
      |((d.mantissa * 10 ^ (places - d.scale) : Nat) : ℚ)| := by
    rw [abs_mul_pow, ← hx, abs_value_mul_pow_of_le h, Nat.abs_cast]
  rw [nearest_congr hsame, nearest_natCast]

/-- What has one place too many is more than a mantissa even if it is rounded to
tens. -/
theorem limit_le_ten_mul {places : Nat}
    (h : mantissaLimit ≤ nearest .toEven (x * 10 ^ (places + 1))) :
    mantissaLimit ≤ 10 * nearest .toEven (x * 10 ^ places) := by
  have hnear :=
    (abs_le.1 (abs_nearest_sub_le .toEven (x * 10 ^ (places + 1)))).2
  have hlimit : (79228162514264337593543950336 : ℚ) ≤
      nearest .toEven (x * 10 ^ (places + 1)) := by
    exact_mod_cast h
  rw [abs_mul_pow, pow_succ, ← mul_assoc |x|, ← pow_succ] at hnear
  -- The tenth of what is half a unit below the limit is nearer to the natural
  -- above it.
  have hlarge : |((158456325028528675187087900671 : Nat) / (20 : Nat) : ℚ)| ≤
      |x * 10 ^ places| := by
    rw [abs_mul_pow, abs_of_pos (by norm_num)]
    norm_num
    linarith
  have hle := nearest_mono .toEven hlarge
  rw [nearest_div .toEven _ (by decide)] at hle
  have hrounded : roundDiv .toEven 158456325028528675187087900671 20 =
      7922816251426433759354395034 := by decide
  rw [hrounded] at hle
  unfold mantissaLimit
  omega

/-- Of two numbers, the one of smaller magnitude has no larger best fit. -/
theorem BestFit.mono (hd : BestFit x d) (he : BestFit y e) (h : |x| ≤ |y|) :
    |d.value| ≤ |e.value| := by
  have hscaled (places : Nat) : |x * 10 ^ places| ≤ |y * 10 ^ places| := by
    rw [abs_mul_pow, abs_mul_pow]
    exact mul_le_mul_of_nonneg_right h (by positivity)
  -- It is enough to compare the mantissas at the places of either.
  have hcompare {places : Nat} (hdp : d.scale ≤ places) (hep : e.scale ≤ places)
      (hle : d.mantissa * 10 ^ (places - d.scale) ≤
        e.mantissa * 10 ^ (places - e.scale)) :
      |d.value| ≤ |e.value| := by
    have hpos : (0 : ℚ) < 10 ^ places := by positivity
    rw [← mul_le_mul_iff_left₀ hpos, abs_value_mul_pow_of_le hdp,
      abs_value_mul_pow_of_le hep]
    exact_mod_cast hle
  rcases Nat.lt_trichotomy d.scale e.scale with hfewer | hsame | hmore
  · -- The smaller one has fewer places only if it needs no more.
    refine hcompare hfewer.le le_rfl ?_
    rw [Nat.sub_self, pow_zero, mul_one, he.mantissa_eq]
    rcases hd.full with hexact | hfull | hfull
    · rw [← nearest_eq_of_abs_eq hexact hfewer.le]
      exact nearest_mono .toEven (hscaled _)
    · have := e.scale_le
      omega
    · have hlarger : |x * 10 ^ (d.scale + 1)| ≤ |y * 10 ^ e.scale| := by
        refine le_trans ?_ (hscaled e.scale)
        rw [abs_mul_pow, abs_mul_pow]
        exact mul_le_mul_of_nonneg_left (pow_le_pow_right₀ (by norm_num) hfewer)
          (abs_nonneg x)
      have hle := nearest_mono .toEven hlarger
      have hlt := e.mantissa_lt
      rw [he.mantissa_eq] at hlt
      omega
  · refine hcompare hsame.le le_rfl ?_
    rw [hsame, Nat.sub_self, pow_zero, mul_one, mul_one, hd.mantissa_eq,
      he.mantissa_eq, hsame]
    exact nearest_mono .toEven (hscaled _)
  · -- The larger one has fewer places as it is exact, or as more of them do not
    -- fit.
    refine hcompare le_rfl hmore.le ?_
    rw [Nat.sub_self, pow_zero, mul_one]
    rcases he.full with hexact | hfull | hfull
    · rw [hd.mantissa_eq, ← nearest_eq_of_abs_eq hexact hmore.le]
      exact nearest_mono .toEven (hscaled _)
    · have := d.scale_le
      omega
    · have hten := limit_le_ten_mul hfull
      rw [← he.mantissa_eq] at hten
      have hpow : 10 ≤ 10 ^ (d.scale - e.scale) := by
        calc 10 = 10 ^ 1 := rfl
          _ ≤ 10 ^ (d.scale - e.scale) :=
            Nat.pow_le_pow_right (by decide) (by omega)
      calc d.mantissa ≤ mantissaLimit := d.mantissa_lt.le
        _ ≤ e.mantissa * 10 := by omega
        _ ≤ e.mantissa * 10 ^ (d.scale - e.scale) := Nat.mul_le_mul_left _ hpow

/-- A best fit is off by half a unit of some places if there is room for
these. -/
theorem BestFit.near (h : BestFit x d) (places : Nat) (hplaces : places ≤ 28)
    (hroom : |x| * 10 ^ places ≤ mantissaLimit - 1) :
    |(|d.value| - |x|)| ≤ 1 / (2 * 10 ^ places) := by
  by_cases hscale : places ≤ d.scale
  · have hnear := abs_nearest_sub_le .toEven (x * 10 ^ d.scale)
    have hpow : (10 : ℚ) ^ places ≤ 10 ^ d.scale :=
      pow_le_pow_right₀ (by norm_num) hscale
    rw [← h.mantissa_eq, ← abs_value_mul_pow, abs_mul_pow, ← sub_mul, abs_mul,
      abs_of_pos (show (0 : ℚ) < 10 ^ d.scale by positivity)] at hnear
    rw [le_div_iff₀ (by positivity)]
    have hle := mul_le_mul_of_nonneg_left hpow (abs_nonneg (|d.value| - |x|))
    linarith
  · rcases h.full with hexact | hfull | hfull
    · rw [hexact, sub_self, abs_zero]
      positivity
    · omega
    · exfalso
      have hnear :=
        (abs_le.1 (abs_nearest_sub_le .toEven (x * 10 ^ (d.scale + 1)))).2
      have hlimit : (mantissaLimit : ℚ) ≤
          nearest .toEven (x * 10 ^ (d.scale + 1)) := by
        exact_mod_cast hfull
      have hpow : |x| * 10 ^ (d.scale + 1) ≤ |x| * 10 ^ places :=
        mul_le_mul_of_nonneg_left (pow_le_pow_right₀ (by norm_num) (by omega))
          (abs_nonneg x)
      rw [abs_mul_pow] at hnear
      linarith

/-- What is rounded at some places is a quotient of naturals. -/
theorem nearest_places {mantissa scale places : Nat} (h : places ≤ scale) :
    nearest .toEven ((mantissa : ℚ) / 10 ^ scale * 10 ^ places) =
      roundDiv .toEven mantissa (tenPow (scale - places)) := by
  have hquot : (mantissa : ℚ) / 10 ^ scale * 10 ^ places =
      mantissa / (tenPow (scale - places) : Nat) := by
    have hsplit : (10 : ℚ) ^ scale = 10 ^ (scale - places) * 10 ^ places := by
      rw [← pow_add, Nat.sub_add_cancel h]
    rw [cast_tenPow, hsplit]
    field_simp
  rw [hquot, nearest_div .toEven mantissa (tenPow_pos _)]

theorem fitAt?_eq_some {negative : Bool} {mantissa scale places : Nat}
    (hplaces : places ≤ scale)
    (h : fitAt? negative mantissa scale places = some d) : d.scale = places ∧
      d.mantissa = nearest .toEven ((mantissa : ℚ) / 10 ^ scale * 10 ^ places) ∧
        d.value = withSign negative |d.value| := by
  obtain ⟨hscale, hvalue⟩ := mk?_eq_some h
  rw [nearest_places hplaces]
  have habs : |d.value| = roundDiv .toEven mantissa (tenPow (scale - places)) /
      10 ^ places := by
    rw [hvalue, abs_withSign, abs_of_nonneg (by positivity)]
  refine ⟨hscale, ?_, habs ▸ hvalue⟩
  have hcast := abs_value_mul_pow d
  rw [habs, hscale, div_mul_cancel₀ _ (by positivity)] at hcast
  exact_mod_cast hcast.symm

/-- A fit is the best one if it is exact, or if more places do not fit. -/
theorem bestFit_of_fitAt? {negative : Bool} {mantissa scale places : Nat}
    (hplaces : places ≤ scale)
    (hfull : places = scale ∨ places = 28 ∨
      mantissaLimit ≤ nearest .toEven
        ((mantissa : ℚ) / 10 ^ scale * 10 ^ (places + 1)))
    (h : fitAt? negative mantissa scale places = some d) :
    BestFit (mantissa / 10 ^ scale) d ∧
      d.value = withSign negative |d.value| := by
  obtain ⟨hscale, hmantissa, hsign⟩ := fitAt?_eq_some hplaces h
  refine ⟨⟨by rw [hscale]; exact hmantissa, ?_⟩, hsign⟩
  rw [hscale]
  refine hfull.imp_left fun hall => ?_
  rw [nearest_places hplaces, hall, Nat.sub_self, tenPow_zero,
    roundDiv_one] at hmantissa
  rw [abs_value, hmantissa, hscale, hall, abs_of_nonneg (by positivity)]

/-- What has no fit at some places has too many digits there. -/
theorem limit_le_of_fitAt?_eq_none {negative : Bool}
    {mantissa scale places : Nat} (hplaces : places ≤ scale)
    (hmost : places ≤ 28) (h : fitAt? negative mantissa scale places = none) :
    mantissaLimit ≤ nearest .toEven
      ((mantissa : ℚ) / 10 ^ scale * 10 ^ places) := by
  rw [nearest_places hplaces]
  by_contra hlt
  unfold fitAt? mk? at h
  rw [dif_pos ⟨not_le.1 hlt, hmost⟩] at h
  cases h

/-- The first fit from some places on is the best one if more of them do not
fit. -/
theorem bestFit_of_fitFrom? {negative : Bool} {mantissa scale places : Nat}
    (hplaces : places ≤ scale) (hmost : places ≤ 28)
    (hfull : places = scale ∨ places = 28 ∨
      mantissaLimit ≤ nearest .toEven
        ((mantissa : ℚ) / 10 ^ scale * 10 ^ (places + 1)))
    (h : fitFrom? negative mantissa scale places = some d) :
    BestFit (mantissa / 10 ^ scale) d ∧
      d.value = withSign negative |d.value| := by
  induction places with
  | zero => exact bestFit_of_fitAt? hplaces hfull h
  | succ places ih =>
      unfold fitFrom? at h
      split at h
      · rename_i d' hfit
        cases h
        exact bestFit_of_fitAt? hplaces hfull hfit
      · rename_i hnone
        have hmany := limit_le_of_fitAt?_eq_none hplaces hmost hnone
        exact ih (by omega) (by omega) (.inr (.inr hmany)) h

/-- What the rule answers with is the best fit, with the sign that was asked
for. -/
theorem bestFit_of_fit? {negative : Bool} {mantissa scale : Nat}
    (h : fit? negative mantissa scale = some d) :
    BestFit (mantissa / 10 ^ scale) d ∧ d.value = withSign negative |d.value| :=
  bestFit_of_fitFrom? (Nat.min_le_left _ _) (Nat.min_le_right _ _) (by omega) h

/-- A decimal is the best fit of its own magnitude. -/
theorem bestFit_of_abs_eq (h : |d.value| = |x|) : BestFit x d where
  mantissa_eq := by
    rw [nearest_eq_of_abs_eq h le_rfl, Nat.sub_self, pow_zero, mul_one]
  full := .inl h

theorem BestFit.congr (h : BestFit x d) (hxy : |x| = |y|) : BestFit y d where
  mantissa_eq := by
    have hscaled : |x * 10 ^ d.scale| = |y * 10 ^ d.scale| := by
      rw [abs_mul_pow, abs_mul_pow, hxy]
    rw [h.mantissa_eq, nearest_congr hscaled]
  full := by
    have hscaled : |x * 10 ^ (d.scale + 1)| = |y * 10 ^ (d.scale + 1)| := by
      rw [abs_mul_pow, abs_mul_pow, hxy]
    rw [← hxy, ← nearest_congr hscaled]
    exact h.full

theorem BestFit.value_eq_zero (h : BestFit 0 d) : d.value = 0 := by
  apply value_of_mantissa_eq_zero
  rw [h.mantissa_eq, zero_mul, ← Nat.cast_zero, nearest_natCast]

/-! ## Results of operations -/

/-- `d` is what an operation answers with whose exact result is `x`: the best
fit, with the sign of `x`. -/
structure Fits (x : ℚ) (d : Decimal) : Prop where
  best : BestFit x d
  nonneg : 0 ≤ x → 0 ≤ d.value
  nonpos : x ≤ 0 → d.value ≤ 0

/-- A decimal fits the number that it denotes. -/
theorem fits_value (d : Decimal) : Fits d.value d :=
  ⟨bestFit_of_abs_eq rfl, id, id⟩

/-- Of two exact numbers, the smaller has no larger result. -/
theorem Fits.mono (hd : Fits x d) (he : Fits y e) (h : x ≤ y) :
    d.value ≤ e.value := by
  rcases le_total 0 x with hx | hx
  · -- Both are nonnegative: the smaller has the smaller magnitude.
    have hy := hx.trans h
    have hle :=
      hd.best.mono he.best (by rwa [abs_of_nonneg hx, abs_of_nonneg hy])
    rwa [abs_of_nonneg (hd.nonneg hx), abs_of_nonneg (he.nonneg hy)] at hle
  · rcases le_total 0 y with hy | hy
    · exact (hd.nonpos hx).trans (he.nonneg hy)
    · -- Both are nonpositive: the smaller has the larger magnitude.
      have hle := he.best.mono hd.best (by
        rw [abs_of_nonpos hx, abs_of_nonpos hy]
        exact neg_le_neg h)
      rw [abs_of_nonpos (hd.nonpos hx), abs_of_nonpos (he.nonpos hy)] at hle
      exact neg_le_neg_iff.1 hle

/-- A result is off by half a unit of some places if there is room for these. -/
theorem Fits.near (h : Fits x d) (places : Nat) (hplaces : places ≤ 28)
    (hroom : |x| * 10 ^ places ≤ mantissaLimit - 1) :
    |d.value - x| ≤ 1 / (2 * 10 ^ places) := by
  have hnear := h.best.near places hplaces hroom
  rcases le_total 0 x with hx | hx
  · rwa [abs_of_nonneg (h.nonneg hx), abs_of_nonneg hx] at hnear
  · rw [abs_of_nonpos (h.nonpos hx), abs_of_nonpos hx, neg_sub_neg,
      abs_sub_comm] at hnear
    exact hnear

/-- The best fit of a magnitude fits the number with its sign. -/
theorem fits_withSign {negative : Bool} (hx : 0 ≤ x) (hbest : BestFit x d)
    (hsign : d.value = withSign negative |d.value|) :
    Fits (withSign negative x) d := by
  have habs : |x| = |withSign negative x| := by rw [abs_withSign]
  have hzero (h : x ≤ 0) : |d.value| = 0 := by
    rw [le_antisymm h hx] at hbest
    rw [hbest.value_eq_zero, abs_zero]
  refine ⟨hbest.congr habs, fun h => ?_, fun h => ?_⟩
  · cases negative with
    | false => exact hsign ▸ abs_nonneg d.value
    | true => rw [hsign, hzero (neg_nonneg.1 h), withSign, if_pos rfl, neg_zero]
  · cases negative with
    | false => rw [hsign, hzero h, withSign, if_neg Bool.false_ne_true]
    | true => exact hsign ▸ neg_nonpos.2 (abs_nonneg d.value)

theorem fits_of_fit? {negative : Bool} {mantissa scale : Nat}
    (h : fit? negative mantissa scale = some d) :
    Fits (withSign negative (mantissa / 10 ^ scale)) d := by
  obtain ⟨hbest, hsign⟩ := bestFit_of_fit? h
  exact fits_withSign (by positivity) hbest hsign

theorem fits_of_ofScaled? {units : Int} {scale : Nat}
    (h : ofScaled? units scale = some d) :
    Fits (units / 10 ^ scale) d := by
  have hfits := fits_of_fit? h
  rwa [withSign_units] at hfits

variable {a b : Decimal}

theorem add_fits (h : a.add b = .ok d) : Fits (a.value + b.value) d := by
  unfold add at h
  split at h
  · rename_i hzero
    cases h
    rw [value_of_mantissa_eq_zero hzero, zero_add]
    exact fits_value d
  · split at h
    · rename_i hzero
      cases h
      rw [value_of_mantissa_eq_zero hzero, add_zero]
      exact fits_value d
    · dsimp only at h
      split at h
      · rename_i hfit
        cases h
        have hfits := fits_of_ofScaled? hfit
        rwa [unitsAt_add] at hfits
      · cases h

/-- The sign of a zero is no matter. -/
theorem Fits.of_value_eq (h : Fits x d) (hscale : e.scale = d.scale)
    (hvalue : e.value = d.value) :
    Fits x e where
  best := by
    have hmantissa : e.mantissa = d.mantissa := by
      have hcast := abs_value_mul_pow e
      rw [hvalue, hscale, abs_value_mul_pow] at hcast
      exact_mod_cast hcast.symm
    exact ⟨by rw [hmantissa, hscale, h.best.mantissa_eq],
      by rw [hvalue, hscale]; exact h.best.full⟩
  nonneg := by rw [hvalue]; exact h.nonneg
  nonpos := by rw [hvalue]; exact h.nonpos

theorem mul_fits (h : a.mul b = .ok d) : Fits (a.value * b.value) d := by
  by_cases hzero : a.mantissa = 0 ∨ b.mantissa = 0
  · obtain ⟨hmul, hvalue⟩ := mul_of_zero hzero
    cases h.symm.trans hmul
    rw [hvalue, ← value_zero]
    exact fits_value zero
  · obtain ⟨ha, hb⟩ := not_or.1 hzero
    cases hfit : fit? (a.negative != b.negative) (a.mantissa * b.mantissa)
        (a.scale + b.scale) with
    | none =>
        unfold mul at h
        rw [if_neg hzero, hfit] at h
        cases h
    | some e =>
        obtain ⟨d', hmul, hscale, hvalue⟩ := mul_of_fit? ha hb hfit
        cases h.symm.trans hmul
        rw [value_mul_eq]
        exact (fits_of_fit? hfit).of_value_eq hscale hvalue

/-- A computation that has a result has one after each of its steps. -/
theorem exists_of_bind {α β : Type} {x : Except Overflow α}
    {f : α → Except Overflow β} {r : β} (h : (x >>= f) = .ok r) :
    ∃ v, x = .ok v ∧ f v = .ok r := by
  cases x with
  | error e => cases h
  | ok v => exact ⟨v, rfl, h⟩

/-- A sum that fits as a whole number has a result. -/
theorem exists_add_fits (h : |a.value + b.value| ≤ mantissaLimit - 1) :
    ∃ d, a.add b = .ok d ∧ Fits (a.value + b.value) d := by
  obtain ⟨d, hd, -⟩ := add_near h
  exact ⟨d, hd, add_fits hd⟩

/-- A product that fits as a whole number has a result. -/
theorem exists_mul_fits (h : |a.value * b.value| ≤ mantissaLimit - 1) :
    ∃ d, a.mul b = .ok d ∧ Fits (a.value * b.value) d := by
  obtain ⟨d, hd, -⟩ := mul_near h
  exact ⟨d, hd, mul_fits hd⟩

/-! ## Whole cents -/

/-- What is rounded to cents for want of places is the magnitude. -/
theorem roundDiv_cents (h : 2 ≤ d.scale) :
    roundDiv .up d.mantissa (tenPow (d.scale - 2)) =
      nearest .up (|d.value| * 100) := by
  have hquot : |d.value| * 100 = d.mantissa / (tenPow (d.scale - 2) : Nat) := by
    have hsplit : (10 : ℚ) ^ d.scale = 10 ^ (d.scale - 2) * 100 := by
      rw [← Nat.sub_add_cancel h, pow_add, Nat.add_sub_cancel]
      norm_num
    rw [abs_value, cast_tenPow, hsplit]
    field_simp
  rw [hquot, nearest_div .up d.mantissa (tenPow_pos _)]

/-- What has two places at most is a whole number of cents. -/
theorem nearest_cents (h : d.scale ≤ 2) :
    (nearest .up (|d.value| * 100) : ℚ) = |d.value| * 100 := by
  have hcents := abs_value_mul_pow_of_le h
  rw [show (10 : ℚ) ^ 2 = 100 by norm_num] at hcents
  rw [hcents, nearest_natCast]

/-- Rounding to cents rounds the magnitude to a whole number of cents, halves
up. -/
theorem value_roundCents (d : Decimal) :
    d.roundCents.value = withSign d.negative
      (nearest .up (|d.value| * 100) / 100) := by
  unfold roundCents
  split
  · rename_i hzero
    rw [value_of_mantissa_eq_zero hzero, value_of_mantissa_eq_zero rfl,
      abs_zero, zero_mul, ← Nat.cast_zero, nearest_natCast]
    simp [withSign]
  · split
    · rename_i hfew
      rw [nearest_cents hfew, mul_div_cancel_right₀ _ (by norm_num), abs_value]
      exact value_eq_withSign d
    · rename_i hmany
      rw [← roundDiv_cents (by omega), value_eq_withSign]
      show withSign (d.negative &&
        roundDiv .up d.mantissa (tenPow (d.scale - 2)) != 0)
        (roundDiv .up d.mantissa (tenPow (d.scale - 2)) / 10 ^ 2) = _
      -- Without a digit left there is no sign to keep.
      by_cases hzero : roundDiv .up d.mantissa (tenPow (d.scale - 2)) = 0
      · simp [withSign, hzero]
      · rw [bne_iff_ne.2 hzero, Bool.and_true]
        norm_num

theorem value_roundCents_of_nonneg (h : 0 ≤ d.value) :
    d.roundCents.value = nearest .up (d.value * 100) / 100 := by
  rw [value_roundCents, abs_of_nonneg h]
  cases hsign : d.negative with
  | false => rfl
  | true =>
      have hzero : d.value = 0 := by
        refine le_antisymm ?_ h
        rw [value_eq_withSign, hsign]
        exact neg_nonpos.2 (by positivity)
      rw [hzero, zero_mul, ← Nat.cast_zero, nearest_natCast]
      simp [withSign]

theorem value_roundCents_of_nonpos (h : d.value ≤ 0) :
    d.roundCents.value = -(nearest .up (d.value * 100) / 100) := by
  rw [value_roundCents,
    nearest_congr (y := d.value * 100) (by rw [abs_mul, abs_abs, ← abs_mul])]
  cases hsign : d.negative with
  | true => rfl
  | false =>
      have hzero : d.value = 0 := by
        refine le_antisymm h ?_
        rw [value_eq_withSign, hsign]
        exact div_nonneg (Nat.cast_nonneg _) (by positivity)
      rw [hzero, zero_mul, ← Nat.cast_zero, nearest_natCast]
      simp [withSign]

/-- Rounding to cents keeps the order. -/
theorem value_roundCents_mono (h : d.value ≤ e.value) :
    d.roundCents.value ≤ e.roundCents.value := by
  have hscaled : d.value * 100 ≤ e.value * 100 := by linarith
  rcases le_total 0 d.value with hd | hd
  · have he := hd.trans h
    rw [value_roundCents_of_nonneg hd, value_roundCents_of_nonneg he]
    gcongr
    apply nearest_mono .up
    rwa [abs_of_nonneg (by linarith), abs_of_nonneg (by linarith)]
  · rw [value_roundCents_of_nonpos hd]
    rcases le_total 0 e.value with he | he
    · rw [value_roundCents_of_nonneg he]
      exact (neg_nonpos.2 (by positivity)).trans (by positivity)
    · rw [value_roundCents_of_nonpos he]
      gcongr
      apply nearest_mono .up
      rw [abs_of_nonpos (by linarith), abs_of_nonpos (by linarith)]
      exact neg_le_neg hscaled

end Decimal

end Ridehail
