import Ridehail.Decimal.Double
import Ridehail.Proofs.Decimal.RoundTrip
import Ridehail.Proofs.Decimal.Value
import Ridehail.Proofs.Double.Product

/-!
# How large the decimal of a double is

The largest doubles below the bound of mantissas are whole numbers, and their
decimals are those numbers.  A double that far up is a multiple of a high power
of two, so it is far from the bound, which leaves room for rounding when it is
multiplied and added up.

A double with a fraction is small, below half of what its mantissa can be.
Halving it in decimal digits never makes it larger, and dropping digits adds
less than a unit.

## Main results

* `abs_value_ofDouble_le` — the decimal of any double is far from the bound of
  mantissas.
* `abs_value_ofDouble_le_of_exponent` — the decimal of a double with a fraction
  is small.
-/

namespace Ridehail

@[simp] theorem cast_twoPow (k : Nat) : (twoPow k : ℚ) = 2 ^ k := by
  rw [show twoPow k = 2 ^ k from rfl]
  push_cast
  rfl

namespace Decimal

/-! ## Trading twos for tens -/

/-- A number with room is doubled exactly. -/
theorem Trade.double_of_room {bits twos : Nat} {ten : Int}
    (h : bits * twoPow twos < mantissaLimit) :
    Trade.double ⟨bits, ten⟩ twos = ⟨bits * twoPow twos, ten - twos⟩ := by
  induction twos generalizing bits ten with
  | zero =>
      rw [Trade.double, show twoPow 0 = 1 from rfl, Nat.mul_one]
      simp
  | succ twos ih =>
      have hsplit : bits * twoPow (twos + 1) = bits * 2 * twoPow twos := by
        rw [show twoPow (twos + 1) = twoPow twos * 2 from rfl,
          Nat.mul_right_comm, Nat.mul_assoc]
      have hroom : bits * 2 < mantissaLimit := by
        rw [hsplit] at h
        exact lt_of_le_of_lt (Nat.le_mul_of_pos_right _ (twoPow_pos twos)) h
      rw [Trade.double, if_pos hroom, ih (hsplit ▸ h), hsplit]
      congr 1
      push_cast
      ring

/-- Halving gives up to as many tens as there were halvings, and never more than
the half. -/
theorem Trade.halve_le (bits twos : Nat) (ten : Int) :
    ∃ j ≤ twos, (Trade.halve ⟨bits, ten⟩ twos).ten = ten + j ∧
      (Trade.halve ⟨bits, ten⟩ twos).bits * 10 ^ j ≤ bits * 5 ^ twos := by
  induction twos generalizing bits ten with
  | zero => exact ⟨0, le_rfl, by simp [Trade.halve], by simp [Trade.halve]⟩
  | succ twos ih =>
      -- A bit that is lost is worth a ten more.
      have hhalved : ∃ j ≤ twos + 1,
          (Trade.halve ⟨bits / 2, ten + 1⟩ twos).ten = ten + j ∧
            (Trade.halve ⟨bits / 2, ten + 1⟩ twos).bits * 10 ^ j ≤
              bits * 5 ^ (twos + 1) := by
        obtain ⟨j, hj, hten, hbits⟩ := ih (bits / 2) (ten + 1)
        refine ⟨j + 1, by omega, by rw [hten]; push_cast; ring, ?_⟩
        have hhalf : bits / 2 * 10 ≤ bits * 5 := by omega
        calc (Trade.halve ⟨bits / 2, ten + 1⟩ twos).bits * 10 ^ (j + 1)
            = (Trade.halve ⟨bits / 2, ten + 1⟩ twos).bits * 10 ^ j * 10 := by
              ring
          _ ≤ bits / 2 * 5 ^ twos * 10 := Nat.mul_le_mul_right 10 hbits
          _ = bits / 2 * 10 * 5 ^ twos := by ring
          _ ≤ bits * 5 * 5 ^ twos := Nat.mul_le_mul_right _ hhalf
          _ = bits * 5 ^ (twos + 1) := by ring
      rw [Trade.halve]
      split
      · exact hhalved
      · split
        · obtain ⟨j, hj, hten, hbits⟩ := ih (bits * 5) ten
          refine ⟨j, by omega, hten, hbits.trans (le_of_eq ?_)⟩
          ring
        · exact hhalved

/-! ## Dropping digits -/

/-- The number left when one digit is dropped and rounds half up. -/
theorem ten_mul_dropDigit_le (bits : Nat) :
    10 * (if 5 ≤ bits % 10 then bits / 10 + 1 else bits / 10) ≤ bits + 5 := by
  split <;> omega

/-- Every digit that is dropped adds half a unit at most, and each of them a
tenth of what the next one adds. -/
theorem Trade.dropPlaces_le (bits places : Nat) :
    18 * (tenPow places * Trade.dropPlaces bits places) + 10 ≤
      18 * bits + 10 * tenPow places := by
  induction places generalizing bits with
  | zero => simp [Trade.dropPlaces]
  | succ places ih =>
      have hpos := tenPow_pos places
      rw [Trade.dropPlaces, tenPow_succ]
      split
      · simp only [Nat.mul_zero]
        omega
      · have hdrop := ten_mul_dropDigit_le bits
        have hrest := ih (if 5 ≤ bits % 10 then bits / 10 + 1 else bits / 10)
        rw [Nat.mul_right_comm]
        omega

theorem Trade.dropExcess_le (bits scale : Nat) :
    (Trade.dropExcess bits scale).2 ≤ scale ∧
      18 * (tenPow (scale - (Trade.dropExcess bits scale).2) *
        (Trade.dropExcess bits scale).1) + 10 ≤ 18 * bits +
        10 * tenPow (scale - (Trade.dropExcess bits scale).2) := by
  induction scale generalizing bits with
  | zero => simp [Trade.dropExcess]
  | succ scale ih =>
      rw [Trade.dropExcess]
      split
      · simp
      · have hdrop := ten_mul_dropDigit_le bits
        obtain ⟨hscale, hrest⟩ :=
          ih (if 5 ≤ bits % 10 then bits / 10 + 1 else bits / 10)
        refine ⟨by omega, ?_⟩
        rw [Nat.sub_add_comm hscale, tenPow_succ, Nat.mul_right_comm]
        have hpos := tenPow_pos (scale -
          (Trade.dropExcess (if 5 ≤ bits % 10 then bits / 10 + 1 else bits / 10)
            scale).2)
        omega

/-- Dropping digits adds less than a unit of the place that is left. -/
theorem dropped_le {bits left places : Nat}
    (h : 18 * (tenPow places * left) + 10 ≤ 18 * bits + 10 * tenPow places) :
    (left : ℚ) ≤ bits / 10 ^ places + 1 := by
  have hcast : (18 * (10 ^ places * left) + 10 : ℚ) ≤
      18 * bits + 10 * 10 ^ places := by
    have hnat : ((18 * (tenPow places * left) + 10 : Nat) : ℚ) ≤
        (18 * bits + 10 * tenPow places : Nat) := by exact_mod_cast h
    push_cast [cast_tenPow] at hnat
    exact hnat
  have hpos : (0 : ℚ) < 10 ^ places := by positivity
  rw [← sub_le_iff_le_add, le_div_iff₀ hpos]
  nlinarith

theorem value_stripZeros (bits : Nat) {scale : Nat} (h : scale ≤ 28) :
    ((stripZeros bits scale).1 : ℚ) / 10 ^ (stripZeros bits scale).2 =
      bits / 10 ^ scale := by
  have hcast :
      ((stripZeros bits scale).1 : ℚ) * 10 ^ (28 - (stripZeros bits scale).2) =
      bits * 10 ^ (28 - scale) := by
    have hnat := congrArg (Nat.cast : Nat → ℚ) (stripZeros_value bits h)
    push_cast [cast_tenPow] at hnat
    exact hnat
  rw [← mul_pow_div_pow ((stripZeros_scale_le bits scale).trans h), hcast,
    mul_pow_div_pow h]

/-! ## The decimal of a double -/

/-- What is made of the digits at last is no larger than they are, and a unit at
most. -/
theorem abs_value_trimmed_le (negative : Bool) {bits scale : Nat}
    (h : scale ≤ 28) :
    |((mk? negative (stripZeros (Trade.dropExcess bits scale).1
      (Trade.dropExcess bits scale).2).1
      (stripZeros (Trade.dropExcess bits scale).1
      (Trade.dropExcess bits scale).2).2).getD zero).value| ≤
      bits / 10 ^ scale + 1 := by
  obtain ⟨hscale, hdropped⟩ := Trade.dropExcess_le bits scale
  have hleft := dropped_le hdropped
  have hstrip :=
    value_stripZeros (Trade.dropExcess bits scale).1 (hscale.trans h)
  generalize stripZeros (Trade.dropExcess bits scale).1
    (Trade.dropExcess bits scale).2 = digits at hstrip
  generalize Trade.dropExcess bits scale = kept at hscale hleft hstrip
  have hpow : (1 : ℚ) ≤ 10 ^ kept.2 := one_le_pow₀ (by norm_num)
  have hbound : (digits.1 : ℚ) / 10 ^ digits.2 ≤ bits / 10 ^ scale + 1 := by
    have hsplit : (10 : ℚ) ^ scale = 10 ^ (scale - kept.2) * 10 ^ kept.2 := by
      rw [← pow_add, Nat.sub_add_cancel hscale]
    rw [hstrip, hsplit, ← div_div, div_le_iff₀ (by positivity),
      add_mul, one_mul, div_mul_cancel₀ _ (by positivity)]
    linarith
  cases hmk : mk? negative digits.1 digits.2 with
  | none =>
      rw [Option.getD_none, value_zero, abs_zero]
      positivity
  | some d =>
      rw [Option.getD_some, (mk?_eq_some hmk).2, abs_withSign,
        abs_of_nonneg (by positivity)]
      exact hbound

/-- The decimal of a double with a fraction is no larger than the double, and
two units at most. -/
theorem abs_value_ofExact_le_of_exponent {e : Double.Exact}
    (h : e.exponent < 0) :
    |(ofExact e).value| ≤ e.mantissa / 2 ^ (-e.exponent).toNat + 2 := by
  obtain ⟨j, hj, hten, hbits⟩ :=
    Trade.halve_le e.mantissa (-e.exponent).toNat e.exponent
  unfold ofExact
  simp only [if_pos h]
  generalize Trade.halve ⟨e.mantissa, e.exponent⟩ (-e.exponent).toNat =
    t at hten hbits
  have hplaces : ¬0 < t.ten := by omega
  simp only [if_neg hplaces]
  refine (abs_value_trimmed_le e.negative (Nat.min_le_right _ 28)).trans ?_
  have hscale : (-t.ten).toNat = (-e.exponent).toNat - j := by omega
  have hdropped := dropped_le (Trade.dropPlaces_le t.bits ((-t.ten).toNat - 28))
  have hpow : (1 : ℚ) ≤ 10 ^ min (-t.ten).toNat 28 := one_le_pow₀ (by norm_num)
  have hsplit : (10 : ℚ) ^ (-t.ten).toNat =
      10 ^ ((-t.ten).toNat - 28) * 10 ^ min (-t.ten).toNat 28 := by
    rw [← pow_add]
    congr 1
    omega
  have hfirst : (Trade.dropPlaces t.bits ((-t.ten).toNat - 28) : ℚ) /
      10 ^ min (-t.ten).toNat 28 ≤ t.bits / 10 ^ (-t.ten).toNat + 1 := by
    rw [hsplit, ← div_div, div_le_iff₀ (by positivity), add_mul, one_mul,
      div_mul_cancel₀ _ (by positivity)]
    linarith
  have hsecond : (t.bits : ℚ) / 10 ^ (-t.ten).toNat ≤
      e.mantissa / 2 ^ (-e.exponent).toNat := by
    have hcast : (t.bits : ℚ) * 10 ^ j ≤
        e.mantissa * 5 ^ (-e.exponent).toNat := by
      exact_mod_cast hbits
    have htens : (10 : ℚ) ^ (-t.ten).toNat * 10 ^ j =
        2 ^ (-e.exponent).toNat * 5 ^ (-e.exponent).toNat := by
      rw [hscale, ← pow_add, Nat.sub_add_cancel hj, ← mul_pow]
      norm_num
    rw [div_le_div_iff₀ (by positivity) (by positivity)]
    have hpos : (0 : ℚ) < 10 ^ j := by positivity
    apply le_of_mul_le_mul_right _ hpos
    calc (t.bits : ℚ) * 2 ^ (-e.exponent).toNat * 10 ^ j
        = t.bits * 10 ^ j * 2 ^ (-e.exponent).toNat := by ring
      _ ≤ e.mantissa * 5 ^ (-e.exponent).toNat * 2 ^ (-e.exponent).toNat :=
          mul_le_mul_of_nonneg_right hcast (by positivity)
      _ = e.mantissa * (10 ^ (-t.ten).toNat * 10 ^ j) := by rw [htens]; ring
      _ = e.mantissa * 10 ^ (-t.ten).toNat * 10 ^ j := by ring
  linarith

/-- The decimal of a whole double below the bound of mantissas is that whole
number. -/
theorem abs_value_ofExact_of_whole {e : Double.Exact} (h : 0 ≤ e.exponent)
    (hroom : e.mantissa * twoPow e.exponent.toNat < mantissaLimit) :
    |(ofExact e).value| = (e.mantissa * twoPow e.exponent.toNat : Nat) := by
  have hten : e.exponent - (e.exponent.toNat : Int) = 0 := by omega
  unfold ofExact
  simp only [if_neg (not_lt.2 h)]
  rw [Trade.double_of_room hroom]
  simp only [hten, lt_irrefl, if_false, neg_zero, Int.toNat_zero, Nat.zero_sub,
    Trade.dropPlaces, Nat.zero_min, Trade.dropExcess, stripZeros]
  unfold mk?
  rw [dif_pos ⟨hroom, Nat.zero_le 28⟩, Option.getD_some, abs_value,
    pow_zero, div_one]

/-- A whole double below the bound of mantissas is far below it, as it has
fifty-three bits and then zeros. -/
theorem whole_add_le {m k : Nat} (hm : m < twoPow 53)
    (h : m * twoPow k < mantissaLimit) :
    m * twoPow k + twoPow 43 ≤ mantissaLimit := by
  by_cases hk : k ≤ 43
  · have hpow : twoPow k ≤ twoPow 43 := Nat.pow_le_pow_right (by decide) hk
    have hmul : (m + 1) * twoPow k ≤ twoPow 53 * twoPow 43 :=
      Nat.mul_le_mul hm hpow
    have hfull : (m + 1) * twoPow 43 ≤ twoPow 53 * twoPow 43 :=
      Nat.mul_le_mul_right _ hm
    have hle : m * twoPow k ≤ m * twoPow 43 := Nat.mul_le_mul_left _ hpow
    have hlimit : twoPow 53 * twoPow 43 = mantissaLimit := by decide
    rw [Nat.add_mul, Nat.one_mul] at hfull
    omega
  · obtain ⟨j, rfl⟩ := Nat.exists_eq_add_of_le (Nat.le_of_lt (not_le.1 hk))
    have hsplit : twoPow (43 + j) = twoPow 43 * twoPow j := Nat.pow_add 2 43 j
    have hlimit : mantissaLimit = twoPow 43 * twoPow 53 := by decide
    rw [hsplit, Nat.mul_left_comm, hlimit] at h ⊢
    have hlt : m * twoPow j < twoPow 53 := Nat.lt_of_mul_lt_mul_left h
    calc twoPow 43 * (m * twoPow j) + twoPow 43 =
           twoPow 43 * (m * twoPow j + 1) := by ring
      _ ≤ twoPow 43 * twoPow 53 := Nat.mul_le_mul_left _ hlt

/-- The decimal of a number is zero, or is computed from its exact value, which
has a fraction or is a whole number below the bound of mantissas. -/
theorem ofDouble_cases {x : Float} {e : Double.Exact}
    (hx : Double.value? x = some e) :
    ofDouble x = zero ∨ ofDouble x = ofExact e ∧
      (e.exponent < 0 ∨ 0 ≤ e.exponent ∧
        e.mantissa * twoPow e.exponent.toNat < mantissaLimit) := by
  unfold ofDouble
  rw [hx]
  dsimp only
  split
  · exact .inl rfl
  · rename_i hguard
    refine .inr ⟨rfl, ?_⟩
    by_cases hexponent : e.exponent < 0
    · exact .inl hexponent
    · have hwhole : 0 ≤ e.exponent := not_lt.1 hexponent
      have hratio : e.ratio.1 / e.ratio.2 =
          e.mantissa * twoPow e.exponent.toNat := by
        rw [Double.Exact.ratio, if_pos hwhole, Nat.div_one]
      rw [hratio] at hguard
      simp only [Bool.or_eq_true, decide_eq_true_eq, not_or, not_le] at hguard
      exact .inr ⟨hwhole, hguard.2⟩

/-- The decimal of a double with a fraction is small. -/
theorem abs_value_ofDouble_le_of_exponent {x : Float} {e : Double.Exact}
    (hx : Double.value? x = some e) (h : e.exponent < 0) :
    |(ofDouble x).value| ≤ 2 ^ 52 + 2 := by
  rcases ofDouble_cases hx with hzero | ⟨hexact, -⟩
  · rw [hzero, value_zero, abs_zero]
    positivity
  · have hmantissa : (e.mantissa : ℚ) ≤ 2 ^ 53 := by
      exact_mod_cast (Double.mantissa_lt_of_value? hx).le
    have hhalf : (2 : ℚ) ≤ 2 ^ (-e.exponent).toNat := by
      calc (2 : ℚ) = 2 ^ 1 := by norm_num
        _ ≤ 2 ^ (-e.exponent).toNat :=
          pow_le_pow_right₀ (by norm_num) (by omega)
    have hquot : (e.mantissa : ℚ) / 2 ^ (-e.exponent).toNat ≤ 2 ^ 52 := by
      rw [div_le_iff₀ (by positivity)]
      linarith
    rw [hexact]
    linarith [abs_value_ofExact_le_of_exponent h]

/-- The decimal of any double is far below the bound of mantissas. -/
theorem abs_value_ofDouble_le (x : Float) :
    |(ofDouble x).value| ≤ mantissaLimit - 2 ^ 43 := by
  have hlimit := mantissaLimit_eq
  have hnothing : |zero.value| ≤ (mantissaLimit : ℚ) - 2 ^ 43 := by
    rw [value_zero, abs_zero, hlimit]
    norm_num
  cases hx : Double.value? x with
  | none =>
      unfold ofDouble
      rw [hx]
      exact hnothing
  | some e =>
      rcases ofDouble_cases hx with
        hzero | ⟨hexact, hexponent | ⟨hwhole, hroom⟩⟩
      · rwa [hzero]
      · refine (abs_value_ofDouble_le_of_exponent hx hexponent).trans ?_
        rw [hlimit]
        norm_num
      · have hfar := whole_add_le (Double.mantissa_lt_of_value? hx) hroom
        rw [hexact, abs_value_ofExact_of_whole hwhole hroom, le_sub_iff_add_le]
        exact_mod_cast hfar

end Decimal

end Ridehail
