import Mathlib.Algebra.Order.Field.Rat
import Mathlib.Algebra.Order.Field.Power
import Mathlib.Data.Nat.Cast.Order.Field
import Mathlib.Tactic.Linarith
import Mathlib.Tactic.NormNum
import Mathlib.Tactic.Ring
import Ridehail.Decimal.Double
import Ridehail.Proofs.Decimal.OfDouble
import Ridehail.Proofs.Decimal.RoundTrip
import Ridehail.Proofs.Double.Magnitude

/-!
# Reading the double of a decimal

A decimal that was written to JSON as a double is read from the shortest text of
that double.  Any number of digits may stand behind the point of such a text,
and those that do not fit are rounded off; only what stands before the point can
be too large.  It is what the double is worth, and half a step more at most, so
a double that stays away from the bound of mantissas is read.

## Main results

* `Decimal.exists_readDigits_pointed` — digits are read if there is room for
  what stands before the point.
* `Double.shortest_le` — the shortest decimal is no further from a double than
  half a step.
* `Decimal.exists_read_shortestText` — a double that stays away from the bound
  is read.
-/

namespace Ridehail

theorem mul_tenPow_le_digitsAfter (n : Nat) (cs : List Char) :
    n * tenPow cs.length ≤ digitsAfter n cs := by
  induction cs generalizing n with
  | nil => exact Nat.le_of_eq (Nat.mul_one n)
  | cons c cs ih =>
      calc n * tenPow (cs.length + 1) = 10 * n * tenPow cs.length := by
            rw [tenPow_succ]
            ring
        _ ≤ (10 * n + digitValue c) * tenPow cs.length :=
            Nat.mul_le_mul_right _ (Nat.le_add_right _ _)
        _ ≤ digitsAfter n (c :: cs) := ih (10 * n + digitValue c)

namespace Decimal

/-! ## Digits that do not fit -/

theorem exists_mk? {mantissa scale : Nat} (negative : Bool)
    (hm : mantissa < mantissaLimit) (hs : scale ≤ 28) :
    ∃ d, mk? negative mantissa scale = some d :=
  ⟨_, dif_pos ⟨hm, hs⟩⟩

theorem checkDropped_digits {cs : List Char} (h : ∀ c ∈ cs, isDigit c = true) :
    checkDropped cs = .ok () := by
  induction cs with
  | nil => rfl
  | cons c cs ih =>
      have hc : isDigit c = true := h c List.mem_cons_self
      rw [checkDropped, hc, Bool.true_or, if_pos rfl]
      exact ih fun c hc => h c (List.mem_cons_of_mem _ hc)

/-- Digits that do not fit are rounded off, if that leaves room or a place can
be given up. -/
theorem exists_finishDropped (negative : Bool) {p : Progress} {cs : List Char}
    (hdigits : ∀ c ∈ cs, isDigit c = true) (hm : p.mantissa < mantissaLimit)
    (hplaces : p.places ≤ 28)
    (hwhole : p.places = 0 → p.mantissa + 1 < mantissaLimit) :
    ∃ d, finishDropped negative p cs = .ok d := by
  unfold finishDropped
  rw [checkDropped_digits hdigits]
  show ∃ d, (if !roundsUp p cs then _ else _) = Except.ok d
  split
  · obtain ⟨d, hd⟩ := exists_mk? negative hm hplaces
    rw [hd]
    exact ⟨d, rfl⟩
  · by_cases hroom : p.mantissa + 1 < mantissaLimit
    · obtain ⟨d, hd⟩ := exists_mk? negative hroom hplaces
      rw [hd]
      exact ⟨d, rfl⟩
    · have hfull : mk? negative (p.mantissa + 1) p.places = none :=
        dif_neg fun h => hroom h.1
      have hshort : (p.mantissa + 5) / 10 < mantissaLimit := by
        unfold mantissaLimit at hm ⊢
        omega
      obtain ⟨d, hd⟩ := exists_mk? negative hshort
        ((Nat.sub_le p.places 1).trans hplaces)
      rw [hfull]
      dsimp only
      rw [if_neg (mt hwhole hroom), hd]
      exact ⟨d, rfl⟩

/-- Any digits may stand behind the point. -/
theorem exists_readDigits_fraction (negative : Bool) {p : Progress}
    {cs : List Char} (hdigits : ∀ c ∈ cs, isDigit c = true)
    (hdigit : p.digitSeen = true) (hpoint : p.pointSeen = true)
    (hm : p.mantissa < mantissaLimit) (hplaces : p.places ≤ 28)
    (hwhole : p.places = 0 → p.mantissa + 1 < mantissaLimit) :
    ∃ d, readDigits negative p cs = .ok d := by
  induction cs generalizing p with
  | nil =>
      obtain ⟨d, hd⟩ := exists_mk? negative hm hplaces
      rw [readDigits, hdigit, hd]
      exact ⟨d, rfl⟩
  | cons c cs ih =>
      have hc : isDigit c = true := hdigits c List.mem_cons_self
      rw [readDigits, hdigit, hpoint, hc]
      split
      · exact exists_finishDropped negative hdigits hm hplaces hwhole
      · rename_i hmore
        have hnext : p.places + 1 ≤ 28 := by
          simp at hmore
          omega
        dsimp only
        rw [if_pos rfl]
        split
        · rename_i hfits
          exact ih (fun c hc => hdigits c (List.mem_cons_of_mem _ hc)) rfl
            rfl hfits hnext fun h => absurd h (Nat.succ_ne_zero _)
        · rw [if_pos rfl]
          exact exists_finishDropped negative hdigits hm hplaces hwhole

/-- Written digits are read if there is room for what stands before the
point. -/
theorem exists_readDigits_pointed (negative : Bool) {places n : Nat}
    (h : n / tenPow places + 1 < mantissaLimit) :
    ∃ d, readDigits negative .start (pointedDigits places n) = .ok d := by
  obtain ⟨whole, behind, hparts, hne, hbehind, hdigits, hvalue⟩ :=
    pointedDigits_parts places n
  have hroom : digitsAfter 0 whole + 1 < mantissaLimit := by
    have hle := mul_tenPow_le_digitsAfter (digitsAfter 0 whole) behind
    rw [hvalue, hbehind] at hle
    have hquot : digitsAfter 0 whole ≤ n / tenPow places :=
      (Nat.le_div_iff_mul_le (tenPow_pos places)).2 hle
    omega
  have hwhole (rest : List Char) := readDigits_whole negative rest hne
    (fun c hc => hdigits c (List.mem_append_left behind hc))
    (Nat.lt_of_succ_lt hroom)
  rw [hparts]
  split
  · obtain ⟨d, hd⟩ :=
      exists_mk? negative (Nat.lt_of_succ_lt hroom) (Nat.zero_le 28)
    have hrun := hwhole []
    rw [List.append_nil] at hrun
    refine ⟨d, ?_⟩
    rw [hrun, readDigits, hd]
    rfl
  · rw [hwhole, readDigits_point]
    exact exists_readDigits_fraction negative
      (fun c hc => hdigits c (List.mem_append_right whole hc)) rfl rfl
      (Nat.lt_of_succ_lt hroom) (Nat.zero_le 28) fun _ => hroom

end Decimal

/-! ## The shortest decimal of a double -/

namespace Double

/-- The number that a scientific decimal stands for. -/
def Scientific.value (s : Scientific) : ℚ := s.digits * 10 ^ s.exponent

/-- The part of a power with a negative exponent, moved to the other side. -/
theorem zpow_mul_pow_neg {b : ℚ} (hb : b ≠ 0) (z : Int) :
    b ^ z * b ^ (-z).toNat = b ^ z.toNat := by
  rw [← zpow_natCast, ← zpow_natCast, ← zpow_add₀ hb]
  congr 1
  omega

theorem le_highEnd_of_reads {e : Exact} {unit step candidate : Nat}
    (h : e.reads unit step candidate = true) :
    candidate * unit ≤ e.highEnd * step := by
  unfold Exact.reads at h
  split at h <;> simp only [Bool.and_eq_true, decide_eq_true_eq] at h
  · exact h.2
  · exact h.2.le

/-- A decimal on the grid that reads as the double is half a step above it at
most. -/
theorem onGrid?_le {e : Exact} {place : Int} {s : Scientific}
    (h : e.onGrid? place = some s) :
    s.value ≤ (4 * e.mantissa + 2) * 2 ^ (e.exponent - 2) := by
  let unit := tenPow place.toNat * twoPow (-(e.exponent - 2)).toNat
  let step := twoPow (e.exponent - 2).toNat * tenPow (-place).toNat
  obtain ⟨candidate, rfl, hreads⟩ : ∃ candidate : Nat, s = ⟨candidate, place⟩ ∧
      e.reads unit step candidate = true := by
    unfold Exact.onGrid? at h
    dsimp only at h
    split at h
    · cases h
    · rename_i hbelow _
      exact ⟨_, (Option.some.inj h).symm, hbelow⟩
    · rename_i _ habove
      exact ⟨_, (Option.some.inj h).symm, habove⟩
    · rename_i hbelow habove
      split at h
      · exact ⟨_, (Option.some.inj h).symm, hbelow⟩
      · exact ⟨_, (Option.some.inj h).symm, habove⟩
  have hle : ((candidate * unit : Nat) : ℚ) ≤ (e.highEnd * step : Nat) := by
    exact_mod_cast le_highEnd_of_reads hreads
  have htens := zpow_mul_pow_neg (b := 10) (by norm_num) place
  have htwos := zpow_mul_pow_neg (b := 2) (by norm_num) (e.exponent - 2)
  have hpos : (0 : ℚ) < 10 ^ (-place).toNat *
      2 ^ (-(e.exponent - 2)).toNat := by positivity
  apply le_of_mul_le_mul_right _ hpos
  simp only [unit, step, Exact.highEnd, Nat.cast_mul, cast_tenPow,
    cast_twoPow, ← htens, ← htwos] at hle
  push_cast at hle
  rw [Scientific.value]
  linarith

theorem value_trim (s : Scientific) : s.trim.value = s.value := by
  unfold Scientific.trim
  split
  · rename_i hzero
    have hten : (s.digits : ℚ) = (s.digits / 10 : Nat) * 10 := by
      exact_mod_cast (Nat.div_mul_cancel (Nat.dvd_of_mod_eq_zero hzero)).symm
    rw [Scientific.value, Scientific.value, hten, zpow_add_one₀ (by norm_num)]
    ring
  · rfl

/-- The shortest decimal of a double is half a step above it at most. -/
theorem shortest_le (e : Exact) :
    e.shortest.value ≤ (4 * e.mantissa + 2) * 2 ^ (e.exponent - 2) := by
  unfold Exact.shortest
  dsimp only
  rw [value_trim]
  cases hfound : (List.range 17).findSome? fun (more : Nat) =>
      e.onGrid? (leadingPlace e.ratio.1 e.ratio.2 - more) with
  | none =>
      rw [Option.getD_none, Scientific.value, Nat.cast_zero, zero_mul]
      exact mul_nonneg (by positivity) (two_zpow_pos _).le
  | some s =>
      obtain ⟨more, -, hgrid⟩ := List.exists_of_findSome?_eq_some hfound
      exact onGrid?_le hgrid

theorem pointedDigits_zero (n : Nat) : pointedDigits 0 n = decimalDigits n := by
  have hpos : 0 < (decimalDigits n).length := by
    unfold decimalDigits
    split <;> simp
  rw [pointedDigits, if_pos rfl, paddedDigits]
  simp [show 0 + 1 - (decimalDigits n).length = 0 by omega]

/-- The digits of a scientific decimal are those of the number that it stands
for. -/
theorem positional_eq (s : Scientific) :
    ∃ places n, s.positional = pointedDigits places n ∧
      (n : ℚ) / 10 ^ places = s.value := by
  unfold Scientific.positional
  split
  · rename_i hwhole
    refine ⟨0, s.digits * tenPow s.exponent.toNat,
      (pointedDigits_zero _).symm, ?_⟩
    have hpow := zpow_mul_pow_neg (b := 10) (by norm_num) s.exponent
    rw [show (-s.exponent).toNat = 0 by omega, pow_zero, mul_one] at hpow
    rw [pow_zero, div_one, Nat.cast_mul, cast_tenPow, ← hpow]
    rfl
  · rename_i hfraction
    refine ⟨_, _, rfl, ?_⟩
    have hpow := zpow_mul_pow_neg (b := 10) (by norm_num) s.exponent
    rw [show s.exponent.toNat = 0 by omega, pow_zero] at hpow
    rw [div_eq_iff (by positivity), Scientific.value, mul_assoc, hpow, mul_one]

/-- A double that is not among the smallest has a full mantissa. -/
theorem le_mantissa_of_value? {x : Float} {v : Exact} (h : value? x = some v)
    (hexponent : v.exponent ≠ -1074) : 2 ^ 52 ≤ v.mantissa := by
  unfold value? at h
  split at h
  · cases h
  · split at h
    · cases h
      exact absurd rfl hexponent
    · cases h
      exact Nat.le_add_right _ _

end Double

namespace Decimal

open Double (AtMost)

/-- A double that stays away from the bound of mantissas is read. -/
theorem exists_read_shortestText {x : Float} (h : AtMost (2 ^ 96 - 2 ^ 43) x) :
    ∃ d, read (Double.shortestText x) = .ok d := by
  obtain ⟨v, hv, -, hvalue⟩ := Double.atMost_iff.1 h
  have hpos := Double.two_zpow_pos v.exponent
  -- A step of the double is far from filling the room that is left.
  have hstep : (2 : ℚ) ^ v.exponent ≤ 2 ^ (43 : Int) := by
    by_cases hsmall : v.exponent = -1074
    · exact Double.two_zpow_le (by omega)
    · have hfull : (2 ^ 52 : ℚ) ≤ v.mantissa := by
        exact_mod_cast Double.le_mantissa_of_value? hv hsmall
      have hscaled : (2 ^ 52 : ℚ) * 2 ^ v.exponent <
          2 ^ 52 * 2 ^ (44 : Int) := by
        refine lt_of_le_of_lt (mul_le_mul_of_nonneg_right hfull hpos.le)
          (lt_of_le_of_lt hvalue ?_)
        norm_num
      have hlt := lt_of_mul_lt_mul_left hscaled (by norm_num)
      have hexponent := (zpow_lt_zpow_iff_right₀ (by norm_num)).1 hlt
      exact Double.two_zpow_le (by omega)
  obtain ⟨places, n, hdigits, hn⟩ : ∃ places n,
      (if v.mantissa = 0 then ['0'] else v.shortest.positional) =
        pointedDigits places n ∧
        n / tenPow places + 1 < mantissaLimit := by
    split
    · refine ⟨0, 0, ?_, by decide⟩
      rw [Double.pointedDigits_zero, decimalDigits]
      rfl
    · obtain ⟨places, n, hdigits, hn⟩ := Double.positional_eq v.shortest
      refine ⟨places, n, hdigits, ?_⟩
      have hle := Double.shortest_le v
      have hquarter : (2 : ℚ) ^ (v.exponent - 2) * 4 = 2 ^ v.exponent := by
        rw [zpow_sub₀ (by norm_num)]
        norm_num
      have hend : (4 * (v.mantissa : ℚ) + 2) * 2 ^ (v.exponent - 2) =
          v.mantissa * 2 ^ v.exponent + 2 ^ v.exponent / 2 := by
        rw [← hquarter]
        ring
      have hquot : ((n / tenPow places : Nat) : ℚ) ≤ n / 10 ^ places := by
        rw [← cast_tenPow]
        exact Nat.cast_div_le
      have hroom : ((n / tenPow places : Nat) : ℚ) + 1 < 2 ^ 96 := by
        norm_num at hstep hvalue ⊢
        linarith
      exact_mod_cast hroom
  unfold Double.shortestText
  rw [hv]
  dsimp only
  rw [hdigits, read, String.toList_ofList, readChars]
  obtain ⟨d, hd⟩ := exists_readDigits_pointed v.negative hn
  have hplain : readPlain (if v.negative then '-' :: pointedDigits places n
      else pointedDigits places n) = .ok d := by
    cases hnegative : v.negative with
    | true =>
        rw [hnegative] at hd
        exact hd
    | false =>
        rw [hnegative] at hd
        obtain ⟨c, cs, hcs, hc⟩ := pointedDigits_eq_cons places n
        rw [if_neg Bool.false_ne_true, hcs, readPlain_of_isDigit hc, ← hcs]
        exact hd
  rw [hplain]
  exact ⟨d, rfl⟩

end Decimal

end Ridehail
