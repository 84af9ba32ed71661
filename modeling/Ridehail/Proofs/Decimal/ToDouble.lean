import Mathlib.Algebra.Order.Field.Rat
import Mathlib.Tactic.Linarith
import Mathlib.Tactic.NormNum
import Ridehail.Proofs.Decimal.ShortestText
import Ridehail.Proofs.Decimal.Value
import Ridehail.Proofs.Double.Magnitude

/-!
# How large the double of a decimal is

A decimal is written to JSON as a double.  With places, a decimal is worth a
tenth of the bound of mantissas at most, and its double is far from that bound,
although six operations that round have been applied.  Without places it may be
anything below the bound, and then its double may be the bound itself.

## Main results

* `Decimal.atMost_toDouble` — the double of a decimal that is not too close to
  the bound.
* `Decimal.toDouble_of_le` — the double of one that is.
-/

namespace Ridehail.Decimal

open Double (AtMost firstBit? wholeLimit twoPow96)

/-- The first bit of a power of ten. -/
def unitBit (s : Nat) : Nat := (tenPow s).log2

theorem firstBit?_unit {s : Nat} (h : s ≤ 28) :
    firstBit? (doubleOfNat (tenPow s)) = some (unitBit s) := by
  have hall : ∀ k : Fin 29, firstBit? (doubleOfNat (tenPow k)) =
      some (unitBit k) := by
    decide +kernel
  exact hall ⟨s, by omega⟩

theorem unitBit_bounds {s : Nat} (hs : 1 ≤ s) (h : s ≤ 28) :
    3 ≤ unitBit s ∧ unitBit s ≤ 93 ∧ 2 ^ unitBit s ≤ tenPow s ∧
      tenPow s < 2 ^ (unitBit s + 1) := by
  have hall : ∀ k : Fin 28, 3 ≤ unitBit (k + 1) ∧ unitBit (k + 1) ≤ 93 := by
    decide +kernel
  obtain ⟨hlow, hhigh⟩ := hall ⟨s - 1, by omega⟩
  rw [show s - 1 + 1 = s by omega] at hlow hhigh
  exact ⟨hlow, hhigh, Nat.log2_self_le (Nat.ne_of_gt (tenPow_pos s)),
    Nat.lt_log2_self⟩

/-- The double of a decimal with places. -/
theorem atMost_magnitudeToDouble {d : Decimal} (hs : 1 ≤ d.scale) :
    AtMost (2 ^ (95 : Int)) d.magnitudeToDouble := by
  obtain ⟨hlow, hhigh, hle, hlt⟩ := unitBit_bounds hs d.scale_le
  have hunit := firstBit?_unit d.scale_le
  have hpos := tenPow_pos d.scale
  unfold magnitudeToDouble
  dsimp only
  generalize hbit : unitBit d.scale = a at hlow hhigh hle hlt hunit
  have hwhole : AtMost (2 ^ (96 - a : Int))
      (doubleOfNat (d.mantissa / tenPow d.scale)) := by
    have hquot : d.mantissa / tenPow d.scale ≤ 2 ^ (96 - a) := by
      refine Nat.div_le_of_le_mul ?_
      have hm : d.mantissa < 2 ^ 96 := d.mantissa_lt
      calc d.mantissa ≤ 2 ^ a * 2 ^ (96 - a) := by
            rw [← Nat.pow_add, show a + (96 - a) = 96 by omega]
            exact hm.le
        _ ≤ tenPow d.scale * 2 ^ (96 - a) := Nat.mul_le_mul_right _ hle
    have hdouble := Double.atMost_doubleOfNat hquot (by omega)
    rwa [Nat.cast_sub (by omega)] at hdouble
  split
  · exact hwhole.mono (Double.two_zpow_le (by omega))
  · have hbounded {n : Nat} (h : n ≤ tenPow d.scale) :
        AtMost (2 ^ ((a : Int) + 1)) (doubleOfNat n) := by
      have hdouble := Double.atMost_doubleOfNat (h.trans hlt.le) (by omega)
      rwa [Nat.cast_succ] at hdouble
    have hrest := hbounded (Nat.mod_lt d.mantissa hpos).le
    have hunitMost := hbounded le_rfl
    have hfraction := (hrest.div hunit (by omega) (by omega)).mono
      (Double.two_zpow_le (show (a : Int) + 1 - a ≤ 96 - a by omega))
    have hscaled :=
      (hwhole.add hfraction (by omega) (by omega)).mul hunitMost
        (by omega) (by omega)
    rw [show (96 - a + 1 + (a + 1) : Int) = 98 by omega] at hscaled
    have hrounded := Double.atMost_roundHalfAway hscaled (by omega) (by omega)
    exact (hrounded.div hunit (by omega) (by omega)).mono
      (Double.two_zpow_le (by omega))

/-- The double of a decimal that stays away from the bound of mantissas does,
too. -/
theorem atMost_toDouble {d : Decimal} (h : |d.value| < wholeLimit) :
    AtMost (2 ^ 96 - 2 ^ 43) d.toDouble := by
  have hmagnitude : AtMost (2 ^ 96 - 2 ^ 43) d.magnitudeToDouble := by
    by_cases hs : d.scale = 0
    · rw [abs_value, hs, pow_zero, div_one] at h
      rw [magnitudeToDouble, if_pos (.inl hs), hs, tenPow_zero, Nat.div_one]
      exact Double.atMost_doubleOfNat_of_lt (by exact_mod_cast h)
    · exact (atMost_magnitudeToDouble (Nat.pos_of_ne_zero hs)).mono
        (by norm_num)
  unfold toDouble
  split
  · exact hmagnitude.neg (by norm_num)
  · exact hmagnitude

/-- A decimal that comes too close to the bound of mantissas becomes the
bound. -/
theorem toDouble_of_le {d : Decimal} (h : wholeLimit ≤ |d.value|) :
    d.toDouble = twoPow96 ∨ d.toDouble = -twoPow96 := by
  have hm : (d.mantissa : ℚ) < 2 ^ 96 := by exact_mod_cast d.mantissa_lt
  have hs : d.scale = 0 := by
    by_contra hne
    have hten : (10 : ℚ) ≤ 10 ^ d.scale := le_self_pow₀ (by norm_num) hne
    rw [abs_value, le_div_iff₀ (by positivity)] at h
    have hmul : (wholeLimit : ℚ) * 10 ≤ wholeLimit * 10 ^ d.scale :=
      mul_le_mul_of_nonneg_left hten (by positivity)
    norm_num [wholeLimit] at h hmul
    linarith
  rw [abs_value, hs, pow_zero, div_one] at h
  have hmagnitude : d.magnitudeToDouble = twoPow96 := by
    rw [magnitudeToDouble, if_pos (.inl hs), hs, tenPow_zero, Nat.div_one]
    exact Double.doubleOfNat_eq_twoPow96 (by exact_mod_cast h) d.mantissa_lt
  unfold toDouble
  rw [hmagnitude]
  split
  · exact .inr rfl
  · exact .inl rfl

/-! ## As JSON -/

theorem ofFloat_of_atMost {b : ℚ} {x : Float} (h : AtMost b x) :
    Json.ofFloat x = .float x := by
  have hfinite : x.isFinite = true := by
    show x.toModel.unpack.isFinite = true
    rcases h.zero_or_finite with ⟨s, hx⟩ | ⟨s, m, e, hm, hx, -⟩ <;>
      rw [hx] <;> rfl
  rw [Json.ofFloat, if_pos hfinite]

/-- A decimal that stays away from the bound of mantissas is read from the JSON
that it is written as. -/
theorem exists_decoder_toJson {d : Decimal} (h : |d.value| < wholeLimit) :
    ∃ d', decoder (Document.ofJson d.toJson) = .ok d' := by
  obtain ⟨d', hread⟩ := exists_read_shortestText (atMost_toDouble h)
  refine ⟨d', ?_⟩
  rw [toJson, ofFloat_of_atMost (atMost_toDouble h)]
  show ofText (Double.shortestText d.toDouble) = .ok d'
  rw [ofText, hread]

/-- A decimal that comes too close to the bound is not, nor is it taken for a
missing one. -/
theorem nullable_toJson_of_le {d : Decimal} (h : wholeLimit ≤ |d.value|) :
    Decoder.nullable decoder (Document.ofJson d.toJson) = .error .shape := by
  rw [toJson]
  rcases toDouble_of_le h with h | h <;> rw [h]
  · decide +kernel
  · decide +kernel

end Ridehail.Decimal
