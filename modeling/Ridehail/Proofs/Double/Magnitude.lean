import Mathlib.Algebra.Order.Field.Rat
import Mathlib.Algebra.Order.Field.Power
import Mathlib.Tactic.Linarith
import Mathlib.Tactic.NormNum
import Mathlib.Tactic.Ring
import Ridehail.Decimal.Double
import Ridehail.Proofs.Double.Product

/-!
# How large the result of an operation on doubles is

`UpTo` follows the power of two of a double through a product, and loses a bit
or two with every operation.  Where a result has to stay below a bound that its
operands nearly reach, that is too much.  Here the magnitude itself is followed.
Rounding to nearest never passes a power of two that is on the grid, so a bound
that is a power of two holds of the rounded result as it holds of the exact one,
and nothing is lost.

`AtMost b x` also says that `x` is a number, so it excludes that an operation
overflows.

## Main results

* `Double.bounded_roundWithAccuracy` — rounding keeps a bound.
* `Double.AtMost.add`, `AtMost.mul`, `AtMost.div`, `atMost_roundHalfAway` — so
  do the operations.
* `Double.AtMost.exists_value?` — the bound on the value that is read off a
  double.
-/

namespace Ridehail.Double

open Float.Model (Format UnpackedFloat totalExponent)
open Float.Model.UnpackedFloat

/-- The parts of a number on the grid of the doubles, of magnitude `b` at
most. -/
def Bounded (b : ℚ) : UnpackedFloat → Prop
  | .zero _ => 0 ≤ b
  | .finite _ m e _ => -1074 ≤ e ∧ (m : ℚ) * 2 ^ e ≤ b
  | _ => False

/-- The double is a number, of magnitude `b` at most. -/
def AtMost (b : ℚ) (x : Float) : Prop := Bounded b x.toModel.unpack

theorem Bounded.mono {b c : ℚ} {u : UnpackedFloat} (h : Bounded b u)
    (hle : b ≤ c) :
    Bounded c u := by
  cases u with
  | zero s => exact le_trans h hle
  | finite s m e hm => exact ⟨h.1, h.2.trans hle⟩
  | _ => exact h

theorem AtMost.mono {b c : ℚ} {x : Float} (h : AtMost b x) (hle : b ≤ c) :
    AtMost c x :=
  Bounded.mono h hle

theorem two_zpow_pos (e : Int) : (0 : ℚ) < 2 ^ e := zpow_pos (by norm_num) e

theorem two_zpow_le {p q : Int} (h : p ≤ q) : (2 : ℚ) ^ p ≤ 2 ^ q :=
  zpow_le_zpow_right₀ (by norm_num) h

/-! ## Rounding -/

/-- Shifting out zeros leaves no residual bits. -/
theorem shiftRight_mul_two_pow (n k : Nat) :
    ExtendedMantissa.mk (n * 2 ^ k) false false >>> k = ⟨n, false, false⟩ := by
  induction k generalizing n with
  | zero =>
      show ExtendedMantissa.mk (n * 1) false false = _
      rw [Nat.mul_one]
  | succ k ih =>
      have hdouble : n * 2 ^ (k + 1) = 2 * n * 2 ^ k := by ring
      show ExtendedMantissa.shiftRightOne
        (ExtendedMantissa.mk (n * 2 ^ (k + 1)) false false >>> k) = _
      rw [hdouble, ih, ExtendedMantissa.shiftRightOne]
      simp

theorem mantissa_ofMantissaAndAccuracy (m : Nat) (accuracy : Accuracy) :
    (ExtendedMantissa.ofMantissaAndAccuracy m accuracy).mantissa = m := by
  rcases accuracy with _ | (_ | _ | _) <;> rfl

/-- Rounding away the last bits does not pass a number that has none of them. -/
theorem roundedMantissa_shiftRight_le {m n k : Nat} {accuracy : Accuracy}
    (h : m ≤ n * 2 ^ k) (hinexact : accuracy = .exact ∨ m < n * 2 ^ k) :
    (ExtendedMantissa.ofMantissaAndAccuracy m accuracy >>> k).roundedMantissa ≤
      n := by
  by_cases hlt : m < n * 2 ^ k
  · have hquot : m / 2 ^ k < n :=
      (Nat.div_lt_iff_lt_mul (Nat.two_pow_pos k)).2 hlt
    have hle :=
      roundedMantissa_le
        (ExtendedMantissa.ofMantissaAndAccuracy m accuracy >>> k)
    rw [mantissa_shiftRight, mantissa_ofMantissaAndAccuracy] at hle
    omega
  · have hm : m = n * 2 ^ k := Nat.le_antisymm h (not_lt.1 hlt)
    have haccuracy : accuracy = .exact := hinexact.resolve_right hlt
    rw [hm, haccuracy]
    show (ExtendedMantissa.mk (n * 2 ^ k) false false >>> k).roundedMantissa ≤ n
    rw [shiftRight_mul_two_pow]
    exact Nat.le_refl n

/-- Dropping bits makes a number no larger. -/
theorem shifted_value_le (m k : Nat) (e : Int) :
    ((m / 2 ^ k : Nat) : ℚ) * 2 ^ (e + k) ≤ m * 2 ^ e := by
  have hle : ((m / 2 ^ k : Nat) : ℚ) * 2 ^ k ≤ m := by
    exact_mod_cast Nat.div_mul_le_self m (2 ^ k)
  calc ((m / 2 ^ k : Nat) : ℚ) * 2 ^ (e + k)
      = ((m / 2 ^ k : Nat) : ℚ) * 2 ^ k * 2 ^ e := by
        rw [zpow_add₀ (by norm_num), zpow_natCast]
        ring
    _ ≤ m * 2 ^ e := mul_le_mul_of_nonneg_right hle (two_zpow_pos e).le

/-- A number of magnitude `2 ^ p` at most has its first bit there or below. -/
theorem log2_add_le {m : Nat} {e p : Int} (hm : m ≠ 0)
    (h : (m : ℚ) * 2 ^ e ≤ 2 ^ p) :
    (m.log2 : Int) + e ≤ p := by
  have hfirst : ((2 : ℚ) ^ m.log2) ≤ m := by exact_mod_cast Nat.log2_self_le hm
  have hpow : (2 : ℚ) ^ ((m.log2 : Int) + e) ≤ 2 ^ p := by
    rw [zpow_add₀ (by norm_num), zpow_natCast]
    exact (mul_le_mul_of_nonneg_right hfirst (two_zpow_pos e).le).trans h
  exact (zpow_le_zpow_iff_right₀ (by norm_num)).1 hpow

theorem Bounded.of_dite {b : ℚ} {c : Prop} [Decidable c] {u : c → UnpackedFloat}
    {v : ¬c → UnpackedFloat} (hu : ∀ hc, Bounded b (u hc))
    (hv : ∀ hc, Bounded b (v hc)) :
    Bounded b (if hc : c then u hc else v hc) := by
  split
  · exact hu _
  · exact hv _

/-- A rounded number is no larger than what it was rounded to. -/
theorem bounded_of_roundedMantissa_le {s : Sign} {m n k : Nat} {e : Int} {b : ℚ}
    {accuracy : Accuracy}
    (hk : (max (m.log2 + 1 + e - 53) (-1074) - e).toNat = k)
    (hrounded :
      (ExtendedMantissa.ofMantissaAndAccuracy m accuracy >>>
        k).roundedMantissa ≤ n)
    (hb : (n : ℚ) * 2 ^ (e + k) ≤ b) :
    Bounded b (roundWithAccuracy Format.binary64 s m e accuracy) := by
  unfold roundWithAccuracy shiftToTargetExponent shiftToExponent
  dsimp only
  rw [targetExponent_eq, totalExponent, hk]
  generalize (ExtendedMantissa.ofMantissaAndAccuracy m accuracy >>>
    k).roundedMantissa = r at hrounded
  generalize (Format.binary64.targetExponent
    (totalExponent r (e + k)) - (e + k)).toNat = j
  have hvalue : (r : ℚ) * 2 ^ (e + k) ≤ b := by
    have hcast : (r : ℚ) ≤ n := by exact_mod_cast hrounded
    exact (mul_le_mul_of_nonneg_right hcast (two_zpow_pos _).le).trans hb
  refine Bounded.of_dite (fun _ => ?_) fun _ => ?_
  · exact (mul_nonneg (Nat.cast_nonneg n) (two_zpow_pos _).le).trans hb
  · refine ⟨by omega, ?_⟩
    rw [mantissa_shiftRight, mantissa_ofMantissaAndAccuracy]
    exact (shifted_value_le r j (e + k)).trans hvalue

/-- Rounding keeps a bound that is on the grid.  What is known of a quotient
that is not exact is that the next number keeps the bound, too. -/
theorem bounded_roundWithAccuracy {s : Sign} {m : Nat} {e p : Int}
    {accuracy : Accuracy} (hp : -1074 ≤ p) (h : (m : ℚ) * 2 ^ e ≤ 2 ^ p)
    (hinexact : accuracy = .exact ∨ ((m + 1 : Nat) : ℚ) * 2 ^ e ≤ 2 ^ p) :
    Bounded (2 ^ p) (roundWithAccuracy Format.binary64 s m e accuracy) := by
  obtain ⟨k, hk⟩ : ∃ k, (max (m.log2 + 1 + e - 53) (-1074) - e).toNat = k :=
    ⟨_, rfl⟩
  -- The bound is a multiple of the unit to which is rounded, or all is below
  -- that unit.
  obtain ⟨n, hn, hm, hnext⟩ : ∃ n : Nat, (n : ℚ) * 2 ^ (e + k) ≤ 2 ^ p ∧
      m ≤ n * 2 ^ k ∧ (accuracy = .exact ∨ m < n * 2 ^ k) := by
    by_cases hunit : e + k ≤ p
    · have hsplit : ((2 ^ (p - (e + k)).toNat : Nat) : ℚ) * 2 ^ (e + k) =
          2 ^ p := by
        rw [Nat.cast_pow,
          Nat.cast_ofNat, ← zpow_natCast, ← zpow_add₀ (by norm_num)]
        congr 1
        omega
      have hle (a : Nat) (ha : (a : ℚ) * 2 ^ e ≤ 2 ^ p) :
          a ≤ 2 ^ (p - (e + k)).toNat * 2 ^ k := by
        have hcast : (a : ℚ) ≤ (2 ^ (p - (e + k)).toNat * 2 ^ k : Nat) := by
          apply le_of_mul_le_mul_right _ (two_zpow_pos e)
          rw [← hsplit, zpow_add₀ (by norm_num), zpow_natCast] at ha
          push_cast at ha ⊢
          linarith
        exact_mod_cast hcast
      exact ⟨_, hsplit.le, hle m h, hinexact.imp id (hle (m + 1))⟩
    · have hzero : m = 0 := by
        by_contra hne
        have hfirst := log2_add_le hne h
        omega
      have hexact : accuracy = .exact := by
        refine hinexact.resolve_right fun hnext => hunit ?_
        have hfirst := log2_add_le (Nat.succ_ne_zero m) hnext
        rw [hzero] at hfirst hk
        rw [show Nat.log2 (0 + 1) = 0 from rfl] at hfirst
        rw [show Nat.log2 0 = 0 from rfl] at hk
        omega
      refine ⟨0, ?_, by omega, .inl hexact⟩
      rw [Nat.cast_zero, zero_mul]
      exact (two_zpow_pos p).le
  exact bounded_of_roundedMantissa_le hk
    (roundedMantissa_shiftRight_le hm hnext) hn

/-- Writing a number with more bits does not change it. -/
theorem decreaseExponent_value (m : Nat) (e target : Int) :
    ((decreaseExponent m e target).1 : ℚ) *
      2 ^ (decreaseExponent m e target).2 = m * 2 ^ e := by
  unfold decreaseExponent
  dsimp only
  generalize (e - target).toNat = k
  rw [Nat.shiftLeft_eq, Nat.cast_mul, Nat.cast_pow, Nat.cast_ofNat, mul_assoc,
    ← zpow_natCast (2 : ℚ) k, ← zpow_add₀ (by norm_num)]
  congr 2
  omega

theorem bounded_round {s : Sign} {m : Nat} {e p : Int} (hp : -1074 ≤ p)
    (h : (m : ℚ) * 2 ^ e ≤ 2 ^ p) :
    Bounded (2 ^ p) (UnpackedFloat.round Format.binary64 s m e) := by
  unfold UnpackedFloat.round
  dsimp only
  refine bounded_roundWithAccuracy hp ?_ (.inl rfl)
  rw [decreaseExponent_value]
  exact h

theorem bounded_normalize {n : Int} {s : Sign} {e p : Int} (hp : -1074 ≤ p)
    (h : (n.natAbs : ℚ) * 2 ^ e ≤ 2 ^ p) :
    Bounded (2 ^ p) (UnpackedFloat.normalize Format.binary64 n e s) := by
  unfold UnpackedFloat.normalize
  split
  · rename_i hneg
    have hlt := Int.compare_eq_lt.1 hneg
    rw [show (-n).toNat = n.natAbs by omega]
    exact bounded_round hp h
  · exact (two_zpow_pos p).le
  · rename_i hpos
    have hlt := Int.compare_eq_gt.1 hpos
    rw [show n.toNat = n.natAbs by omega]
    exact bounded_round hp h

/-! ## Packing -/

theorem fractionBits_eq (x : Float) :
    fractionBits x =
      (@unpackMantissa Format.binary64 x.toModel.toBits.toBitVec).toNat := by
  rw [unpackMantissa, BitVec.toNat_cast, BitVec.extractLsb_toNat,
    Nat.shiftRight_zero]
  rfl

theorem toNat_one_append (f : BitVec 52) :
    (1#1 ++ f).toNat = twoPow 52 + f.toNat := by
  rw [BitVec.toNat_append, ← Nat.shiftLeft_add_eq_or_of_lt f.isLt]
  rfl

/-- What is read off the bits of a double is what it is unpacked to. -/
theorem value?_eq (x : Float) :
    value? x =
      match x.toModel.unpack with
      | .finite _ m e _ => some ⟨signBit x, m, e⟩
      | .zero _ => some ⟨signBit x, 0, -1074⟩
      | _ => none := by
  have hfull := @unpackExponent_eq_iff x (-1#11)
  have hnone := @unpackExponent_eq_iff x 0#11
  rw [show (-1#11).toNat = 2047 from rfl] at hfull
  rw [show (0#11).toNat = 0 from rfl] at hnone
  unfold value? Float.Model.unpack UnpackedFloat.unpack
  dsimp only
  rw [fractionBits_eq]
  by_cases h₁ : exponentBits x = 2047
  · rw [if_pos h₁, if_pos (hfull.2 h₁)]
    by_cases hzero : @unpackMantissa Format.binary64 x.toModel.toBits.toBitVec =
      0#52
    · rw [if_pos hzero]
    · rw [if_neg hzero]
  · rw [if_neg h₁, if_neg (mt hfull.1 h₁)]
    by_cases h₂ : exponentBits x = 0
    · rw [if_pos h₂, if_pos (hnone.2 h₂)]
      by_cases hzero :
        @unpackMantissa Format.binary64 x.toModel.toBits.toBitVec = 0#52
      · rw [dif_pos hzero, hzero]
        rfl
      · rw [dif_neg hzero, hnone.2 h₂]
        rfl
    · rw [if_neg h₂, if_neg (mt hnone.1 h₂),
        exponentBits_eq, ← toNat_one_append]
      rfl

/-- The bound, on the value that is read off the double. -/
theorem atMost_iff {b : ℚ} {x : Float} :
    AtMost b x ↔ ∃ v, value? x = some v ∧ -1074 ≤ v.exponent ∧
      (v.mantissa : ℚ) * 2 ^ v.exponent ≤ b := by
  rw [AtMost, value?_eq]
  cases x.toModel.unpack with
  | finite s m e hm =>
      constructor
      · exact fun h => ⟨_, rfl, h⟩
      · rintro ⟨v, hv, h⟩
        cases hv
        exact h
  | zero s =>
      constructor
      · intro (h : 0 ≤ b)
        exact ⟨_, rfl, le_refl _, by rwa [Nat.cast_zero, zero_mul]⟩
      · rintro ⟨v, hv, -, h⟩
        cases hv
        rwa [Nat.cast_zero, zero_mul] at h
  | _ =>
      constructor
      · exact fun h => h.elim
      · rintro ⟨v, hv, -⟩
        cases hv

/-- Packing keeps a bound that is far below the largest double. -/
theorem Bounded.pack {b : ℚ} {u : UnpackedFloat} (h : Bounded b u)
    (hb : b ≤ 2 ^ (200 : Int)) :
    AtMost b (.ofModel (.pack u)) := by
  have hexponent : exponentBits (.ofModel (.pack u)) =
      (unpackExponent (UnpackedFloat.pack Format.binary64 u)).toNat :=
        exponentBits_eq _
  have hfraction : fractionBits (.ofModel (.pack u)) =
      (unpackMantissa (UnpackedFloat.pack Format.binary64 u)).toNat :=
        fractionBits_eq _
  rw [atMost_iff]
  generalize (Float.ofModel (.pack u)) = x at hexponent hfraction ⊢
  cases u with
  | notANumber => exact absurd h id
  | infinity s => exact absurd h id
  | zero s =>
      rw [show UnpackedFloat.pack Format.binary64 (.zero s) =
        packComponents Format.binary64 s 0#11 0#52 from rfl]
        at hexponent hfraction
      rw [unpackExponent_packComponents] at hexponent
      rw [unpackMantissa_packComponents] at hfraction
      refine ⟨⟨signBit x, 0, -1074⟩, ?_, le_rfl, ?_⟩
      · rw [value?, hexponent, hfraction]
        rfl
      · rw [Nat.cast_zero, zero_mul]
        exact h
  | finite s m e hm =>
      obtain ⟨hgrid, hvalue⟩ := h
      have hfirst := log2_add_le (Nat.ne_of_gt hm) (hvalue.trans hb)
      have hbias : e + (Format.binary64.exponentBias : Int) + (52 : Nat) =
          e + 1075 := by
        rw [show Format.binary64.exponentBias = 1023 from rfl]
        omega
      delta UnpackedFloat.pack at hexponent hfraction
      dsimp only at hexponent hfraction
      rw [hbias] at hexponent hfraction
      have hroom : ¬2 ^ Format.binary64.exponentBits ≤
          (e + 1075).toNat + 1 := by
        rw [show 2 ^ Format.binary64.exponentBits = 2048 from rfl]
        omega
      rw [if_neg hroom] at hexponent hfraction
      by_cases hnormal : m.log2 + 1 = Format.binary64.mantissaBits
      · rw [if_pos hnormal, unpackExponent_packComponents,
          BitVec.toNat_ofNat] at hexponent
        rw [if_pos hnormal, unpackMantissa_packComponents,
          BitVec.toNat_ofNat] at hfraction
        have hlog : m.log2 = 52 := by
          rw [show Format.binary64.mantissaBits = 53 from rfl] at hnormal
          omega
        obtain ⟨hlow, hhigh⟩ := (Nat.log2_eq_iff (Nat.ne_of_gt hm)).1 hlog
        have hbits : exponentBits x = (e + 1075).toNat := by
          rw [hexponent]
          exact Nat.mod_eq_of_lt (by omega)
        have hwhole : twoPow 52 + fractionBits x = m := by
          rw [hfraction]
          show 2 ^ 52 + m % 2 ^ 52 = m
          omega
        refine ⟨⟨signBit x, m, e⟩, ?_, hgrid, hvalue⟩
        have hback : ((e + 1075).toNat : Int) - 1075 = e := by omega
        rw [value?, if_neg (by omega), if_neg (by omega), hwhole, hbits, hback]
      · rw [if_neg hnormal, unpackExponent_packComponents] at hexponent
        rw [if_neg hnormal, unpackMantissa_packComponents,
          BitVec.toNat_ofNat] at hfraction
        refine ⟨⟨signBit x, fractionBits x, -1074⟩, ?_, le_rfl, ?_⟩
        · rw [value?, hexponent]
          rfl
        · have hle : (fractionBits x : ℚ) ≤ m := by
            rw [hfraction]
            exact_mod_cast Nat.mod_le m _
          exact (mul_le_mul hle (two_zpow_le hgrid) (two_zpow_pos _).le
            (Nat.cast_nonneg m)).trans hvalue

/-! ## Operations -/

theorem Bounded.zero_or_finite {b : ℚ} {u : UnpackedFloat} (h : Bounded b u) :
    (∃ s, u = .zero s) ∨ ∃ s m e hm,
      u = .finite s m e hm ∧ (m : ℚ) * 2 ^ e ≤ b := by
  cases u with
  | zero s => exact .inl ⟨s, rfl⟩
  | finite s m e hm => exact .inr ⟨s, m, e, hm, rfl, h.2⟩
  | _ => exact absurd h id

theorem AtMost.neg {b : ℚ} {x : Float} (hx : AtMost b x)
    (hb : b ≤ 2 ^ (200 : Int)) :
    AtMost b (-x) := by
  show AtMost _ (.ofModel (.pack (UnpackedFloat.neg x.toModel.unpack)))
  refine Bounded.pack ?_ hb
  unfold AtMost at hx
  cases hxu : x.toModel.unpack with
  | zero s =>
      rw [hxu] at hx
      exact hx
  | finite s m e hm =>
      rw [hxu] at hx
      exact hx
  | _ =>
      rw [hxu] at hx
      exact absurd hx id

theorem AtMost.mul {p q : Int} {x y : Float} (hx : AtMost (2 ^ p) x)
    (hy : AtMost (2 ^ q) y) (hlow : -1074 ≤ p + q) (hhigh : p + q ≤ 200) :
    AtMost (2 ^ (p + q)) (x * y) := by
  show AtMost _
    (.ofModel (.pack (UnpackedFloat.mul Format.binary64 x.toModel.unpack
    y.toModel.unpack)))
  refine Bounded.pack ?_ (two_zpow_le hhigh)
  rcases hx.zero_or_finite with ⟨s, hxu⟩ | ⟨s, m, e, hm, hxu, hxv⟩ <;>
    rcases hy.zero_or_finite with ⟨t, hyu⟩ | ⟨t, n, f, hn, hyu, hyv⟩ <;>
    rw [hxu, hyu]
  · exact (two_zpow_pos _).le
  · exact (two_zpow_pos _).le
  · exact (two_zpow_pos _).le
  · refine bounded_roundWithAccuracy hlow ?_ (.inl rfl)
    calc ((m * n : Nat) : ℚ) * 2 ^ (e + f) = (m * 2 ^ e) * (n * 2 ^ f) := by
          rw [zpow_add₀ (by norm_num)]
          push_cast
          ring
      _ ≤ 2 ^ p * 2 ^ q := mul_le_mul hxv hyv
          (mul_nonneg (Nat.cast_nonneg n) (two_zpow_pos f).le)
          (two_zpow_pos p).le
      _ = 2 ^ (p + q) := (zpow_add₀ (by norm_num) p q).symm

theorem natAbs_apply (s : Sign) (n : Nat) : (s.apply n).natAbs = n := by
  cases s <;> simp [Sign.apply]

theorem AtMost.add {p : Int} {x y : Float} (hx : AtMost (2 ^ p) x)
    (hy : AtMost (2 ^ p) y) (hlow : -1074 ≤ p) (hhigh : p + 1 ≤ 200) :
    AtMost (2 ^ (p + 1)) (x + y) := by
  show AtMost _
    (.ofModel (.pack (UnpackedFloat.add Format.binary64 x.toModel.unpack
    y.toModel.unpack)))
  refine Bounded.pack ?_ (two_zpow_le hhigh)
  have hxm := Bounded.mono hx (two_zpow_le (show p ≤ p + 1 by omega))
  have hym := Bounded.mono hy (two_zpow_le (show p ≤ p + 1 by omega))
  rcases hx.zero_or_finite with ⟨s, hxu⟩ | ⟨s, m, e, hm, hxu, hxv⟩ <;>
    rcases hy.zero_or_finite with ⟨t, hyu⟩ | ⟨t, n, f, hn, hyu, hyv⟩ <;>
    rw [hxu] at hxm ⊢ <;> rw [hyu] at hym ⊢
  · cases s <;> cases t <;> exact (two_zpow_pos _).le
  · exact hym
  · exact hxm
  · refine bounded_normalize (by omega) ?_
    have hm := decreaseExponent_value m e (min e f)
    have hn := decreaseExponent_value n f (min e f)
    rw [show (decreaseExponent m e (min e f)).2 = min e f by
      simp only [decreaseExponent]; omega] at hm
    rw [show (decreaseExponent n f (min e f)).2 = min e f by
      simp only [decreaseExponent]; omega] at hn
    change ((s.apply (decreaseExponent m e (min e f)).1 +
      t.apply (decreaseExponent n f (min e f)).1).natAbs : ℚ) * 2 ^ min e f ≤ _
    generalize (decreaseExponent m e (min e f)).1 = a at hm ⊢
    generalize (decreaseExponent n f (min e f)).1 = b at hn ⊢
    have habs : ((s.apply a + t.apply b).natAbs : ℚ) ≤ a + b := by
      have hle := Int.natAbs_add_le (s.apply a) (t.apply b)
      rw [natAbs_apply, natAbs_apply] at hle
      exact_mod_cast hle
    calc ((s.apply a + t.apply b).natAbs : ℚ) * 2 ^ min e f
        ≤ (a + b) * 2 ^ min e f :=
          mul_le_mul_of_nonneg_right habs (two_zpow_pos _).le
      _ = m * 2 ^ e + n * 2 ^ f := by rw [add_mul, hm, hn]
      _ ≤ 2 ^ p + 2 ^ p := add_le_add hxv hyv
      _ = 2 ^ (p + 1) := by rw [zpow_add_one₀ (by norm_num)]; ring

/-- The power of two of the first bit of a double. -/
def firstBit? (x : Float) : Option Int :=
  match x.toModel.unpack with
  | .finite _ m e _ => some (m.log2 + e)
  | _ => none

theorem firstBit?_eq_some {x : Float} {q : Int} (h : firstBit? x = some q) :
    ∃ s m e hm, x.toModel.unpack = .finite s m e hm ∧
      (m.log2 : Int) + e = q := by
  unfold firstBit? at h
  cases hunpack : x.toModel.unpack with
  | finite s m e hm =>
      rw [hunpack] at h
      exact ⟨s, m, e, hm, rfl, Option.some.inj h⟩
  | _ =>
      rw [hunpack] at h
      cases h

theorem AtMost.div {p q : Int} {x y : Float} (hx : AtMost (2 ^ p) x)
    (hy : firstBit? y = some q) (hlow : -1074 ≤ p - q) (hhigh : p - q ≤ 200) :
    AtMost (2 ^ (p - q)) (x / y) := by
  show AtMost _
    (.ofModel (.pack (UnpackedFloat.div Format.binary64 x.toModel.unpack
    y.toModel.unpack)))
  refine Bounded.pack ?_ (two_zpow_le hhigh)
  obtain ⟨t, n, f, hn, hyu, hlead⟩ := firstBit?_eq_some hy
  rcases hx.zero_or_finite with ⟨s, hxu⟩ | ⟨s, m, e, hm, hxu, hxv⟩ <;>
    rw [hxu, hyu]
  · exact (two_zpow_pos _).le
  · change Bounded _ (roundWithAccuracy Format.binary64 _ _ _ _)
    rw [targetExponent_eq, totalExponent, totalExponent]
    have hfirst := log2_add_le (Nat.ne_of_gt hm) hxv
    generalize htarget : min (e - f) _ = target
    have hunit : target ≤ p - q := by omega
    generalize hk : (e - f - target).toNat = k
    rw [Nat.shiftLeft_eq]
    have hdividend : ((m * 2 ^ k : Nat) : ℚ) * (2 ^ target * 2 ^ f) =
        m * 2 ^ e := by
      push_cast
      rw [mul_assoc, ← zpow_natCast, ← zpow_add₀ (by norm_num), ← zpow_add₀
        (by norm_num)]
      congr 2
      omega
    have hdivisor : (2 : ℚ) ^ q ≤ n * 2 ^ f := by
      rw [← hlead, zpow_add₀ (by norm_num), zpow_natCast]
      have hlog : ((2 : ℚ) ^ n.log2) ≤ n := by
        exact_mod_cast Nat.log2_self_le (Nat.ne_of_gt hn)
      exact mul_le_mul_of_nonneg_right hlog (two_zpow_pos f).le
    -- The bound is a multiple of the unit of the quotient.
    obtain ⟨limit, hlimit⟩ : ∃ limit : Nat,
        (limit : ℚ) * 2 ^ target = 2 ^ (p - q) := by
      refine ⟨2 ^ (p - q - target).toNat, ?_⟩
      rw [Nat.cast_pow,
        Nat.cast_ofNat, ← zpow_natCast, ← zpow_add₀ (by norm_num)]
      congr 1
      omega
    have hle : m * 2 ^ k ≤ limit * n := by
      have hcast : ((m * 2 ^ k : Nat) : ℚ) ≤ (limit * n : Nat) := by
        apply le_of_mul_le_mul_right _
          (mul_pos (two_zpow_pos target) (two_zpow_pos f))
        calc ((m * 2 ^ k : Nat) : ℚ) * (2 ^ target * 2 ^ f) = m * 2 ^ e :=
               hdividend
          _ ≤ 2 ^ p := hxv
          _ = 2 ^ (p - q) * 2 ^ q := by
            rw [← zpow_add₀ (by norm_num), sub_add_cancel]
          _ ≤ limit * 2 ^ target * (n * 2 ^ f) := by
            rw [hlimit]
            exact mul_le_mul_of_nonneg_left hdivisor (two_zpow_pos _).le
          _ = (limit * n : Nat) * (2 ^ target * 2 ^ f) := by
            push_cast
            ring
      exact_mod_cast hcast
    have hbound (a : Nat) (ha : a ≤ limit) :
        (a : ℚ) * 2 ^ target ≤ 2 ^ (p - q) := by
      rw [← hlimit]
      exact mul_le_mul_of_nonneg_right (by exact_mod_cast ha)
        (two_zpow_pos target).le
    refine bounded_roundWithAccuracy hlow
      (hbound _ (Nat.div_le_of_le_mul (by linarith))) ?_
    by_cases hrest : m * 2 ^ k % n = 0
    · left
      rw [accuracyOfFraction, if_pos hrest]
    · right
      apply hbound
      have hsplit := Nat.div_add_mod (m * 2 ^ k) n
      by_contra hgt
      have hmul : n * limit ≤ n * (m * 2 ^ k / n) :=
        Nat.mul_le_mul_left n (by omega)
      have hcomm := Nat.mul_comm limit n
      omega

/-! ## Whole numbers -/

open Decimal (doubleOfNat)

theorem doubleOfNat_of_lt {n : Nat} (h : n < 2 ^ 53) :
    doubleOfNat n = n.toUInt64.toFloat * Float.ofBits 0x3FF0000000000000 := by
  unfold doubleOfNat Float.ofScientific
  rw [dif_pos ⟨h, Nat.zero_le 22⟩]
  rfl

theorem doubleOfNat_of_le {n : Nat} (h : 2 ^ 53 ≤ n) :
    doubleOfNat n =
      .ofModel (.pack (roundWithAccuracy Format.binary64 .positive (n * 2 ^ 53)
      (-53) .exact)) := by
  have hlarge : ¬(n < 2 ^ 53 ∧ 0 ≤ 22) := fun hsmall =>
    absurd hsmall.1 (not_lt.2 h)
  have hscaled : UnpackedFloat.ofScientific Format.binary64 n 0 =
      roundWithAccuracy Format.binary64 .positive
        (n * 2 ^ 53) (-53) .exact := by
    have hnear :
        ¬(0 : Int) < -((2 ^ Format.binary64.exponentBits : Int) + n.log2) := by
      rw [show (2 ^ Format.binary64.exponentBits : Int) = 2048 from rfl]
      omega
    unfold UnpackedFloat.ofScientific
    rw [dif_neg (by omega), if_neg (by decide), if_neg hnear,
      if_pos (by decide)]
    show roundWithAccuracy Format.binary64 .positive (n <<< 53 * 1)
      (-53 + 0) .exact = _
    rw [Nat.mul_one, Nat.shiftLeft_eq, add_zero]
  unfold doubleOfNat Float.ofScientific
  rw [dif_neg hlarge]
  show Float.ofModel (.pack (UnpackedFloat.ofScientific Format.binary64 n 0)) =
    _
  rw [hscaled]

/-- The double of a whole number is bounded as it is. -/
theorem atMost_doubleOfNat {n p : Nat} (h : n ≤ 2 ^ p) (hp : p ≤ 200) :
    AtMost (2 ^ (p : Int)) (doubleOfNat n) := by
  have hcast : (n : ℚ) ≤ 2 ^ (p : Int) := by
    rw [zpow_natCast]
    exact_mod_cast h
  by_cases hsmall : n < 2 ^ 53
  · rw [doubleOfNat_of_lt hsmall]
    have hone : AtMost (2 ^ (0 : Int)) (Float.ofBits 0x3FF0000000000000) :=
      atMost_iff.2 ⟨⟨false, 2 ^ 52, -52⟩, by decide +kernel, by
        decide, by norm_num⟩
    have hmantissa : AtMost (2 ^ (p : Int)) n.toUInt64.toFloat := by
      show AtMost _ (.ofModel (.pack (UnpackedFloat.normalize Format.binary64
        (n.toUInt64.toNat : Int) 0 .positive)))
      refine Bounded.pack (bounded_normalize (by omega) ?_)
        (two_zpow_le (by omega))
      have htoNat : n.toUInt64.toNat = n := by
        rw [Nat.toUInt64, UInt64.toNat_ofNat', Nat.mod_eq_of_lt]
        omega
      rw [htoNat, Int.natAbs_natCast, zpow_zero, mul_one]
      exact hcast
    have hmul := hmantissa.mul hone (by omega) (by omega)
    rwa [add_zero] at hmul
  · rw [doubleOfNat_of_le (not_lt.1 hsmall)]
    have hvalue : ((n * 2 ^ 53 : Nat) : ℚ) * 2 ^ (-53 : Int) = n := by
      have hone : (2 : ℚ) ^ 53 * 2 ^ (-53 : Int) = 1 := by norm_num
      rw [Nat.cast_mul, Nat.cast_pow, Nat.cast_ofNat, mul_assoc, hone, mul_one]
    generalize n * 2 ^ 53 = m at hvalue
    refine Bounded.pack (bounded_roundWithAccuracy (by omega) ?_ (.inl rfl))
      (two_zpow_le (by omega))
    rw [hvalue]
    exact hcast

theorem atMost_roundHalfAway {p : Int} {x : Float} (hx : AtMost (2 ^ p) x)
    (hlow : 53 ≤ p) (hhigh : p ≤ 200) : AtMost (2 ^ p) (roundHalfAway x) := by
  obtain ⟨v, hv, -, -⟩ := atMost_iff.1 hx
  unfold roundHalfAway
  rw [hv]
  dsimp only
  split
  · exact hx
  · rename_i hfraction
    have hwhole : AtMost (2 ^ p)
        (ofInt (roundDiv .up v.ratio.1 v.ratio.2)) := by
      have hmantissa : v.mantissa < 2 ^ 53 := mantissa_lt_of_value? hv
      have hround :=
        two_mul_roundDiv_le .up v.mantissa (twoPow (-v.exponent).toNat)
      have hunit : 1 ≤ twoPow (-v.exponent).toNat := twoPow_pos _
      rw [Exact.ratio, if_neg hfraction]
      refine (atMost_doubleOfNat (p := 53) ?_ (by decide)).mono
        (two_zpow_le hlow)
      generalize roundDiv .up v.mantissa (twoPow (-v.exponent).toNat) =
        r at hround ⊢
      generalize twoPow (-v.exponent).toNat = unit at hround hunit
      have hcancel : unit * (2 * r) ≤ unit * (2 * v.mantissa + 1) := by
        calc unit * (2 * r) = 2 * unit * r := by ring
          _ ≤ 2 * v.mantissa + unit := hround
          _ ≤ unit * (2 * v.mantissa + 1) := by nlinarith
      have hle := Nat.le_of_mul_le_mul_left hcancel hunit
      omega
    split
    · exact hwhole.neg (two_zpow_le hhigh)
    · exact hwhole

/-! ## The end of ninety-six bits -/

theorem roundBit_shiftRight (em : ExtendedMantissa) (k : Nat) :
    (em >>> (k + 1)).roundBit = (em.mantissa / 2 ^ k % 2 != 0) := by
  show (ExtendedMantissa.shiftRightOne (em >>> k)).roundBit = _
  rw [ExtendedMantissa.shiftRightOne, mantissa_shiftRight]

/-- What is less than half a unit above a number is not rounded up from
there. -/
theorem roundedMantissa_le_of_lt_half {m n k : Nat}
    (h : m < (2 * n + 1) * 2 ^ k) :
    (ExtendedMantissa.mk m false false >>> (k + 1)).roundedMantissa ≤ n := by
  have hhalves : m / 2 ^ k < 2 * n + 1 :=
    (Nat.div_lt_iff_lt_mul (Nat.two_pow_pos k)).2 h
  have hmantissa :=
    mantissa_shiftRight (ExtendedMantissa.mk m false false) (k + 1)
  have hbit := roundBit_shiftRight (ExtendedMantissa.mk m false false) k
  rw [Nat.pow_succ, ← Nat.div_div_eq_div_mul] at hmantissa
  have hle := roundedMantissa_le (ExtendedMantissa.mk m false false >>> (k + 1))
  generalize ExtendedMantissa.mk m false false >>> (k + 1) =
    em at hmantissa hbit hle ⊢
  dsimp only at hmantissa hbit
  generalize m / 2 ^ k = halves at hhalves hmantissa hbit
  by_cases hlast : halves = 2 * n
  · obtain ⟨mantissa, roundBit, stickyBit⟩ := em
    have hclear : roundBit = false := by
      rw [show roundBit = _ from hbit, hlast]
      simp
    have hn : mantissa = n := by
      rw [show mantissa = _ from hmantissa]
      omega
    rw [hclear, hn]
    cases stickyBit <;> exact Nat.le_refl n
  · omega

/-- What is half a unit or more above an odd number is rounded up from there. -/
theorem roundedMantissa_of_half_le {m n k : Nat}
    (hlow : (2 * n + 1) * 2 ^ k ≤ m) (hhigh : m < (2 * n + 2) * 2 ^ k)
    (hodd : n % 2 = 1) :
    (ExtendedMantissa.mk m false false >>> (k + 1)).roundedMantissa =
      n + 1 := by
  have hhalves : m / 2 ^ k = 2 * n + 1 := by
    rw [Nat.div_eq_iff (Nat.two_pow_pos k)]
    have hpos := Nat.two_pow_pos k
    rw [Nat.add_mul] at hlow hhigh ⊢
    omega
  have hmantissa :=
    mantissa_shiftRight (ExtendedMantissa.mk m false false) (k + 1)
  have hbit := roundBit_shiftRight (ExtendedMantissa.mk m false false) k
  rw [Nat.pow_succ, ← Nat.div_div_eq_div_mul] at hmantissa
  generalize ExtendedMantissa.mk m false false >>> (k + 1) =
    em at hmantissa hbit ⊢
  obtain ⟨mantissa, roundBit, stickyBit⟩ := em
  have hset : roundBit = true := by
    rw [show roundBit = _ from hbit]
    show (m / 2 ^ k % 2 != 0) = true
    rw [hhalves]
    simp [Nat.add_mod]
  have hn : mantissa = n := by
    rw [show mantissa = m / 2 ^ k / 2 from hmantissa, hhalves]
    omega
  rw [hset, hn]
  cases stickyBit with
  | true => rfl
  | false =>
      show n + n % 2 = n + 1
      rw [hodd]

/-- From here on whole numbers of ninety-six bits are rounded to `2 ^ 96`. -/
def wholeLimit : Nat := 2 ^ 96 - 2 ^ 42

/-- The exponent to which a whole number of ninety-six bits is rounded. -/
theorem shift_of_ninetySix {n : Nat} (hlow : 2 ^ 95 ≤ n) (hhigh : n < 2 ^ 96) :
    (max (((n * 2 ^ 53).log2 : Int) + 1 + -53 - 53) (-1074) - -53).toNat =
      96 := by
  have hlog : (n * 2 ^ 53).log2 = 148 := by
    rw [Nat.log2_eq_iff (by omega)]
    omega
  rw [hlog]
  rfl

/-- Whole numbers that are further from `2 ^ 96` stay below it. -/
theorem atMost_doubleOfNat_of_lt {n : Nat} (h : n < wholeLimit) :
    AtMost (2 ^ 96 - 2 ^ 43) (doubleOfNat n) := by
  unfold wholeLimit at h
  by_cases hlow : n ≤ 2 ^ 95
  · exact (atMost_doubleOfNat hlow (by decide)).mono (by norm_num)
  · rw [doubleOfNat_of_le (by omega)]
    have hshift := shift_of_ninetySix (n := n) (by omega) (by omega)
    have hrounded :
        (ExtendedMantissa.ofMantissaAndAccuracy (n * 2 ^ 53) .exact >>>
        96).roundedMantissa ≤ 2 ^ 53 - 1 :=
          roundedMantissa_le_of_lt_half (k := 95) (by omega)
    generalize n * 2 ^ 53 = m at hshift hrounded ⊢
    refine Bounded.pack (bounded_of_roundedMantissa_le hshift hrounded ?_)
      (by norm_num)
    norm_num

/-- The double `2 ^ 96`. -/
def twoPow96 : Float :=
  .ofModel (.pack (.finite .positive (2 ^ 52) 44 (by decide)))

theorem doubleOfNat_eq_twoPow96 {n : Nat} (hlow : wholeLimit ≤ n)
    (hhigh : n < 2 ^ 96) :
    doubleOfNat n = twoPow96 := by
  unfold wholeLimit at hlow
  have hrounded :
      (ExtendedMantissa.ofMantissaAndAccuracy (n * 2 ^ 53) .exact >>>
        96).roundedMantissa = 2 ^ 53 :=
    roundedMantissa_of_half_le (n := 2 ^ 53 - 1) (k := 95)
      (by omega) (by omega) rfl
  rw [doubleOfNat_of_le (by omega)]
  unfold roundWithAccuracy shiftToTargetExponent shiftToExponent
  dsimp only
  rw [targetExponent_eq, totalExponent,
    shift_of_ninetySix (by omega) hhigh, hrounded]
  rfl

end Ridehail.Double
