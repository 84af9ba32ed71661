import Mathlib.Algebra.Order.Ring.Int
import Ridehail.Double.Basic

/-!
# How large a product of doubles is

The exact value of a double is a mantissa of at most fifty-three bits and a
power of two.  The powers of two of a product add up, and rounding the product
of two mantissas back to fifty-three bits raises the sum by fifty-four at most.
This is all that is shown of products here: no product of doubles of moderate
size is huge.

A product is computed on the parts into which a double is unpacked, and packed
again.  The bits of the packed double are looked at only in `exponentBits_pack`.

## Main results

* `Double.unpack_of_normal`, `unpack_of_subnormal` — what a double is unpacked
  to, by its bits.
* `Double.value?_of_unpack` — what `value?` reads off is what a double is
  unpacked to.
* `Double.UpTo.mul` — the power of two of a product.
* `Double.upTo_of_within` — a double between two bounds is no larger than they
  are.
-/

namespace Ridehail.Double

open Float.Model (Format UnpackedFloat totalExponent)
open Float.Model.UnpackedFloat

/-- If the double is finite, its power of two is at most `k`. -/
def UpTo (k : Int) (x : Float) : Prop := ∀ e ∈ value? x, e.exponent ≤ k

/-- A double's mantissa has fifty-three bits. -/
theorem mantissa_lt_of_value? {x : Float} {e : Exact} (h : value? x = some e) :
    e.mantissa < twoPow 53 := by
  have hfraction : fractionBits x < twoPow 52 := Nat.mod_lt _ (twoPow_pos 52)
  have hdouble : twoPow 53 = twoPow 52 + twoPow 52 := rfl
  unfold value? at h
  split at h
  · cases h
  · split at h
    · cases h
      show fractionBits x < twoPow 53
      omega
    · cases h
      show twoPow 52 + fractionBits x < twoPow 53
      omega

/-! ## Rounding a mantissa -/

theorem mantissa_shiftRight (em : ExtendedMantissa) (k : Nat) :
    (em >>> k).mantissa = em.mantissa / 2 ^ k := by
  induction k with
  | zero => exact (Nat.div_one _).symm
  | succ k ih =>
      show (ExtendedMantissa.shiftRightOne (em >>> k)).mantissa = _
      rw [ExtendedMantissa.shiftRightOne, ih,
        Nat.div_div_eq_div_mul, ← Nat.pow_succ]

/-- Rounding raises a mantissa by one at most. -/
theorem roundedMantissa_le (em : ExtendedMantissa) :
    em.roundedMantissa ≤ em.mantissa + 1 := by
  obtain ⟨m, roundBit, stickyBit⟩ := em
  have hparity := Nat.mod_lt m (show 0 < 2 by decide)
  cases roundBit <;> cases stickyBit <;>
    simp only [ExtendedMantissa.roundedMantissa, ExtendedMantissa.accuracy,
      Accuracy.roundToNearestEven] <;> omega

theorem targetExponent_eq (total : Int) :
    Format.binary64.targetExponent total = max (total - 53) (-1074) := rfl

/-- A mantissa brought to its target exponent has fifty-three bits. -/
theorem shifted_lt {m : Nat} {e : Int} {k : Nat}
    (hk : k = (Format.binary64.targetExponent (totalExponent m e) - e).toNat) :
    m / 2 ^ k < 2 ^ 53 := by
  rw [targetExponent_eq, totalExponent] at hk
  have hm : m < 2 ^ (m.log2 + 1) := Nat.lt_log2_self
  have hbits : m.log2 + 1 ≤ 53 + k := by omega
  rw [Nat.div_lt_iff_lt_mul (Nat.two_pow_pos k), ← Nat.pow_add]
  exact lt_of_lt_of_le hm (Nat.pow_le_pow_right (by decide) hbits)

/-- Rounding a mantissa of one hundred and six bits raises the power of two by
fifty-four at most: fifty-three bits are dropped, and one more if rounding
carries over. -/
theorem exponent_roundWithAccuracy_le {s t : Sign} {m n : Nat} {e f : Int}
    {hn : 0 < n} (hm : m < 2 ^ 106)
    (h : roundWithAccuracy Format.binary64 s m e .exact = .finite t n f hn) :
    f ≤ max (e + 54) (-1073) := by
  unfold roundWithAccuracy shiftToTargetExponent shiftToExponent at h
  dsimp only at h
  generalize hk :
    (Format.binary64.targetExponent (totalExponent m e) - e).toNat = k at h
  generalize hr : ExtendedMantissa.roundedMantissa _ = r at h
  have hlog : m.log2 ≤ 105 := by
    by_cases hzero : m = 0
    · rw [hzero]
      decide
    · have hlt := (Nat.log2_lt hzero).2 hm
      omega
  have hrounded : r ≤ 2 ^ 53 := by
    have hle :=
      roundedMantissa_le (ExtendedMantissa.ofMantissaAndAccuracy m .exact >>> k)
    have hshifted := shifted_lt hk.symm
    rw [hr, mantissa_shiftRight] at hle
    exact hle.trans hshifted
  have hcarry : r.log2 ≤ 53 := by
    by_cases hzero : r = 0
    · rw [hzero]
      decide
    · have hlt :=
        (Nat.log2_lt hzero).2
          (lt_of_le_of_lt hrounded (show 2 ^ 53 < 2 ^ 54 by decide))
      omega
  obtain ⟨_, hzero⟩ | ⟨_, hfinite⟩ := dite_eq_iff.1 h
  · cases hzero
  · injection hfinite with _ _ hf
    rw [targetExponent_eq, totalExponent] at hk hf
    omega

/-! ## Bits -/

theorem exponentBits_eq (x : Float) :
    exponentBits x =
      (@unpackExponent Format.binary64 x.toModel.toBits.toBitVec).toNat := by
  rw [unpackExponent, BitVec.toNat_cast, BitVec.extractLsb_toNat,
    Nat.shiftRight_eq_div_pow]
  rfl

/-- The exponent bits of a packed double: all set if there is no value, and else
those of its power of two, or none. -/
theorem exponentBits_pack (u : UnpackedFloat) :
    match u with
    | .finite _ _ e _ => exponentBits (.ofModel (.pack u)) = 2047 ∨
        exponentBits (.ofModel (.pack u)) = (e + 1075).toNat ∨
          exponentBits (.ofModel (.pack u)) = 0
    | .zero _ => exponentBits (.ofModel (.pack u)) = 0
    | _ => exponentBits (.ofModel (.pack u)) = 2047 := by
  have hbits : exponentBits (.ofModel (.pack u)) =
      (unpackExponent (UnpackedFloat.pack Format.binary64 u)).toNat :=
        exponentBits_eq _
  rw [hbits]
  cases u with
  | notANumber =>
      show (unpackExponent (packComponents Format.binary64 _ _ _)).toNat = 2047
      rw [unpackExponent_packComponents]
      rfl
  | infinity s =>
      show (unpackExponent (packComponents Format.binary64 _ _ _)).toNat = 2047
      rw [unpackExponent_packComponents]
      rfl
  | zero s =>
      show (unpackExponent (packComponents Format.binary64 _ _ _)).toNat = 0
      rw [unpackExponent_packComponents]
      rfl
  | finite s m e hm =>
      delta UnpackedFloat.pack
      dsimp only
      have hbias : e + (Format.binary64.exponentBias : Int) + (52 : Nat) =
          e + 1075 := by
        rw [show Format.binary64.exponentBias = 1023 from rfl]
        omega
      rw [hbias]
      split
      · left
        rw [packedInfinity, unpackExponent_packComponents]
        rfl
      · rename_i hroom
        split
        · right
          left
          rw [unpackExponent_packComponents, BitVec.toNat_ofNat]
          exact Nat.mod_eq_of_lt (by omega)
        · right
          right
          rw [unpackExponent_packComponents]
          rfl

/-- A packed double has the power of two that it was packed with, or the least
there is. -/
theorem upTo_pack {u : UnpackedFloat} {k : Int} (hk : -1074 ≤ k)
    (hu : ∀ s m e hm, u = .finite s m e hm → e ≤ k) :
    UpTo k (.ofModel (.pack u)) := by
  have hbits := exponentBits_pack u
  intro v hv
  unfold value? at hv
  split at hv
  · cases hv
  · rename_i hfinite
    split at hv
    · cases hv
      exact hk
    · rename_i hnormal
      cases hv
      show (exponentBits (.ofModel (.pack u)) : Int) - 1075 ≤ k
      cases u with
      | notANumber => exact absurd hbits hfinite
      | infinity s => exact absurd hbits hfinite
      | zero s => exact absurd hbits hnormal
      | finite s m e hm =>
          have hle := hu s m e hm rfl
          rcases hbits with h | h | h
          · exact absurd h hfinite
          · rw [h] at hnormal ⊢
            omega
          · exact absurd h hnormal

/-! ## Unpacked doubles -/

theorem unpackExponent_eq_iff {x : Float} {b : BitVec 11} :
    @unpackExponent Format.binary64 x.toModel.toBits.toBitVec = b ↔
      exponentBits x = b.toNat := by
  rw [exponentBits_eq]
  exact BitVec.toNat_inj.symm

/-- A double whose exponent bits are all set has no value. -/
theorem unpack_of_full {x : Float} (hfull : exponentBits x = 2047) (s : Sign)
    (m : Nat) (e : Int) (hm : 0 < m) : x.toModel.unpack ≠ .finite s m e hm := by
  have hall :
      @unpackExponent Format.binary64 x.toModel.toBits.toBitVec = -1#11 :=
    unpackExponent_eq_iff.2 hfull
  unfold Float.Model.unpack UnpackedFloat.unpack
  dsimp only
  rw [if_pos hall]
  by_cases hzero : @unpackMantissa Format.binary64 x.toModel.toBits.toBitVec =
    0#52
  · rw [if_pos hzero]
    intro h
    cases h
  · rw [if_neg hzero]
    intro h
    cases h

/-- A double whose exponent bits are neither all set nor all clear is unpacked
to their power of two. -/
theorem unpack_of_normal {x : Float} (hfinite : exponentBits x ≠ 2047)
    (hnormal : exponentBits x ≠ 0) :
    ∃ s m hm, m < 2 ^ 53 ∧ x.toModel.unpack =
      .finite s m (exponentBits x - 1075) hm := by
  have hall :
      ¬@unpackExponent Format.binary64 x.toModel.toBits.toBitVec = -1#11 :=
    mt unpackExponent_eq_iff.1 hfinite
  have hnone :
      ¬@unpackExponent Format.binary64 x.toModel.toBits.toBitVec = 0#11 :=
    mt unpackExponent_eq_iff.1 hnormal
  unfold Float.Model.unpack UnpackedFloat.unpack
  dsimp only
  rw [if_neg hall, if_neg hnone, exponentBits_eq]
  generalize_proofs hm
  exact ⟨_, _, hm, BitVec.isLt _, rfl⟩

/-- A double whose exponent bits are all clear is zero or is unpacked to the
least power of two. -/
theorem unpack_of_subnormal {x : Float} (hnone : exponentBits x = 0) {s : Sign}
    {m : Nat} {e : Int} {hm : 0 < m} (h : x.toModel.unpack = .finite s m e hm) :
    m < 2 ^ 53 ∧ e = -1074 := by
  have hall :
      ¬@unpackExponent Format.binary64 x.toModel.toBits.toBitVec = -1#11 := by
    rw [unpackExponent_eq_iff, hnone]
    decide
  have hclear : @unpackExponent Format.binary64 x.toModel.toBits.toBitVec =
      0#11 :=
    unpackExponent_eq_iff.2 hnone
  unfold Float.Model.unpack UnpackedFloat.unpack at h
  dsimp only at h
  rw [if_neg hall, if_pos hclear, hclear] at h
  by_cases hzero : @unpackMantissa Format.binary64 x.toModel.toBits.toBitVec =
    0#52
  · rw [dif_pos hzero] at h
    cases h
  · rw [dif_neg hzero] at h
    injection h with _ hmantissa hexponent
    refine ⟨?_, hexponent.symm⟩
    rw [← hmantissa]
    exact lt_trans (BitVec.isLt _) (show 2 ^ 52 < 2 ^ 53 by decide)

/-- What a double is unpacked to, and the value read off its bits, have the same
power of two, and the mantissa has fifty-three bits. -/
theorem value?_of_unpack {x : Float} {s : Sign} {m : Nat} {e : Int} {hm : 0 < m}
    (h : x.toModel.unpack = .finite s m e hm) :
    m < 2 ^ 53 ∧ ∃ v, value? x = some v ∧ v.exponent = e := by
  by_cases hfull : exponentBits x = 2047
  · exact absurd h (unpack_of_full hfull s m e hm)
  · by_cases hnone : exponentBits x = 0
    · obtain ⟨hlt, rfl⟩ := unpack_of_subnormal hnone h
      exact ⟨hlt, ⟨signBit x, fractionBits x, -1074⟩, by
        rw [value?, if_neg hfull, if_pos hnone], rfl⟩
    · obtain ⟨s', m', hm', hlt, hunpack⟩ := unpack_of_normal hfull hnone
      rw [hunpack] at h
      injection h with _ hmantissa hexponent
      exact ⟨hmantissa ▸ hlt, ⟨signBit x, twoPow 52 + fractionBits x,
        exponentBits x - 1075⟩, by rw [value?, if_neg hfull, if_neg hnone],
        hexponent⟩

/-- The power of two of a product. -/
theorem UpTo.mul {j k : Int} {x y : Float} (hx : UpTo j x) (hy : UpTo k y) :
    UpTo (max (j + k + 54) (-1073)) (x * y) := by
  show UpTo _
    (.ofModel (.pack (UnpackedFloat.mul Format.binary64 x.toModel.unpack
    y.toModel.unpack)))
  apply upTo_pack (by omega)
  intro s m e hm hmul
  cases hxu : x.toModel.unpack with
  | finite sx mx ex hmx =>
      cases hyu : y.toModel.unpack with
      | finite sy my ey hmy =>
          rw [hxu, hyu] at hmul
          change roundWithAccuracy Format.binary64 _ (mx * my) (ex + ey)
            .exact = _ at hmul
          obtain ⟨hmx53, vx, hvx, hex⟩ := value?_of_unpack hxu
          obtain ⟨hmy53, vy, hvy, hey⟩ := value?_of_unpack hyu
          have hprod : mx * my < 2 ^ 106 := by
            calc mx * my < 2 ^ 53 * 2 ^ 53 := Nat.mul_lt_mul'' hmx53 hmy53
              _ = 2 ^ 106 := by decide
          have hle := exponent_roundWithAccuracy_le hprod hmul
          have hj := hx vx hvx
          have hk := hy vy hvy
          omega
      | _ => rw [hxu, hyu] at hmul; cases hmul
  | _ =>
      rw [hxu] at hmul
      cases hyu : y.toModel.unpack <;> rw [hyu] at hmul <;> cases hmul

/-! ## Bounds -/

theorem upTo_of_unpack {x : Float} {k : Int} (hk : -1074 ≤ k)
    (hx : ∀ s m e hm, x.toModel.unpack = .finite s m e hm → e ≤ k) :
    UpTo k x := by
  intro v hv
  unfold value? at hv
  split at hv
  · cases hv
  · rename_i hfinite
    split at hv
    · cases hv
      exact hk
    · rename_i hnormal
      cases hv
      obtain ⟨s, m, hm, -, hunpack⟩ := unpack_of_normal hfinite hnormal
      exact hx s m _ hm hunpack

/-- A double between two bounds of opposite signs has no larger power of two
than they. -/
theorem upTo_of_within {x low high : Float} {m n : Nat} {k : Int} {hm : 0 < m}
    {hn : 0 < n} (hk : -1074 ≤ k)
    (hlow : low.toModel.unpack = .finite .negative m k hm)
    (hhigh : high.toModel.unpack = .finite .positive n k hn)
    (hle : low ≤ x ∧ x ≤ high) :
    UpTo k x := by
  have hle₁ : UnpackedFloat.le low.toModel.unpack x.toModel.unpack = true := by
    have h : decide (low.toModel ≤ x.toModel) = true := hle.1
    exact of_decide_eq_true h
  have hle₂ : UnpackedFloat.le x.toModel.unpack high.toModel.unpack = true := by
    have h : decide (x.toModel ≤ high.toModel) = true := hle.2
    exact of_decide_eq_true h
  apply upTo_of_unpack hk
  intro s mx e hmx hx
  rw [hx, hlow] at hle₁
  rw [hx, hhigh] at hle₂
  -- Of the two bounds the one with the sign of the double decides, exponents
  -- first.
  by_contra hgt
  cases s with
  | negative =>
      have hcompare : compare k e = .lt := Int.compare_eq_lt.2 (by omega)
      change ((compare k e).then (compare m mx)).swap.isLE = true at hle₁
      rw [hcompare] at hle₁
      cases hle₁
  | positive =>
      have hcompare : compare e k = .gt := Int.compare_eq_gt.2 (by omega)
      change ((compare e k).then (compare mx n)).isLE = true at hle₂
      rw [hcompare] at hle₂
      cases hle₂

end Ridehail.Double
