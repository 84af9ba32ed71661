import Ridehail.Proofs.Double.Magnitude
import Ridehail.Proofs.Store.Readback

/-!
# Distances from a stored point

A point that was stored has lost the signs of its zeros.  The two zeros are
equal as numbers, but they are not the same double, and an operation may well
tell them apart: a difference can turn one into the other, and a product keeps
the sign.  So a distance from the stored point has to be followed through the
formula.  The sign of a zero gets as far as the two sines, and there it is
squared.

Nothing is known of the trigonometric functions in this but that they take
either zero to what they take zero to.

## Main results

* `Double.Alike` — doubles that differ in the sign of a zero at most, and what
  keeps them so.
* `haversineKm_stored` — a stored point is as far away as the point.
-/

namespace Ridehail

open Float.Model (UnpackedFloat)

/-- What is used of the cosine and the sine: the cosine of either zero is one,
and the sine of either zero is a zero. -/
structure TrigOfZero : Prop where
  cos_eq : ∀ x : Float, (x == 0.0) = true → x.cos = 1.0
  sin_eq : ∀ x : Float, (x == 0.0) = true → (x.sin == 0.0) = true

namespace Double

/-! ## The two zeros -/

/-- The same double, apart from the sign of a zero. -/
def Alike (x y : Float) : Prop := x = y ∨ (x == 0.0) = true ∧ (y == 0.0) = true

variable {x y : Float}

theorem eq_of_toBits (h : x.toBits = y.toBits) : x = y := by
  obtain ⟨⟨a, ha⟩⟩ := x
  obtain ⟨⟨b, hb⟩⟩ := y
  cases h
  rfl

theorem beq_zero_iff : (x == 0.0) = true ↔ ∃ s, x.toModel.unpack = .zero s := by
  show x.toModel.unpack.beq (.zero .positive) = true ↔ _
  cases x.toModel.unpack with
  | notANumber => exact ⟨nofun, nofun⟩
  | infinity s => cases s <;> exact ⟨nofun, nofun⟩
  | zero s => exact ⟨fun _ => ⟨s, rfl⟩, fun _ => rfl⟩
  | finite s m e hm => cases s <;> exact ⟨nofun, nofun⟩

/-- A zero has no bits but its sign. -/
theorem bits_of_zero (h : (x == 0.0) = true) :
    exponentBits x = 0 ∧ fractionBits x = 0 := by
  obtain ⟨s, hs⟩ := beq_zero_iff.1 h
  have hvalue : value? x = some ⟨signBit x, 0, -1074⟩ := by rw [value?_eq, hs]
  unfold value? at hvalue
  split at hvalue
  · cases hvalue
  · split at hvalue
    · rename_i hexponent
      exact ⟨hexponent, congrArg Exact.mantissa (Option.some.inj hvalue)⟩
    · have hmantissa := congrArg Exact.mantissa (Option.some.inj hvalue)
      have hpos := twoPow_pos 52
      dsimp only at hmantissa
      omega

/-- A zero is one of the two. -/
theorem eq_zero_of_beq (h : (x == 0.0) = true) (hne : x ≠ -0.0) : x = 0.0 := by
  obtain ⟨hexponent, hfraction⟩ := bits_of_zero h
  have hexponent : x.toBits.toNat / 2 ^ 52 % 2 ^ 11 = 0 := hexponent
  have hfraction : x.toBits.toNat % 2 ^ 52 = 0 := hfraction
  have hsize : x.toBits.toNat < 2 ^ 64 := x.toBits.toBitVec.isLt
  have hbits : x.toBits.toNat = 0 ∨ x.toBits.toNat = 2 ^ 63 := by omega
  rcases hbits with hbits | hbits
  · exact eq_of_toBits (UInt64.toNat_inj.1 hbits)
  · exact absurd (eq_of_toBits (UInt64.toNat_inj.1 hbits)) hne

/-- A zero is what it is packed from. -/
theorem unpack_zero (s : UnpackedFloat.Sign) :
    (Float.ofModel (.pack (.zero s))).toModel.unpack = .zero s := by
  cases s <;> rfl

theorem unpack_nan :
    (Float.ofModel (.pack .notANumber)).toModel.unpack = .notANumber := rfl

theorem beq_zero_ofModel (s : UnpackedFloat.Sign) :
    (Float.ofModel (.pack (.zero s)) == 0.0) = true :=
  beq_zero_iff.2 ⟨s, unpack_zero s⟩

theorem mul_def (x y : Float) :
    x * y =
      .ofModel (.pack (.mul .binary64 x.toModel.unpack y.toModel.unpack)) := rfl

theorem mul_self_of_zero (hx : (x == 0.0) = true) : x * x = 0.0 := by
  obtain ⟨s, hs⟩ := beq_zero_iff.1 hx
  rw [mul_def, hs]
  cases s <;> rfl

/-- Two factors that are zero count as one that has no sign. -/
theorem mul_mul_of_zero (hx : (x == 0.0) = true) (k : Float) :
    k * x * x = k * 0.0 := by
  obtain ⟨s, hs⟩ := beq_zero_iff.1 hx
  have hzero : (0.0 : Float).toModel.unpack = .zero .positive := rfl
  -- The first product is no number or a zero, and the second one leaves it so.
  have hnan : Float.ofModel (.pack (.mul .binary64
      (Float.ofModel (.pack .notANumber)).toModel.unpack (.zero s))) =
      .ofModel (.pack .notANumber) := by
    rw [unpack_nan]
    rfl
  have hsigned (u : UnpackedFloat.Sign) : Float.ofModel (.pack (.mul .binary64
      (Float.ofModel (.pack (.zero (u * s)))).toModel.unpack (.zero s))) =
      .ofModel (.pack (.zero (u * .positive))) := by
    rw [unpack_zero]
    cases u <;> cases s <;> rfl
  rw [mul_def (k * x), mul_def k, mul_def k, hs, hzero]
  cases k.toModel.unpack with
  | notANumber => exact hnan
  | infinity u => exact hnan
  | zero u => exact hsigned u
  | finite u m e hm => exact hsigned u

theorem alike_storedDouble (x : Float) : Alike (storedDouble x) x := by
  unfold storedDouble
  split
  · rename_i hzero
    exact .inr ⟨by decide, hzero⟩
  · exact .inl rfl

namespace Alike

/-- A zero may be subtracted with either sign. -/
theorem sub_left (h : Alike x y) (z : Float) : Alike (z - x) (z - y) := by
  rcases h with rfl | ⟨hx, hy⟩
  · exact .inl rfl
  · obtain ⟨s, hs⟩ := beq_zero_iff.1 hx
    obtain ⟨t, ht⟩ := beq_zero_iff.1 hy
    show Alike
      (.ofModel (.pack (.sub .binary64 z.toModel.unpack x.toModel.unpack)))
      (.ofModel (.pack (.sub .binary64 z.toModel.unpack y.toModel.unpack)))
    rw [hs, ht]
    cases z.toModel.unpack with
    | zero u =>
        refine .inr ⟨?_, ?_⟩
        · cases u <;> cases s <;> exact beq_zero_ofModel _
        · cases u <;> cases t <;> exact beq_zero_ofModel _
    | _ => exact .inl rfl

/-- A multiple of a zero is a zero, unless it is no number. -/
theorem mul_right (h : Alike x y) (c : Float) : Alike (x * c) (y * c) := by
  rcases h with rfl | ⟨hx, hy⟩
  · exact .inl rfl
  · obtain ⟨s, hs⟩ := beq_zero_iff.1 hx
    obtain ⟨t, ht⟩ := beq_zero_iff.1 hy
    rw [mul_def x, mul_def y, hs, ht]
    cases c.toModel.unpack with
    | notANumber => exact .inl rfl
    | infinity u => exact .inl rfl
    | zero u => exact .inr ⟨beq_zero_ofModel _, beq_zero_ofModel _⟩
    | finite u m e hm => exact .inr ⟨beq_zero_ofModel _, beq_zero_ofModel _⟩

theorem radians (h : Alike x y) : Alike (radians x) (radians y) :=
  h.mul_right (3.14159265358979323846 / 180.0)

/-- The sign is lost in a square. -/
theorem mul_self (h : Alike x y) : x * x = y * y := by
  rcases h with rfl | ⟨hx, hy⟩
  · rfl
  · rw [mul_self_of_zero hx, mul_self_of_zero hy]

/-- It is lost as well if the factors are multiplied with one at a time. -/
theorem mul_twice (h : Alike x y) (k : Float) : k * x * x = k * y * y := by
  rcases h with rfl | ⟨hx, hy⟩
  · rfl
  · rw [mul_mul_of_zero hx, mul_mul_of_zero hy]

end Alike

end Double

/-! ## Distances -/

/-- A point as it is read after it was stored. -/
def GeoPoint.stored (p : GeoPoint) : GeoPoint :=
  ⟨storedDouble p.lat, storedDouble p.lng⟩

theorem storedDouble_eq_self {x : Float} (h : x ≠ -0.0) :
    storedDouble x = x := by
  unfold storedDouble
  split
  · rename_i hzero
    exact (Double.eq_zero_of_beq hzero h).symm
  · rfl

/-- A point in range or none is read from its columns as it was stored. -/
theorem pointOfColumns_of_inRange {location : Option GeoPoint}
    (h : ∀ p ∈ location, p.inRange = true) :
    pointOfColumns (location.bind (coordinateColumn ·.lat))
      (location.bind (coordinateColumn ·.lng)) =
      .ok (location.map GeoPoint.stored) := by
  cases location with
  | none => rfl
  | some p =>
      obtain ⟨hlat, hlng, hmake⟩ := GeoPoint.columns_of_inRange (h p rfl)
      rw [Option.bind_some, Option.bind_some, hlat, hlng, pointOfColumns, hmake]
      rfl

open Double

/-- A stored point is as far from everywhere as the point. -/
theorem haversineKm_stored (htrig : TrigOfZero) (p q : GeoPoint) :
    haversineKm p.stored q = haversineKm p q := by
  have hlat : Alike p.stored.lat p.lat := alike_storedDouble p.lat
  have hlng : Alike p.stored.lng p.lng := alike_storedDouble p.lng
  have hcos : (radians p.stored.lat).cos = (radians p.lat).cos := by
    rcases hlat.radians with h | ⟨h, h'⟩
    · exact congrArg Float.cos h
    · exact (htrig.cos_eq _ h).trans (htrig.cos_eq _ h').symm
  have hsin {x y : Float} (h : Alike x y) (z : Float) :
      Alike (radians (z - x) * 0.5).sin (radians (z - y) * 0.5).sin := by
    rcases (h.sub_left z).radians.mul_right 0.5 with h | ⟨h, h'⟩
    · exact .inl (congrArg Float.sin h)
    · exact .inr ⟨htrig.sin_eq _ h, htrig.sin_eq _ h'⟩
  unfold haversineKm haversineWith
  dsimp only
  rw [hcos, (hsin hlat q.lat).mul_self, (hsin hlng q.lng).mul_twice]

end Ridehail
