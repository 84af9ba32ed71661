import Ridehail.Pricing.Quote
import Ridehail.Proofs.Double.Product
import Ridehail.Proofs.Pricing.Multiplier

/-!
# Fares fit

A fare is charged by distance and time and multiplied twice, and none of this
overflows.  The minutes have 64 bits.  The distance is an angle times two and
times the radius of the earth, and an angle is no number or lies between minus
and plus a half turn: that much has to be asked of the platform, which computes
it.

## Main results

* `haversineWith_upTo` — a distance on the earth is no huge double.
* `Fare.exists_base`, `Fare.exists_total` — fares are computed without overflow.
* `Trip.exists_quoteAt` — every trip has a quote at every multiplier.
-/

namespace Ridehail

open Decimal

/-! ## Distances -/

/-- The double nearest to half a turn. -/
def halfTurn : Float := 3.141592653589793

/-- An angle of a direction in the plane is no number, or lies between minus and
plus a half turn. -/
def Angular (atan2 : Float → Float → Float) : Prop :=
  ∀ y x, (atan2 y x).isNaN = true ∨
    (-halfTurn ≤ atan2 y x ∧ atan2 y x ≤ halfTurn)

/-- Angles may all be zero, as the one between a place and itself is. -/
theorem angular_zero : Angular fun _ _ => 0.0 := by
  have hzero : -halfTurn ≤ 0.0 ∧ 0.0 ≤ halfTurn := by decide +kernel
  exact fun _ _ => .inr hzero

namespace Double

theorem upTo_of_isNaN {x : Float} {k : Int} (hk : -1074 ≤ k)
    (h : x.isNaN = true) : UpTo k x := by
  apply upTo_of_unpack hk
  intro s m e hm hx
  have hnan : x.toModel.unpack.isNaN = true := h
  rw [hx] at hnan
  cases hnan

theorem upTo_of_value? {x : Float} {v : Exact} {k : Int} (h : value? x = some v)
    (hk : v.exponent ≤ k) : UpTo k x := by
  intro e he
  rw [h] at he
  cases he
  exact hk

theorem UpTo.mono {j k : Int} {x : Float} (h : UpTo j x) (hjk : j ≤ k) :
    UpTo k x :=
  fun e he => (h e he).trans hjk

theorem UpTo.larger {k : Int} {x y : Float} (hx : UpTo k x) (hy : UpTo k y) :
    UpTo k (larger x y) := by
  unfold Double.larger
  split
  · exact hy
  · split
    · exact hx
    · split
      · exact hy
      · exact hx

end Double

theorem upTo_angle {atan2 : Float → Float → Float} (h : Angular atan2)
    (y x : Float) :
    Double.UpTo (-51) (atan2 y x) := by
  rcases h y x with hnan | hwithin
  · exact Double.upTo_of_isNaN (by decide) hnan
  · have hlow : (-halfTurn).toModel.unpack =
        .finite .negative 7074237752028440 (-51) (by decide) := by rfl
    have hhigh : halfTurn.toModel.unpack =
        .finite .positive 7074237752028440 (-51) (by decide) := by rfl
    exact Double.upTo_of_within (by decide) hlow hhigh hwithin

/-- A distance on the earth has a fraction, if it is a number at all. -/
theorem haversineWith_upTo {atan2 : Float → Float → Float} (h : Angular atan2)
    (a b : GeoPoint) :
    Double.UpTo (-1) (haversineWith atan2 a b) := by
  have hradius : Double.UpTo (-40) earthRadiusKm :=
    Double.upTo_of_value? (v := ⟨false, 7004988580560896, -40⟩)
      (by decide +kernel) (by decide)
  have htwo : Double.UpTo (-51) 2.0 :=
    Double.upTo_of_value? (v := ⟨false, 4503599627370496, -51⟩)
      (by decide +kernel) (by decide)
  exact (hradius.mul (htwo.mul (upTo_angle h _ _))).mono (by decide)

/-! ## Amounts -/

/-- A decimal that is as near as rounding comes is not much larger. -/
theorem Decimal.abs_le_of_near {d : Decimal} {x bound : ℚ}
    (hnear : |d.value - x| ≤ 1 / 2) (hx : |x| ≤ bound) :
    |d.value| ≤ bound + 1 / 2 := by
  have htriangle := abs_add_le (d.value - x) x
  rw [sub_add_cancel] at htriangle
  linarith

namespace Fare

/-- The decimal of a double with a fraction, or of what is no number, is
small. -/
theorem abs_value_ofDouble_le_of_upTo {x : Float} (h : Double.UpTo (-1) x) :
    |(ofDouble x).value| ≤ 2 ^ 52 + 2 := by
  cases hx : Double.value? x with
  | none =>
      unfold ofDouble
      rw [hx, value_zero, abs_zero]
      norm_num
  | some e =>
      have hexponent := h e hx
      exact abs_value_ofDouble_le_of_exponent hx (by omega)

/-- The minutes that are charged, as a decimal. -/
theorem abs_value_minutes_le {minutes : Int} (h : minutes ≤ Double.int64Max) :
    |(ofInt (max minutes 0)).value| ≤ 2 ^ 63 := by
  have hmax : Double.int64Max = 9223372036854775807 := rfl
  have hsmall : (max minutes 0).natAbs < mantissaLimit := by
    unfold mantissaLimit
    omega
  have hcast : ((max minutes 0 : Int) : ℚ) ≤ 2 ^ 63 := by
    have hint : max minutes 0 ≤ 2 ^ 63 := by omega
    exact_mod_cast hint
  have hnonneg : (0 : ℚ) ≤ ((max minutes 0 : Int) : ℚ) := by
    exact_mod_cast le_max_right minutes 0
  rw [value_ofInt hsmall, abs_of_nonneg hnonneg]
  exact hcast

theorem value_cents {n : Nat} (hn : n < mantissaLimit) :
    (cents n).value = n / 100 := by
  rw [cents, value_ofUnits _ hn]
  norm_num

/-- A trip that is not too far has a base fare. -/
theorem exists_base {km : Float} {minutes : Int} (hkm : Double.UpTo (-1) km)
    (hminutes : minutes ≤ Double.int64Max) :
    ∃ fare, base km minutes = .ok fare ∧ |fare.value| ≤ 2 ^ 64 := by
  have hzero : Double.UpTo (-1) 0.0 :=
    Double.upTo_of_value? (v := ⟨false, 0, -1074⟩)
      (by decide +kernel) (by decide)
  have hdistance := abs_value_ofDouble_le_of_upTo (hkm.larger hzero)
  have htime := abs_value_minutes_le hminutes
  generalize hd : ofDouble (Double.larger km 0.0) = distance at hdistance
  generalize ht : ofInt (max minutes 0) = time at htime
  have hlimit := mantissaLimit_eq
  have hforDistance : |perKm.value * distance.value| ≤ 2.5 * (2 ^ 52 + 2) := by
    rw [perKm, value_cents (by decide), abs_mul]
    norm_num
    linarith
  have hforTime : |perMinute.value * time.value| ≤ 0.4 * 2 ^ 63 := by
    rw [perMinute, value_cents (by decide), abs_mul]
    norm_num
    linarith
  obtain ⟨forDistance, hmul, hnear⟩ :=
    mul_near (a := perKm) (b := distance) (by linarith)
  obtain ⟨forTime, hmul', hnear'⟩ :=
    mul_near (a := perMinute) (b := time) (by linarith)
  have hleft := abs_le_of_near hnear hforDistance
  have hright := abs_le_of_near hnear' hforTime
  have hsum := abs_add_le forDistance.value forTime.value
  obtain ⟨sum, hadd, hnear''⟩ :=
    add_near (a := forDistance) (b := forTime) (by linarith)
  have htotal := abs_le_of_near hnear'' hsum
  refine ⟨sum.larger minimum, ?_, ?_⟩
  · unfold base baseOf
    rw [hd, ht, hmul, hmul']
    show (do return (← forDistance.add forTime).larger minimum) = _
    rw [hadd]
    rfl
  · rw [value_larger, minimum, value_cents (by decide)]
    apply abs_max_le_max_abs_abs.trans
    apply max_le
    · linarith
    · norm_num

/-- What a multiplier of at most five makes of an amount that is not too
large. -/
theorem exists_mul {amount factor : Decimal} {bound : ℚ}
    (hamount : |amount.value| ≤ bound)
    (hfactor : 0 ≤ factor.value ∧ factor.value ≤ 5)
    (hbound : 5 * bound ≤ mantissaLimit - 1) :
    ∃ d, amount.mul factor = .ok d ∧ |d.value| ≤ 5 * bound + 1 / 2 := by
  have hprod : |amount.value * factor.value| ≤ 5 * bound := by
    rw [abs_mul, abs_of_nonneg hfactor.1, mul_comm]
    exact mul_le_mul hfactor.2 hamount (abs_nonneg _) (by norm_num)
  obtain ⟨d, hd, hnear⟩ := mul_near (hprod.trans hbound)
  exact ⟨d, hd, abs_le_of_near hnear hprod⟩

theorem value_one : Decimal.one.value = 1 := by
  rw [value_eq_withSign]
  norm_num [Decimal.one, withSign]

theorem vehicle_bounds (name : String) :
    0 ≤ (VehicleType.multiplierOfName name).value ∧
      (VehicleType.multiplierOfName name).value ≤ 5 := by
  have hclass (v : VehicleType) :
      0 ≤ v.multiplier.value ∧ v.multiplier.value ≤ 5 := by
    cases v with
    | standard =>
        rw [VehicleType.multiplier, value_one]
        norm_num
    | _ =>
        rw [VehicleType.multiplier, Surge.value_tenths (by decide)]
        norm_num
  unfold VehicleType.multiplierOfName
  split
  · exact hclass _
  · rw [value_one]
    norm_num

/-- A base fare has a total at any multiplier and for any class of vehicle. -/
theorem exists_total {fare surge : Decimal} (hfare : |fare.value| ≤ 2 ^ 64)
    (hsurge : Surge.IsMultiplier surge) (vehicle : String) :
    ∃ sum, total fare surge (VehicleType.multiplierOfName vehicle) =
      .ok sum := by
  have hlimit := mantissaLimit_eq
  have hfactor : 0 ≤ surge.value ∧ surge.value ≤ 5 :=
    ⟨by linarith [hsurge.one_le], hsurge.le_five⟩
  obtain ⟨surged, hmul, hsurged⟩ :=
    exists_mul hfare hfactor (by rw [hlimit]; norm_num)
  obtain ⟨sum, hmul', -⟩ := exists_mul hsurged (vehicle_bounds vehicle)
    (by rw [hlimit]; norm_num)
  refine ⟨sum.roundCents, ?_⟩
  unfold total
  rw [hmul]
  show (do
    return (← surged.mul (VehicleType.multiplierOfName vehicle)).roundCents) = _
  rw [hmul']
  rfl

end Fare

/-- Every trip has a quote at every multiplier, which says that multiplier. -/
theorem Trip.exists_quoteAt {trip : Trip} {model : SurgeModel} {surge : Decimal}
    (hmodel : Angular model.atan2) (hminutes : trip.minutes ≤ Double.int64Max)
    (hsurge : Surge.IsMultiplier surge) :
    ∃ quote, trip.quoteAt model surge = .ok quote ∧ quote.surge = surge := by
  obtain ⟨base, hbase, hsize⟩ := Fare.exists_base
    (haversineWith_upTo hmodel trip.pickup trip.destination) hminutes
  obtain ⟨total, htotal⟩ := Fare.exists_total hsize hsurge trip.vehicle
  unfold Trip.quoteAt
  dsimp only
  rw [hbase]
  show ∃ quote, (do
    let total ← Fare.total base surge
      (VehicleType.multiplierOfName trip.vehicle)
    return _) = Except.ok quote ∧ _
  rw [htotal]
  exact ⟨_, rfl, rfl⟩

end Ridehail
