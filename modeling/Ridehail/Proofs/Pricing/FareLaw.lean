import Mathlib.Algebra.Order.Group.MinMax
import Ridehail.Proofs.Decimal.Fitting
import Ridehail.Proofs.Pricing.Fares

/-!
# What a fare comes to

The minutes of a trip are any 64-bit number and its distance may have all the
places that there are, so that a sum or product on the way to a fare may have
more digits than a mantissa and is rounded then.  All of these amounts have room
for nine places.  Five of them are rounded before the total is rounded to cents,
and what the multipliers make of these errors is far below a cent.

A fare grows with all that it is charged for because every operation keeps the
order, whatever number of places it has to round to.

## Main results

* `Fare.baseOf_near`, `Fare.total_near` — fares are computed, and near the exact
  ones.
* `Fare.baseOf_mono`, `Fare.total_mono` — fares keep the order.
* `Fare.Terms.total_spec` — the total fare in terms of what it is charged for.
-/

namespace Ridehail

open Decimal

namespace Fare

/-! ## Nine places -/

/-- An amount with room for nine places is computed, and off by half a unit of
these. -/
theorem near_of_fits {x : ℚ} {d : Decimal} (h : Fits x d) (hx : 0 ≤ x)
    (hroom : x ≤ 7 * 10 ^ 19) :
    0 ≤ d.value ∧ |d.value - x| ≤ 1 / (2 * 10 ^ 9) := by
  refine ⟨h.nonneg hx, h.near 9 (by decide) ?_⟩
  rw [abs_of_nonneg hx, mantissaLimit_eq]
  linarith

/-- What is off by some amount is off by so many times that amount if it is
multiplied. -/
theorem abs_mul_sub_mul_le {x y factor bound error : ℚ} (h : |y - x| ≤ error)
    (hfactor : 0 ≤ factor) (hbound : factor ≤ bound) :
    |y * factor - x * factor| ≤ bound * error := by
  rw [← sub_mul, abs_mul, abs_of_nonneg hfactor, mul_comm]
  exact mul_le_mul hbound h (abs_nonneg _) (hfactor.trans hbound)

/-! ## Base fares -/

/-- The minutes that are charged. -/
def charged (minutes : Int) : ℚ := ((max minutes 0 : Int) : ℚ)

theorem charged_nonneg (minutes : Int) : 0 ≤ charged minutes := by
  unfold charged
  exact_mod_cast le_max_right minutes 0

theorem charged_mono {m n : Int} (h : m ≤ n) : charged m ≤ charged n := by
  unfold charged
  exact_mod_cast max_le_max_right 0 h

theorem value_charged {minutes : Int} (h : minutes ≤ Double.int64Max) :
    (ofInt (max minutes 0)).value = charged minutes ∧
      charged minutes ≤ 2 ^ 63 := by
  have hsmall : (max minutes 0).natAbs < mantissaLimit := by
    unfold Double.int64Max at h
    unfold mantissaLimit
    omega
  have hvalue : (ofInt (max minutes 0)).value = charged minutes :=
    value_ofInt hsmall
  refine ⟨hvalue, ?_⟩
  have hle := abs_value_minutes_le h
  rwa [hvalue, abs_of_nonneg (charged_nonneg _)] at hle

theorem value_perKm : perKm.value = 5 / 2 := by
  rw [perKm, value_cents (by decide)]
  norm_num

theorem value_perMinute : perMinute.value = 2 / 5 := by
  rw [perMinute, value_cents (by decide)]
  norm_num

theorem value_minimum : minimum.value = 8 := by
  rw [minimum, value_cents (by decide)]
  norm_num

/-- The base fare of a distance and minutes if nothing were rounded. -/
def exactBase (distance : ℚ) (minutes : Int) : ℚ :=
  max (5 / 2 * distance + 2 / 5 * charged minutes) 8

variable {distance distance' fare fare' surge surge' vehicle vehicle' sum
  sum' : Decimal} {minutes minutes' : Int}

/-- A base fare is the larger one of the minimum and a sum of two amounts. -/
theorem baseOf_cases (hminutes : minutes ≤ Double.int64Max)
    (h : baseOf distance minutes = .ok fare) :
    ∃ forDistance forTime sum : Decimal,
      Fits (5 / 2 * distance.value) forDistance ∧
      Fits (2 / 5 * charged minutes) forTime ∧
        Fits (forDistance.value + forTime.value) sum ∧
        fare.value = max sum.value 8 := by
  obtain ⟨forDistance, hmul, h⟩ := exists_of_bind h
  obtain ⟨forTime, hmul', h⟩ := exists_of_bind h
  obtain ⟨sum, hadd, h⟩ := exists_of_bind h
  cases h
  have hfits := mul_fits hmul
  have hfits' := mul_fits hmul'
  rw [value_perKm] at hfits
  rw [value_perMinute, (value_charged hminutes).1] at hfits'
  exact ⟨forDistance, forTime, sum, hfits, hfits', add_fits hadd,
    by rw [value_larger, value_minimum]⟩

/-- A longer trip has no smaller base fare. -/
theorem baseOf_mono (hfare : baseOf distance minutes = .ok fare)
    (hfare' : baseOf distance' minutes' = .ok fare')
    (hdistance : distance.value ≤ distance'.value) (hle : minutes ≤ minutes')
    (hminutes' : minutes' ≤ Double.int64Max) :
    fare.value ≤ fare'.value := by
  obtain ⟨forDistance, forTime, sum, hd, ht, hs, hvalue⟩ :=
    baseOf_cases (hle.trans hminutes') hfare
  obtain ⟨forDistance', forTime', sum', hd', ht', hs', hvalue'⟩ :=
    baseOf_cases hminutes' hfare'
  have hforDistance := hd.mono hd' (by linarith)
  have hforTime := ht.mono ht' (by linarith [charged_mono hle])
  have hsum := hs.mono hs' (by linarith)
  rw [hvalue, hvalue']
  exact max_le_max_right 8 hsum

/-- A trip on the earth has a base fare, which is near the exact one. -/
theorem baseOf_near (hnonneg : 0 ≤ distance.value)
    (hdistance : distance.value ≤ 21000)
    (hminutes : minutes ≤ Double.int64Max) :
    ∃ fare, baseOf distance minutes = .ok fare ∧
      |fare.value - exactBase distance.value minutes| ≤ 3 / (2 * 10 ^ 9) := by
  obtain ⟨htime, hlong⟩ := value_charged hminutes
  have hcharged := charged_nonneg minutes
  have hlimit := mantissaLimit_eq
  have hforDistance : perKm.value * distance.value =
      5 / 2 * distance.value := by rw [value_perKm]
  have hforTime : perMinute.value * (ofInt (max minutes 0)).value =
      2 / 5 * charged minutes := by
    rw [value_perMinute, htime]
  obtain ⟨forDistance, hmul, hfits⟩ :=
      exists_mul_fits (a := perKm) (b := distance) (by
    rw [hforDistance, abs_of_nonneg (by linarith)]
    linarith)
  rw [hforDistance] at hfits
  obtain ⟨hd, hdNear⟩ := near_of_fits hfits (by linarith) (by linarith)
  obtain ⟨forTime, hmul', hfits'⟩ :=
      exists_mul_fits (a := perMinute) (b := ofInt (max minutes 0)) (by
    rw [hforTime, abs_of_nonneg (by linarith)]
    linarith)
  rw [hforTime] at hfits'
  obtain ⟨ht, htNear⟩ := near_of_fits hfits' (by linarith) (by linarith)
  rw [abs_le] at hdNear htNear
  have hroom : forDistance.value + forTime.value ≤ 7 * 10 ^ 19 := by linarith
  obtain ⟨sum, hadd, hfits''⟩ :=
      exists_add_fits (a := forDistance) (b := forTime) (by
    rw [abs_of_nonneg (by linarith)]
    linarith)
  obtain ⟨hs, hsNear⟩ := near_of_fits hfits'' (by linarith) hroom
  rw [abs_le] at hsNear
  refine ⟨sum.larger minimum, ?_, ?_⟩
  · unfold baseOf
    rw [hmul, hmul']
    show (do return (← forDistance.add forTime).larger minimum) = _
    rw [hadd]
    rfl
  · rw [value_larger, value_minimum, exactBase]
    refine (abs_max_sub_max_le_abs _ _ _).trans ?_
    rw [abs_le]
    constructor <;> linarith

/-! ## Totals -/

/-- No class of vehicle is cheaper than the standard one, and none costs three
times as much. -/
theorem multiplierOfName_bounds (name : String) :
    1 ≤ (VehicleType.multiplierOfName name).value ∧
      (VehicleType.multiplierOfName name).value ≤ 3 := by
  have hclass (v : VehicleType) :
      1 ≤ v.multiplier.value ∧ v.multiplier.value ≤ 3 := by
    cases v with
    | standard =>
        rw [VehicleType.multiplier, value_one]
        norm_num
    | _ =>
        rw [VehicleType.multiplier, Surge.value_tenths (by decide)]
        norm_num
  unfold VehicleType.multiplierOfName
  split
  · exact hclass _
  · rw [value_one]
    norm_num

/-- A total is a product of two products, in cents. -/
theorem total_cases (h : total fare surge vehicle = .ok sum) :
    ∃ surged product : Decimal, Fits (fare.value * surge.value) surged ∧
      Fits (surged.value * vehicle.value) product ∧
      sum = product.roundCents := by
  obtain ⟨surged, hmul, h⟩ := exists_of_bind h
  obtain ⟨product, hmul', h⟩ := exists_of_bind h
  cases h
  exact ⟨surged, product, mul_fits hmul, mul_fits hmul', rfl⟩

/-- No term of a total makes it smaller by being larger. -/
theorem total_mono (hsum : total fare surge vehicle = .ok sum)
    (hsum' : total fare' surge' vehicle' = .ok sum')
    (hfare : fare.value ≤ fare'.value) (hsurge : surge.value ≤ surge'.value)
    (hvehicle : vehicle.value ≤ vehicle'.value) (hfare' : 0 ≤ fare'.value)
    (hnonneg : 0 ≤ surge.value) (hnonneg' : 0 ≤ vehicle.value) :
    sum.value ≤ sum'.value := by
  obtain ⟨surged, product, hs, hp, rfl⟩ := total_cases hsum
  obtain ⟨surged', product', hs', hp', rfl⟩ := total_cases hsum'
  have hsurged : surged.value ≤ surged'.value :=
    hs.mono hs' (mul_le_mul hfare hsurge hnonneg hfare')
  have hsurged' : 0 ≤ surged'.value :=
    hs'.nonneg (mul_nonneg hfare' (hnonneg.trans hsurge))
  exact value_roundCents_mono
    (hp.mono hp' (mul_le_mul hsurged hvehicle hnonneg' hsurged'))

/-- A total is no less than the base fare, both in cents. -/
theorem roundCents_le_total (hsum : total fare surge vehicle = .ok sum)
    (hfare : 0 ≤ fare.value) (hsurge : 1 ≤ surge.value)
    (hvehicle : 1 ≤ vehicle.value) :
    fare.roundCents.value ≤ sum.value := by
  obtain ⟨surged, product, hs, hp, rfl⟩ := total_cases hsum
  have hsurged : fare.value ≤ surged.value :=
    (fits_value fare).mono hs (le_mul_of_one_le_right hfare hsurge)
  have hproduct : surged.value ≤ product.value :=
    (fits_value surged).mono hp
      (le_mul_of_one_le_right (hfare.trans hsurged) hvehicle)
  exact value_roundCents_mono (hsurged.trans hproduct)

/-- A base fare that is not too large has a total, which is near the exact
one. -/
theorem total_near (hfare : 0 ≤ fare.value) (hroom : fare.value ≤ 4 * 10 ^ 18)
    (hsurge : 0 ≤ surge.value) (hfive : surge.value ≤ 5)
    (hvehicle : 0 ≤ vehicle.value) (hthree : vehicle.value ≤ 3) :
    ∃ sum, total fare surge vehicle = .ok sum ∧ sum.scale ≤ 2 ∧
      |sum.value - fare.value * surge.value * vehicle.value| ≤
        1 / 200 + 4 / (2 * 10 ^ 9) := by
  have hlimit := mantissaLimit_eq
  have hexact : 0 ≤ fare.value * surge.value := mul_nonneg hfare hsurge
  have hexactLe : fare.value * surge.value ≤ 4 * 10 ^ 18 * 5 :=
    mul_le_mul hroom hfive hsurge (by norm_num)
  obtain ⟨surged, hmul, hs⟩ := exists_mul_fits (a := fare) (b := surge) (by
    rw [abs_of_nonneg hexact]
    linarith)
  obtain ⟨hsurged, hsNear⟩ := near_of_fits hs hexact (by linarith)
  have hsurgedLe : surged.value ≤ 2.1 * 10 ^ 19 := by
    linarith [(abs_le.1 hsNear).2]
  have hexact' : 0 ≤ surged.value * vehicle.value := mul_nonneg hsurged hvehicle
  have hexactLe' : surged.value * vehicle.value ≤ 2.1 * 10 ^ 19 * 3 :=
    mul_le_mul hsurgedLe hthree hvehicle (by norm_num)
  obtain ⟨product, hmul', hp⟩ :=
      exists_mul_fits (a := surged) (b := vehicle) (by
    rw [abs_of_nonneg hexact']
    linarith)
  obtain ⟨-, hpNear⟩ := near_of_fits hp hexact' (by linarith)
  refine ⟨product.roundCents, ?_, scale_roundCents_le product, ?_⟩
  · unfold total
    rw [hmul]
    show (do return (← surged.mul vehicle).roundCents) = _
    rw [hmul']
    rfl
  · have hcents := abs_value_roundCents_sub_le product
    have hscaled := abs_mul_sub_mul_le hsNear hvehicle hthree
    rw [abs_le] at hcents hpNear hscaled ⊢
    constructor <;> linarith

/-! ## Fares -/

/-- What a trip is charged for. -/
structure Terms where
  distance : Decimal
  minutes : Int
  surge : Decimal
  vehicle : Decimal
  deriving DecidableEq, Repr

/-- The terms that trips on the earth have: half a great circle is shorter than
21000 km, and the minutes have 64 bits. -/
structure Terms.InRange (t : Terms) : Prop where
  distance_nonneg : 0 ≤ t.distance.value
  distance_le : t.distance.value ≤ 21000
  minutes_le : t.minutes ≤ Double.int64Max
  one_le_surge : 1 ≤ t.surge.value
  surge_le : t.surge.value ≤ 5
  vehicle : ∃ name, t.vehicle = VehicleType.multiplierOfName name

/-- Each of the terms is at most the other one. -/
structure Terms.AtMost (t u : Terms) : Prop where
  distance : t.distance.value ≤ u.distance.value
  minutes : t.minutes ≤ u.minutes
  surge : t.surge.value ≤ u.surge.value
  vehicle : t.vehicle.value ≤ u.vehicle.value

/-- The total fare if nothing were rounded. -/
def Terms.exact (t : Terms) : ℚ :=
  exactBase t.distance.value t.minutes * t.surge.value * t.vehicle.value

/-- `fare` is the base fare of the terms, and `sum` their total fare. -/
def Terms.Cost (t : Terms) (fare sum : Decimal) : Prop :=
  baseOf t.distance t.minutes = .ok fare ∧
    total fare t.surge t.vehicle = .ok sum

variable {t u : Terms}

theorem Terms.InRange.vehicle_bounds (h : t.InRange) :
    1 ≤ t.vehicle.value ∧ t.vehicle.value ≤ 3 := by
  obtain ⟨name, hname⟩ := h.vehicle
  rw [hname]
  exact multiplierOfName_bounds name

/-- Terms in range have a cost, which is near the exact fare. -/
theorem Terms.exists_cost (h : t.InRange) :
    ∃ fare sum, t.Cost fare sum ∧ 8 ≤ fare.value ∧ sum.scale ≤ 2 ∧
      |sum.value - t.exact| ≤ 501 / 100000 := by
  obtain ⟨hone, hthree⟩ := h.vehicle_bounds
  have hsurge := h.one_le_surge
  have hlong := (value_charged h.minutes_le).2
  obtain ⟨fare, hfare, hnear⟩ :=
    baseOf_near h.distance_nonneg h.distance_le h.minutes_le
  have hexact : exactBase t.distance.value t.minutes ≤ 3.9 * 10 ^ 18 := by
    unfold exactBase
    have := h.distance_le
    exact max_le (by linarith) (by norm_num)
  have height : 8 ≤ fare.value := by
    obtain ⟨_, _, sum, _, _, _, hvalue⟩ := baseOf_cases h.minutes_le hfare
    rw [hvalue]
    exact le_max_right _ _
  obtain ⟨sum, hsum, hscale, hnear'⟩ :=
    total_near (show 0 ≤ fare.value by linarith)
    (by linarith [(abs_le.1 hnear).2]) (by linarith) h.surge_le
    (by linarith) hthree
  refine ⟨fare, sum, ⟨hfare, hsum⟩, height, hscale, ?_⟩
  -- What the base fare is off by is multiplied twice.
  have hsurged := abs_mul_sub_mul_le hnear (by linarith) h.surge_le
  have hproduct := abs_mul_sub_mul_le hsurged (by linarith) hthree
  rw [Terms.exact]
  rw [abs_le] at hnear' hproduct ⊢
  constructor <;> linarith

/-- Terms that are at most others cost no more. -/
theorem Terms.Cost.mono {fare sum fare' sum' : Decimal} (h : t.Cost fare sum)
    (h' : u.Cost fare' sum') (ht : t.InRange) (hu : u.InRange)
    (hle : t.AtMost u) (hfare' : 0 ≤ fare'.value) : sum.value ≤ sum'.value := by
  have hfare := baseOf_mono h.1 h'.1 hle.distance hle.minutes hu.minutes_le
  exact total_mono h.2 h'.2 hfare hle.surge hle.vehicle hfare'
    (by linarith [ht.one_le_surge]) (by linarith [ht.vehicle_bounds.1])

/-- A trip on the earth has a base fare and a total.  The base fare is no less
than the minimum.  The total is in cents, no less than the base fare in cents,
near the exact fare, and at most what a trip costs that is charged for no
less. -/
theorem Terms.total_spec (h : t.InRange) :
    ∃ fare sum, t.Cost fare sum ∧
      (∀ km, ofDouble (Double.larger km 0.0) = t.distance →
        base km t.minutes = .ok fare) ∧
      8 ≤ fare.value ∧ sum.scale ≤ 2 ∧ fare.roundCents.value ≤ sum.value ∧
      |sum.value - t.exact| ≤ 501 / 100000 ∧
      ∀ u : Terms, u.InRange → t.AtMost u →
        ∃ fare' sum', u.Cost fare' sum' ∧ sum.value ≤ sum'.value := by
  obtain ⟨fare, sum, hcost, height, hscale, hnear⟩ := exists_cost h
  refine ⟨fare, sum, hcost, ?_, height, hscale, ?_, hnear, ?_⟩
  · rintro km hkm
    rw [base, hkm]
    exact hcost.1
  · exact roundCents_le_total hcost.2 (by linarith) h.one_le_surge
      h.vehicle_bounds.1
  · intro u hu hle
    obtain ⟨fare', sum', hcost', height', -⟩ := exists_cost hu
    exact ⟨fare', sum', hcost', hcost.mono hcost' h hu hle (by linarith)⟩

/-- A trip across town in a large car while demand is high. -/
def Terms.acrossTown : Terms :=
  ⟨tenths 123, 25, tenths 15, VehicleType.multiplierOfName "suv"⟩

theorem Terms.inRange_acrossTown : acrossTown.InRange where
  distance_nonneg := by
    rw [acrossTown, Surge.value_tenths (by decide)]
    norm_num
  distance_le := by
    rw [acrossTown, Surge.value_tenths (by decide)]
    norm_num
  minutes_le := by decide
  one_le_surge := by
    rw [acrossTown, Surge.value_tenths (by decide)]
    norm_num
  surge_le := by
    rw [acrossTown, Surge.value_tenths (by decide)]
    norm_num
  vehicle := ⟨"suv", rfl⟩

theorem Terms.total_spec_acrossTown :
    ∃ fare sum, Terms.acrossTown.Cost fare sum ∧
      (∀ km, ofDouble (Double.larger km 0.0) = Terms.acrossTown.distance →
        base km Terms.acrossTown.minutes = .ok fare) ∧
      8 ≤ fare.value ∧ sum.scale ≤ 2 ∧ fare.roundCents.value ≤ sum.value ∧
      |sum.value - Terms.acrossTown.exact| ≤ 501 / 100000 ∧
      ∀ u : Terms, u.InRange → Terms.acrossTown.AtMost u →
        ∃ fare' sum', u.Cost fare' sum' ∧ sum.value ≤ sum'.value :=
  Terms.total_spec Terms.inRange_acrossTown

end Fare

/-- No quote says a total below its base fare. -/
theorem Trip.baseFare_le_total {trip : Trip} {model : SurgeModel}
    {surge : Decimal} {quote : FareQuote}
    (h : trip.quoteAt model surge = .ok quote)
    (hminutes : trip.minutes ≤ Double.int64Max) (hsurge : 1 ≤ surge.value) :
    quote.baseFare.value ≤ quote.total.value := by
  obtain ⟨fare, hfare, h⟩ := exists_of_bind h
  obtain ⟨sum, hsum, h⟩ := exists_of_bind h
  cases h
  have hnonneg : 0 ≤ fare.value := by
    obtain ⟨_, _, sum, _, _, _, hvalue⟩ := Fare.baseOf_cases hminutes hfare
    rw [hvalue]
    exact le_max_of_le_right (by norm_num)
  exact Fare.roundCents_le_total hsum hnonneg hsurge
    (Fare.multiplierOfName_bounds trip.vehicle).1

end Ridehail
