import Ridehail.Geo.Distance
import Ridehail.Pricing.Surge

/-!
# Fares and quotes

A base fare charges distance and time and has a minimum. The total is the base
fare times the surge and vehicle multipliers, in whole cents. A quote breaks the
fare of a prospective trip down: base fare, surge multiplier at the pickup,
vehicle multiplier and total.

## Main definitions

* `Fare.base`, `Fare.total` — the parts of a fare.
* `Trip.quoteAt`, `SurgeM.quote` — the quote of a trip.
-/

namespace Ridehail

/-! ## Fares -/

namespace Fare

/-- The price of a kilometre. -/
def perKm : Decimal := Decimal.cents 250

/-- The price of a minute. -/
def perMinute : Decimal := Decimal.cents 40

/-- The least base fare. -/
def minimum : Decimal := Decimal.cents 800

/-- The base fare of a decimal distance and a number of minutes. -/
def baseOf (distance : Decimal) (minutes : Int) :
    Except Decimal.Overflow Decimal := do
  let forDistance ← perKm.mul distance
  let forTime ← perMinute.mul (Decimal.ofInt (max minutes 0))
  return (← forDistance.add forTime).larger minimum

/-- The base fare of a trip; a negative distance or duration counts as none. -/
def base (km : Float) (minutes : Int) : Except Decimal.Overflow Decimal :=
  baseOf (Decimal.ofDouble (Double.larger km 0.0)) minutes

/-- The total fare in whole cents. -/
def total (base surge vehicle : Decimal) : Except Decimal.Overflow Decimal := do
  return (← (← base.mul surge).mul vehicle).roundCents

end Fare

/-! ## Quotes -/

/-- The fare of a prospective trip and what it is made of. -/
structure FareQuote where
  distanceKm : Float
  minutes : Int
  baseFare : Decimal
  surge : Decimal
  vehicle : Decimal
  total : Decimal
  deriving DecidableEq, Repr, Inhabited

/-- A quote as JSON. -/
def FareQuote.toJson (q : FareQuote) : Json :=
  .object
    [ ("distanceKm", .ofFloat q.distanceKm),
      ("estimatedMinutes", .int q.minutes),
      ("baseFare", q.baseFare.toJson),
      ("surgeMultiplier", q.surge.toJson),
      ("vehicleMultiplier", q.vehicle.toJson),
      ("total", q.total.toJson),
      ("surgeLevel", .string (Surge.level q.surge)) ]

/-- A prospective trip; the class of the vehicle is given by name. -/
structure Trip where
  pickup : GeoPoint
  destination : GeoPoint
  minutes : Int
  vehicle : String
  deriving DecidableEq, Repr, Inhabited

/-- The quote of a trip at a surge multiplier. -/
def Trip.quoteAt (trip : Trip) (model : SurgeModel) (surge : Decimal) :
    Except Decimal.Overflow FareQuote := do
  let distanceKm := haversineWith model.atan2 trip.pickup trip.destination
  let base ← Fare.base distanceKm trip.minutes
  let vehicle := VehicleType.multiplierOfName trip.vehicle
  let total ← Fare.total base surge vehicle
  return { distanceKm, minutes := trip.minutes, baseFare := base.roundCents,
           surge, vehicle, total }

/-- The quote of a trip at the multiplier of its pickup. -/
def SurgeM.quote (enabled : Bool) (model : SurgeModel) (signals : SurgeSignals)
    (clock : Int) (trip : Trip) (at_ : Instant) : SurgeM FareQuote := do
  let surge ← multiplier enabled model signals clock trip.pickup at_
  exactly (trip.quoteAt model surge)

end Ridehail
