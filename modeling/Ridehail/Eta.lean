import Ridehail.Geo.Distance
import Ridehail.Time.Local

/-!
# Trip durations

An estimate is a whole number of minutes. The plain estimate drives the
great-circle distance at one speed; the other one takes the traffic of the local
hour and weekday into account. Neither is ever less than a minute. A service may
also be given an estimator of its own.

## Main definitions

* `Eta.straightMinutes`, `Eta.trafficMinutes` — the two estimates of a distance.
* `EtaEstimator` — any way to estimate trips; `straight`, `traffic` and
  `constant` are three of them.
-/

namespace Ridehail

namespace Eta

/-- The speed of the plain estimate in km/h. -/
def plainSpeed : Float := 20.0

/-- A number of minutes rounded to a whole one, at least one; what is no number
counts as one. -/
def wholeMinutes (minutes : Float) : Int :=
  match Double.nearestInt? minutes with
  | some n => max (Double.saturate n) 1
  | none => 1

/-- No estimate is below a minute. -/
theorem one_le_wholeMinutes (minutes : Float) : 1 ≤ wholeMinutes minutes := by
  unfold wholeMinutes
  split
  · exact Int.le_max_right _ _
  · exact Int.le_refl _

/-- Every estimate is a number of 64 bits. -/
theorem isInt64_wholeMinutes (minutes : Float) :
    IsInt64 (wholeMinutes minutes) := by
  refine ⟨Int.le_trans (by decide) (one_le_wholeMinutes minutes), ?_⟩
  unfold wholeMinutes
  split
  · exact Int.max_le.2 ⟨Int.max_le.2 ⟨by decide, Int.min_le_right _ _⟩, by
      decide⟩
  · decide

/-- The minutes for a distance at the plain speed. -/
def straightMinutes (km : Float) : Int := wholeMinutes (km / plainSpeed * 60.0)

/-- The speed of the traffic at a time of day in km/h. -/
def trafficSpeed (t : TimeOfDay) : Float :=
  if t.strictlyBetween 7 10 then 15.0
  else if t.strictlyBetween 17 20 then 12.0
  else if t.isNight then 35.0
  else 25.0

/-- How much longer trips take on a weekday. -/
def dayFactor : Weekday → Float
  | .monday => 1.1
  | .friday => 1.2
  | .saturday => 0.9
  | .sunday => 0.8
  | _ => 1.0

/-- The minutes for a distance in the traffic of a local time. -/
def trafficMinutes (km : Float) (local_ : LocalTime) : Int :=
  wholeMinutes (km / trafficSpeed local_.time * 60.0 * dayFactor local_.weekday)

end Eta

/-- A way to estimate trip durations: the minutes of a trip that is asked for at
an instant, a number of 64 bits. -/
structure EtaEstimator where
  minutes : Instant → GeoPoint → GeoPoint → Int
  isInt64 : ∀ now start stop, IsInt64 (minutes now start stop)

namespace EtaEstimator

/-- Great-circle distance at the plain speed. -/
def straight : EtaEstimator where
  minutes _ start stop := Eta.straightMinutes (haversineKm start stop)
  isInt64 _ _ _ := Eta.isInt64_wholeMinutes _

/-- Great-circle distance in the traffic of a zone `offset` seconds ahead of
UTC. -/
def traffic (offset : Int) : EtaEstimator where
  minutes now start stop :=
    Eta.trafficMinutes (haversineKm start stop) (now.localTime offset)
  isInt64 _ _ _ := Eta.isInt64_wholeMinutes _

/-- Always the same number of minutes. -/
def constant (minutes : Int) (h : IsInt64 minutes) : EtaEstimator where
  minutes _ _ _ := minutes
  isInt64 _ _ _ := h

/-- One of the estimators by distance, which the service comes with. -/
inductive BuiltIn : EtaEstimator → Prop
  | straight : BuiltIn straight
  | traffic (offset : Int) : BuiltIn (traffic offset)

/-- An estimator by distance never estimates less than a minute. -/
theorem BuiltIn.one_le {e : EtaEstimator} (h : e.BuiltIn) (now : Instant)
    (start stop : GeoPoint) : 1 ≤ e.minutes now start stop := by
  cases h with
  | straight => exact Eta.one_le_wholeMinutes _
  | traffic offset => exact Eta.one_le_wholeMinutes _

end EtaEstimator

end Ridehail
