import Ridehail.Decimal.Basic
import Ridehail.Failure
import Ridehail.Time.Instant

/-!
# Rides

The record of a ride and its life: requested, accepted, in progress, completed,
or cancelled before it starts. Every transition checks the status first and
changes nothing when it fails.

## Main definitions

* `Ride`, `Ride.request` — the record; a new ride is requested and has no
  driver.
* `RideAction.allows` — from which statuses each transition starts.
* `Ride.accept`, `start`, `complete`, `cancel` — the transitions.
* `Ride.durationMinutes` — how long a finished ride took.
-/

namespace Ridehail

/-- The record of a ride. -/
structure Ride where
  id : RideId
  rider : RiderId
  driver : Option DriverId
  pickup : GeoPoint
  destination : Option GeoPoint
  status : RideStatus
  fare : Option Decimal
  estimateMinutes : Option Int
  createdAt : Instant
  acceptedAt : Option Instant
  startedAt : Option Instant
  completedAt : Option Instant
  cancelledAt : Option Instant
  updatedAt : Instant
  deriving DecidableEq, Repr, Inhabited

/-- Whether an action may happen to a ride in a status. -/
def RideAction.allows : RideAction → RideStatus → Bool
  | .accept, .requested => true
  | .start, .accepted => true
  | .complete, .inProgress => true
  | .cancel, .requested => true
  | .cancel, .accepted => true
  | _, _ => false

namespace Ride

/-- A new ride. -/
def request (id : RideId) (rider : RiderId) (pickup : GeoPoint)
    (destination : Option GeoPoint) (now : Instant) : Ride :=
  { id, rider, driver := none, pickup, destination,
    status := .requested, fare := none, estimateMinutes := none,
    createdAt := now, acceptedAt := none, startedAt := none,
    completedAt := none, cancelledAt := none, updatedAt := now }

/-- Whether an action may happen to the ride. -/
def can (r : Ride) (action : RideAction) : Bool := action.allows r.status

/-- The ride after an action that may happen to it. -/
def act (r : Ride) (action : RideAction) (after : Ride) :
    Except StateError Ride :=
  if r.can action then .ok after else .error (.rideCannot r.id action r.status)

/-- A driver takes the ride. -/
def accept (r : Ride) (driver : DriverId) (now : Instant) :
    Except StateError Ride :=
  r.act .accept
    { r with
      driver := some driver, status := .accepted, acceptedAt := some now,
      updatedAt := now }

/-- The ride begins. -/
def start (r : Ride) (now : Instant) : Except StateError Ride :=
  r.act .start { r with
    status := .inProgress, startedAt := some now, updatedAt := now }

/-- The ride ends and is paid for. -/
def complete (r : Ride) (fare : Decimal) (now : Instant) :
    Except StateError Ride :=
  r.act .complete
    { r with
      fare := some fare, status := .completed, completedAt := some now,
      updatedAt := now }

/-- The ride does not take place. -/
def cancel (r : Ride) (now : Instant) : Except StateError Ride :=
  r.act .cancel { r with
    status := .cancelled, cancelledAt := some now, updatedAt := now }

/-- The whole minutes from start to completion, if there were both. -/
def durationMinutes (r : Ride) : Option Int := do
  return (← r.startedAt).wholeMinutesUntil (← r.completedAt)

end Ride

end Ridehail
