import Ridehail.Dispatch.Matching
import Ridehail.Dispatch.Sweep

/-!
# Calls of the service

The calls that change rides or drivers, each with its arguments, so that one
statement can be about all of them.  A call `perform`s one operation and answers
with what that operation answers.

The points that callers pass are points, that is, in range; where that matters
for the destination of a ride, it is asked for by `ServiceCall.Located`.  A call
that is given a record of a ride may be given one of any age.
-/

namespace Ridehail

/-- The calls of the service that change rides or drivers. -/
inductive ServiceCall where
  | createRide (rider : RiderId) (pickup : GeoPoint)
      (destination : Option GeoPoint) (hpickup : pickup.inRange = true)
  | retryMatching (id : RideId)
  | matchRide (r : Ride)
  | assignRide (r : Ride) (driver : DriverId)
  | startRide (id : RideId) (driver : DriverId)
  | completeRide (id : RideId) (driver : DriverId) (fare : Decimal)
  | cancelRide (id : RideId) (initiatedBy : String)
  | registerDriver (n : NewDriver)
  | updateLocation (id : DriverId) (ping : Ping)
      (hping : ping.location.inRange = true)
  | goOnline (id : DriverId) (place : Option GeoPoint)
      (hplace : ∀ p ∈ place, p.inRange = true)
  | goOffline (id : DriverId)
  | setEnRoute (id : DriverId)
  | sweep (at_ : Instant)

/-- What a call answers. -/
inductive Answer where
  | ride (r : Ride)
  | driver (d : Driver)
  | claimed (r : Option Ride)
  | swept (report : SweepReport)

namespace ServiceCall

/-- The destination that the call gives, if it gives one, is a point. -/
def Located : ServiceCall → Prop
  | .createRide _ _ destination _ => ∀ p ∈ destination, p.inRange = true
  | _ => True

/-- The records of rides that the call is given. -/
def copies : ServiceCall → List Ride
  | .matchRide r => [r]
  | .assignRide r _ => [r]
  | _ => []

variable {σ : Type} [DriverIndex σ]

/-- What the service does on a call. -/
def perform (setup : Setup) : ServiceCall → Dispatch σ Answer
  | .createRide rider pickup destination _ =>
      .ride <$> Dispatch.createRide setup rider pickup destination
  | .retryMatching id => .ride <$> Dispatch.retryMatching setup.matching id
  | .matchRide r => .claimed <$> Dispatch.matchRide setup.matching r
  | .assignRide r driver => .claimed <$> Dispatch.assignRide r driver
  | .startRide id driver => .ride <$> Dispatch.startRide id driver
  | .completeRide id driver fare =>
      .ride <$> Dispatch.completeRide id driver fare
  | .cancelRide id initiatedBy => .ride <$> Dispatch.cancelRide id initiatedBy
  | .registerDriver n => .driver <$> Dispatch.registerDriver n
  | .updateLocation id ping _ => .driver <$> Dispatch.updateLocation id ping
  | .goOnline id place _ => .driver <$> Dispatch.goOnline id place
  | .goOffline id => .driver <$> Dispatch.goOffline id
  | .setEnRoute id => .driver <$> Dispatch.setEnRoute id
  | .sweep at_ => .swept <$> Dispatch.sweepAt setup.tracking at_

end ServiceCall

end Ridehail
