import Ridehail.Http.Message

/-!
# Routes

The paths of the service. A path names a route segment by segment; where it
names a driver or a ride, any segment stands for its identifier, still
percent-encoded; only the last segment of a path must not be empty. A fixed
segment comes before one that stands for an identifier.
-/

namespace Ridehail

/-- What can happen to a ride. -/
inductive RideStep where
  | start
  | complete
  | cancel
  | rematch
  deriving DecidableEq, Repr

/-- What can happen to a driver. -/
inductive DriverStep where
  | location
  | online
  | offline
  | enRoute
  deriving DecidableEq, Repr

/-- The routes of the service. -/
inductive Route where
  | health
  | ready
  | rides
  | ride (id : String)
  | rideStep (id : String) (step : RideStep)
  | drivers
  | nearby
  | driver (id : String)
  | driverStep (id : String) (step : DriverStep)
  | surge
  | estimate
  deriving DecidableEq, Repr

namespace RideStep

/-- The last segment of a ride's path. -/
def ofSegment? : String → Option RideStep
  | "start" => some .start
  | "complete" => some .complete
  | "cancel" => some .cancel
  | "match" => some .rematch
  | _ => none

end RideStep

namespace DriverStep

/-- The last segment of a driver's path. -/
def ofSegment? : String → Option DriverStep
  | "location" => some .location
  | "online" => some .online
  | "offline" => some .offline
  | "en-route" => some .enRoute
  | _ => none

end DriverStep

namespace Route

/-- The route of a path given by its segments; the first one is what is before
the first slash. -/
def ofSegments? : List String → Option Route
  | ["", "health"] => some .health
  | ["", "ready"] => some .ready
  | ["", "v1", "rides"] => some .rides
  | ["", "v1", "rides", id] => if id.isEmpty then none else some (.ride id)
  | ["", "v1", "rides", id, step] =>
      (RideStep.ofSegment? step).map (.rideStep id)
  | ["", "v1", "drivers"] => some .drivers
  | ["", "v1", "drivers", "nearby"] => some .nearby
  | ["", "v1", "drivers", id] => if id.isEmpty then none else some (.driver id)
  | ["", "v1", "drivers", id, step] =>
      (DriverStep.ofSegment? step).map (.driverStep id)
  | ["", "v1", "pricing", "surge"] => some .surge
  | ["", "v1", "pricing", "estimate"] => some .estimate
  | _ => none

end Route

end Ridehail
