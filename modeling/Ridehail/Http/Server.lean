import Ridehail.Http.Command
import Ridehail.Platform
import Ridehail.Ride.Record

/-!
# The service over HTTP

A request is read as a command, the command is carried out, and its result or
its failure is answered. A request that cannot be read changes nothing.

## Main definitions

* `Command.perform` — carrying out a command.
* `Server.respond` — the answer to a request and the platform after it.
-/

namespace Ridehail

namespace Command

variable {σ : Type}

/-- The answer with a list under a name. -/
def listing {α : Type} (name : String) (toJson : α → Json) (items : List α) :
    Response :=
  .json 200 (.object [(name, .array (items.map toJson))])

/-- The answer with a status word. -/
def statusWord (word : String) : Response :=
  .json 200 (.object [("status", .string word)])

/-- The answer with a ride. -/
def rideAnswer (x : Dispatch σ Ride) : Service σ Response :=
  return .json 200 (← Service.onWorld x).toJson

/-- The answer with a driver. -/
def driverAnswer (x : Dispatch σ Driver) : Service σ Response :=
  return .json 200 (← Service.onWorld x).toJson

/-- The answer with a multiplier, its level and the one to expect. -/
def surgeAnswer (outlook : Decimal × Decimal) : Response :=
  .json 200 <| .object
    [ ("multiplier", outlook.1.toJson),
      ("level", .string (Surge.level outlook.1)),
      ("predictedNextHour", outlook.2.toJson) ]

/-- Carries out a command. -/
def perform [DriverIndex σ] (setup : Setup) : Command → Service σ Response
  | .health => return statusWord "ok"
  | .ready => return statusWord "ready"
  | .createRide rider pickup destination => do
      let r ← Service.onWorld
        (Dispatch.createRide setup rider pickup destination)
      return .json 201 r.toJson
  | .listRidesOfRider rider limit => do
      return listing "rides" Ride.toJson
        (← Service.onWorld (Dispatch.ridesOfRider rider limit))
  | .listRidesOfDriver driver limit => do
      return listing "rides" Ride.toJson
        (← Service.onWorld (Dispatch.ridesOfDriver driver limit))
  | .showRide id => rideAnswer (Dispatch.ride id)
  | .startRide id driver => rideAnswer (Dispatch.startRide id driver)
  | .completeRide id driver fare =>
      rideAnswer (Dispatch.completeRide id driver fare)
  | .cancelRide id initiatedBy =>
      rideAnswer (Dispatch.cancelRide id initiatedBy)
  | .matchRide id => rideAnswer (Dispatch.retryMatching setup.matching id)
  | .registerDriver application => do
      return .json 201
        (← Service.onWorld (Dispatch.registerDriver application)).toJson
  | .listNearby place radiusKm => do
      return listing "drivers" NearbyDriver.toJson
        (← Service.onWorld (Dispatch.nearbyDrivers place radiusKm))
  | .showDriver id => driverAnswer (Dispatch.driver id)
  | .updateLocation id ping => driverAnswer (Dispatch.updateLocation id ping)
  | .goOnline id place => driverAnswer (Dispatch.goOnline id place)
  | .goOffline id => driverAnswer (Dispatch.goOffline id)
  | .setEnRoute id => driverAnswer (Dispatch.setEnRoute id)
  | .showSurge place => return surgeAnswer (← Service.outlook setup place)
  | .estimateFare pickup destination minutes vehicle => do
      return .json 200
        (← Service.estimateFare setup pickup destination minutes vehicle).toJson

end Command

namespace Server

variable {σ : Type}

/-- How a failure of the platform is answered. -/
def failure : ServiceError → HttpFailure
  | .dispatch e => .ofError e
  | .overflow e => .internal e.message

/-- The answer to what a command came to. -/
def answer : Except ServiceError Response → Response
  | .ok response => response
  | .error e => (failure e).response

/-- Carries out a request other than `OPTIONS`. -/
def handle [DriverIndex σ] (setup : Setup) (r : Request) (p : Platform σ) :
    Response × Platform σ :=
  match Command.read r with
  | .error response => (response, p)
  | .ok command =>
      let (result, next) := (command.perform setup).runOn p
      (answer result, next)

/-- The answer to a request and the platform after it. `OPTIONS` is always
granted, and `HEAD` is answered like `GET` without the body. -/
def respond [DriverIndex σ] (setup : Setup) (r : Request) (p : Platform σ) :
    Response × Platform σ :=
  if r.method = "OPTIONS" then (.empty 200, p)
  else
    let (response, next) := handle setup r p
    (if r.method = "HEAD" then .empty response.status else response, next)

end Server

end Ridehail
