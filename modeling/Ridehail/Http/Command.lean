import Ridehail.Dispatch.Tracking
import Ridehail.Double.Reader
import Ridehail.Http.MediaType
import Ridehail.Http.Query
import Ridehail.Http.Route

/-!
# Commands

What a request asks for, with everything in it read and checked. A request is
read in the order in which its parts are listed here, so that of two faults the
first one is answered: the identifier in the path has to be text, the query or
the body has to have the right form, and only then are identifiers and
coordinates looked at.

## Main definitions

* `Command` — what can be asked for.
* `Command.read` — the command of a request, or the answer to a faulty one.
-/

namespace Ridehail

/-- What can be asked for. -/
inductive Command where
  | health
  | ready
  | createRide (rider : RiderId) (pickup : GeoPoint)
      (destination : Option GeoPoint)
  | listRidesOfRider (rider : RiderId) (limit : Int)
  | listRidesOfDriver (driver : DriverId) (limit : Int)
  | showRide (id : RideId)
  | startRide (id : RideId) (driver : DriverId)
  | completeRide (id : RideId) (driver : DriverId) (fare : Decimal)
  | cancelRide (id : RideId) (initiatedBy : String)
  | matchRide (id : RideId)
  | registerDriver (application : NewDriver)
  | listNearby (place : GeoPoint) (radiusKm : Float)
  | showDriver (id : DriverId)
  | updateLocation (id : DriverId) (ping : Ping)
  | goOnline (id : DriverId) (place : Option GeoPoint)
  | goOffline (id : DriverId)
  | setEnRoute (id : DriverId)
  | showSurge (place : GeoPoint)
  | estimateFare (pickup destination : GeoPoint) (minutes : Option Int)
      (vehicle : String)

/-! ## Bodies -/

/-- The body of a request for a ride. -/
structure RideRequest where
  rider : RiderId
  pickup : GeoPoint
  destination : Option GeoPoint

/-- The fields of a request for a ride. -/
def RideRequest.record : RecordDecoder RideRequest :=
  RideRequest.mk <$> .required "riderId" Decoder.text
    <*> .required "pickup" GeoPoint.record.decode
    <*> .optional "destination" GeoPoint.record.decode

/-- The field that names the acting driver. -/
def driverField : RecordDecoder DriverId := .required "driverId" Decoder.text

/-- The fields of a completion: the driver and the fare. -/
def completionFields : RecordDecoder (DriverId × Decimal) :=
  Prod.mk <$> driverField <*> .required "fareAmount" Decimal.decoder

/-- The field of a cancellation. -/
def cancellationField : RecordDecoder (Option String) :=
  .optional "initiatedBy" Decoder.text

/-- Who cancels unless it is said. -/
def defaultInitiator : String := "rider"

/-- The fields of a ping. -/
def Ping.record : RecordDecoder Ping :=
  (fun lat lng heading speedKmh accuracyMeters =>
      { location := ⟨lat, lng⟩, heading, speedKmh, accuracyMeters })
    <$> .required "lat" Decoder.float
    <*> .required "lng" Decoder.float
    <*> .optional "heading" Decoder.float
    <*> .optional "speedKmh" Decoder.float
    <*> .optional "accuracyMeters" Decoder.float

/-- The body of a request for an estimate. -/
structure EstimateRequest where
  pickup : GeoPoint
  destination : GeoPoint
  minutes : Option Int
  vehicle : Option String

/-- The fields of a request for an estimate. -/
def EstimateRequest.record : RecordDecoder EstimateRequest :=
  EstimateRequest.mk <$> .required "pickup" GeoPoint.record.decode
    <*> .required "destination" GeoPoint.record.decode
    <*> .optional "estimatedMinutes" Decoder.int64
    <*> .optional "vehicleType" Decoder.text

/-- The class of vehicle that is meant unless it is said. -/
def defaultVehicle : String := VehicleType.standard.name

/-! ## Reading -/

namespace Command

/-- Reading a part of a request, or answering it. -/
abbrev Reading (α : Type) := Except Response α

/-- The answer to a request of the wrong form. -/
def malformed {α : Type} : Reading α := .error (.empty 400)

/-- The identifier in a path. -/
def pathText (raw : String) : Reading String :=
  match Percent.segment? raw with
  | some text => .ok text
  | none => malformed

/-- A ride's identifier. -/
def rideId (raw : String) : Reading RideId :=
  match RideId.read? raw with
  | some id => .ok id
  | none =>
      .error (HttpFailure.badRequest ("Invalid ride id: " ++ raw)).response

/-- A point whose coordinates are in range. -/
def place (p : GeoPoint) : Reading GeoPoint :=
  (GeoPoint.make p.lat p.lng).mapError fun e =>
    (HttpFailure.badRequest e.message).response

/-- A point that need not be given. -/
def optionalPlace : Option GeoPoint → Reading (Option GeoPoint)
  | none => .ok none
  | some p => (place p).map some

/-- The body of a request, which has to be declared as JSON, to be JSON, and to
have the right shape. -/
def body {α : Type} (record : RecordDecoder α) (r : Request) : Reading α :=
  if !(r.contentType.any MediaType.isJson) then .error (.empty 415)
  else
    match record.decode (Document.read r.body) with
    | .ok a => .ok a
    | .error .malformed => .error (.empty 400)
    | .error .shape => .error (.empty 422)

/-- The body of a request that need not have one. -/
def optionalBody {α : Type} (record : RecordDecoder α) (r : Request) :
    Option α :=
  (body record r).toOption

/-- A part of a query. -/
def part {α : Type} : Option α → Reading α
  | some a => .ok a
  | none => malformed

/-- An integer of 64 bits. -/
def readInt64? (text : String) : Option Int :=
  (readInt? text.toList).filter fun n =>
    Double.int64Min ≤ n && n ≤ Double.int64Max

/-- How many rides are listed unless it is said. -/
def defaultListLimit : Int := 50

/-- How many rides are listed at most. -/
def greatestListLimit : Int := 500

/-- The radius of a search unless it is said. -/
def defaultRadiusKm : Float := 5.0

/-- Reads a list of rides: exactly one of rider and driver has to be given. -/
def readList (q : Query) : Reading Command := do
  let rider ← part (q.text? "riderId")
  let driver ← part (q.text? "driverId")
  let limit ← part (q.optional? "limit" readInt64?)
  let limit := max 1 (min greatestListLimit (limit.getD defaultListLimit))
  match rider, driver with
  | some rider, none =>
      if rider.isEmpty then neither else .ok (.listRidesOfRider rider limit)
  | none, some driver =>
      if driver.isEmpty then neither else .ok (.listRidesOfDriver driver limit)
  | _, _ => neither
where
  /-- The answer when neither or both are given. -/
  neither : Reading Command :=
    .error
      (HttpFailure.badRequest
        "Exactly one of riderId or driverId is required").response

/-- Reads the coordinates of a query. -/
def coordinates (q : Query) : Reading GeoPoint := do
  let lat ← part (q.required? "lat" Double.readText?)
  let lng ← part (q.required? "lng" Double.readText?)
  return ⟨lat, lng⟩

/-- Reads what happens to a ride. -/
def readRideStep (raw : String) (step : RideStep) (r : Request) :
    Reading Command := do
  let id ← pathText raw
  match step with
  | .start =>
      let driver ← body driverField r
      return .startRide (← rideId id) driver
  | .complete =>
      let (driver, fare) ← body completionFields r
      return .completeRide (← rideId id) driver fare
  | .cancel =>
      let initiator := (optionalBody cancellationField r).join
      return .cancelRide (← rideId id) (initiator.getD defaultInitiator)
  | .rematch => return .matchRide (← rideId id)

/-- Reads what happens to a driver. -/
def readDriverStep (raw : String) (step : DriverStep) (r : Request) :
    Reading Command := do
  let id ← pathText raw
  match step with
  | .location =>
      let ping ← body Ping.record r
      return .updateLocation id { ping with location := ← place ping.location }
  | .online =>
      return .goOnline id (← optionalPlace (optionalBody GeoPoint.record r))
  | .offline => return .goOffline id
  | .enRoute => return .setEnRoute id

/-- Reads a request that only looks at something. -/
def readGet (route : Route) (r : Request) : Reading Command :=
  match route with
  | .health => .ok .health
  | .ready => .ok .ready
  | .rides => readList r.fields
  | .ride raw => do return .showRide (← rideId (← pathText raw))
  | .nearby => do
      let p ← coordinates r.fields
      let radiusKm ← part (r.fields.optional? "radiusKm" Double.readText?)
      return .listNearby (← place p) (radiusKm.getD defaultRadiusKm)
  | .driver raw => return .showDriver (← pathText raw)
  | .surge => do return .showSurge (← place (← coordinates r.fields))
  | _ => .error (.empty 405)

/-- Reads a request that does something. -/
def readPost (route : Route) (r : Request) : Reading Command :=
  match route with
  | .rides => do
      let asked ← body RideRequest.record r
      let pickup ← place asked.pickup
      return .createRide asked.rider pickup (← optionalPlace asked.destination)
  | .rideStep raw step => readRideStep raw step r
  | .drivers => return .registerDriver (← body NewDriver.record r)
  | .driverStep raw step => readDriverStep raw step r
  | .estimate => do
      let asked ← body EstimateRequest.record r
      let pickup ← place asked.pickup
      let destination ← place asked.destination
      return .estimateFare pickup destination asked.minutes
        (asked.vehicle.getD defaultVehicle)
  | _ => .error (.empty 405)

/-- The command of a request, or the answer to one that cannot be carried out:
an unknown path, a method that the path does not have, or a faulty part. -/
def read (r : Request) : Reading Command :=
  match Route.ofSegments? r.segments with
  | none => .error (.empty 404)
  | some route =>
      if r.method = "GET" || r.method = "HEAD" then readGet route r
      else if r.method = "POST" then readPost route r
      else .error (.empty 405)

end Command

end Ridehail
