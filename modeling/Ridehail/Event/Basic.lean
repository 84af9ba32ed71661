import Ridehail.Ride.Record

/-!
# Events

What happens to rides and drivers is announced on three topics: the life of a
ride, the movements of drivers, and assignments. An event is published under the
identifier of what it is about, with its record as the payload.

## Main definitions

* `RideEvent`, `LocationEvent`, `AssignmentEvent` — the records.
* `Event`, `Event.published` — any of them, and the message it is sent as.
-/

namespace Ridehail

/-! ## Records -/

/-- The steps in the life of a ride. -/
inductive RideEventKind where
  | requested
  | accepted
  | started
  | completed
  | cancelled
  deriving DecidableEq, Repr, Inhabited

namespace RideEventKind

/-- The name of a step. -/
def name : RideEventKind → String
  | .requested => "RIDE_REQUESTED"
  | .accepted => "RIDE_ACCEPTED"
  | .started => "RIDE_STARTED"
  | .completed => "RIDE_COMPLETED"
  | .cancelled => "RIDE_CANCELLED"

/-- Every step. -/
def all : List RideEventKind :=
  [.requested, .accepted, .started, .completed, .cancelled]

/-- The step of a name, which has to be exact. -/
def ofName? (name : String) : Option RideEventKind := all.find? (·.name = name)

/-- A step is read back from its name. -/
@[simp] theorem ofName?_name (k : RideEventKind) : ofName? k.name = some k := by
  cases k <;> decide

end RideEventKind

/-- A step in the life of a ride. -/
structure RideEvent where
  kind : RideEventKind
  ride : RideId
  rider : RiderId
  driver : Option DriverId
  pickup : GeoPoint
  destination : Option GeoPoint
  fare : Option Decimal
  estimateMinutes : Option Int
  durationMinutes : Option Int
  initiatedBy : Option String
  timestamp : Instant
  deriving DecidableEq, Repr, Inhabited

/-- The event of a step that a ride has taken. -/
def RideEvent.ofRide (kind : RideEventKind) (r : Ride) (timestamp : Instant) :
    RideEvent :=
  { kind, ride := r.id, rider := r.rider, driver := r.driver,
    pickup := r.pickup, destination := r.destination, fare := r.fare,
    estimateMinutes := r.estimateMinutes,
    durationMinutes := r.durationMinutes, initiatedBy := none, timestamp }

/-- A movement of a driver. -/
structure LocationEvent where
  driver : DriverId
  location : GeoPoint
  heading : Option Float
  speedKmh : Option Float
  accuracyMeters : Option Float
  status : DriverStatus
  timestamp : Instant
  deriving DecidableEq, Repr, Inhabited

/-- The assignment of a driver to a ride. -/
structure AssignmentEvent where
  ride : RideId
  driver : DriverId
  timestamp : Instant
  deriving DecidableEq, Repr, Inhabited

/-- Any event. -/
inductive Event where
  | ride (e : RideEvent)
  | location (e : LocationEvent)
  | assignment (e : AssignmentEvent)
  deriving DecidableEq, Repr

/-! ## Messages -/

/-- The topics that events are published on. -/
inductive Topic where
  | rideEvents
  | driverLocations
  | rideAssignments
  deriving DecidableEq, Repr, Inhabited

namespace Topic

/-- The name of a topic. -/
def name : Topic → String
  | .rideEvents => "ride-events"
  | .driverLocations => "driver-locations"
  | .rideAssignments => "ride-assignments"

/-- Every topic. -/
def all : List Topic := [.rideEvents, .driverLocations, .rideAssignments]

/-- The topic of a name, which has to be exact. -/
def ofName? (name : String) : Option Topic := all.find? (·.name = name)

end Topic

/-- A message on a topic. -/
structure Published where
  topic : Topic
  key : String
  payload : Json
  deriving Inhabited

/-- The one kind of assignment. -/
def driverAssigned : String := "DRIVER_ASSIGNED"

/-- A ride event as JSON. -/
def RideEvent.toJson (e : RideEvent) : Json :=
  .object
    [ ("eventType", .string e.kind.name),
      ("rideId", e.ride.toJson),
      ("riderId", .string e.rider),
      ("driverId", .ofOption .string e.driver),
      ("pickup", e.pickup.toJson),
      ("destination", .ofOption GeoPoint.toJson e.destination),
      ("fareAmount", .ofOption Decimal.toJson e.fare),
      ("estimatedDurationMinutes", .ofOption .int e.estimateMinutes),
      ("actualDurationMinutes", .ofOption .int e.durationMinutes),
      ("initiatedBy", .ofOption .string e.initiatedBy),
      ("timestamp", e.timestamp.toJson) ]

/-- The fields of a ride event. -/
def RideEvent.record : RecordDecoder RideEvent :=
  RideEvent.mk <$> .required "eventType" (Decoder.choice RideEventKind.ofName?)
    <*> .required "rideId" RideId.decoder
    <*> .required "riderId" Decoder.text
    <*> .optional "driverId" Decoder.text
    <*> .required "pickup" GeoPoint.record.decode
    <*> .optional "destination" GeoPoint.record.decode
    <*> .optional "fareAmount" Decimal.decoder
    <*> .optional "estimatedDurationMinutes" Decoder.int64
    <*> .optional "actualDurationMinutes" Decoder.int64
    <*> .optional "initiatedBy" Decoder.text
    <*> .required "timestamp" Instant.decoder

/-- A location event as JSON. -/
def LocationEvent.toJson (e : LocationEvent) : Json :=
  .object
    [ ("driverId", .string e.driver),
      ("location", e.location.toJson),
      ("heading", .ofOption Json.ofFloat e.heading),
      ("speedKmh", .ofOption Json.ofFloat e.speedKmh),
      ("accuracyMeters", .ofOption Json.ofFloat e.accuracyMeters),
      ("status", e.status.toJson),
      ("timestamp", e.timestamp.toJson) ]

/-- The fields of a location event. -/
def LocationEvent.record : RecordDecoder LocationEvent :=
  LocationEvent.mk <$> .required "driverId" Decoder.text
    <*> .required "location" GeoPoint.record.decode
    <*> .optional "heading" Decoder.float
    <*> .optional "speedKmh" Decoder.float
    <*> .optional "accuracyMeters" Decoder.float
    <*> .required "status" DriverStatus.decoder
    <*> .required "timestamp" Instant.decoder

/-- An assignment event as JSON. -/
def AssignmentEvent.toJson (e : AssignmentEvent) : Json :=
  .object
    [ ("rideId", e.ride.toJson),
      ("driverId", .string e.driver),
      ("eventType", .string driverAssigned),
      ("timestamp", e.timestamp.toJson) ]

/-- The fields of an assignment event. -/
def AssignmentEvent.record : RecordDecoder AssignmentEvent :=
  (fun ride driver (_ : Unit) timestamp =>
    AssignmentEvent.mk ride driver timestamp)
    <$> .required "rideId" RideId.decoder
    <*> .required "driverId" Decoder.text
    <*> .required "eventType" (Decoder.choice fun name =>
          if name = driverAssigned then some () else none)
    <*> .required "timestamp" Instant.decoder

namespace Event

/-- The message of an event. -/
def published : Event → Published
  | .ride e => ⟨.rideEvents, e.ride.text, e.toJson⟩
  | .location e => ⟨.driverLocations, e.driver, e.toJson⟩
  | .assignment e => ⟨.rideAssignments, e.ride.text, e.toJson⟩

end Event

/-- A message as JSON. -/
def Published.toJson (p : Published) : Json :=
  .object [("topic", .string p.topic.name), ("key", .string p.key),
    ("payload", p.payload)]

/-- The fields of a message. -/
def Published.record : RecordDecoder Published :=
  Published.mk <$> .required "topic" (Decoder.choice Topic.ofName?)
    <*> .required "key" Decoder.text
    <*> .required "payload" Decoder.json

end Ridehail
