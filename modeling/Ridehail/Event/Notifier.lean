import Ridehail.Event.Basic

/-!
# Notifications

The life of a ride is told to its rider, and a cancellation also to the driver
who had accepted the ride. A message that is not a readable ride event is passed
over.

## Main definitions

* `StatusUpdate`, `Delivery` — what is told, and to whom.
* `Notifier.deliveriesOf`, `Notifier.handle` — what an event and what a message
  cause.
-/

namespace Ridehail

/-- What someone is told about a ride. -/
structure StatusUpdate where
  ride : RideId
  status : String
  message : String
  details : Json
  deriving Inhabited

/-- A notification and its addressee. -/
inductive Delivery where
  | rider (id : RiderId) (update : StatusUpdate)
  | driver (id : DriverId) (update : StatusUpdate)
  | topic (name : String) (payload : Json)

/-- A status update as JSON. -/
def StatusUpdate.toJson (u : StatusUpdate) : Json :=
  .object
    [ ("rideId", u.ride.toJson),
      ("status", .string u.status),
      ("message", .string u.message),
      ("details", u.details) ]

namespace Notifier

/-- The notifications of a step in the life of a ride. -/
def deliveriesOf (e : RideEvent) : List Delivery :=
  match e.kind with
  | .requested => []
  | .accepted =>
      [.rider e.rider
        { ride := e.ride, status := "ASSIGNED",
          message := "Driver assigned and on the way",
          details := .object [("driverId", .ofOption .string e.driver)] }]
  | .started =>
      [.rider e.rider
        { ride := e.ride, status := "IN_PROGRESS",
          message := "Your ride has started",
          details := .object [("startTime", e.timestamp.toJson)] }]
  | .completed =>
      [.rider e.rider
        { ride := e.ride, status := "COMPLETED",
          message := "Your ride has been completed. Thank you!",
          details := .object
            [ ("fareAmount", .ofOption Decimal.toJson e.fare),
              ("duration", .ofOption .int e.durationMinutes),
              ("completedAt", e.timestamp.toJson) ] }]
  | .cancelled =>
      let toRider : Delivery := .rider e.rider
        { ride := e.ride, status := "CANCELLED",
          message := "Your ride has been cancelled",
          details := .object [("cancelledAt", e.timestamp.toJson)] }
      match e.driver with
      | none => [toRider]
      | some driver =>
          [toRider, .driver driver
            { ride := e.ride, status := "RIDE_CANCELLED",
              message := "Ride has been cancelled",
              details :=
                .object [("initiatedBy", .ofOption .string e.initiatedBy)] }]

/-- The ride event in a message, if it is one and can be read. -/
def rideEvent? (p : Published) : Option RideEvent :=
  if p.topic ≠ .rideEvents then none
  else (RideEvent.record.decode (Document.ofJson p.payload)).toOption

/-- The notifications that a message causes. -/
def handle (p : Published) : List Delivery :=
  match rideEvent? p with
  | some e => deliveriesOf e
  | none => []

/-- The updates among some deliveries that went to a rider. -/
def riderUpdates (rider : RiderId) (deliveries : List Delivery) :
    List StatusUpdate :=
  deliveries.filterMap fun
    | .rider id update => if id = rider then some update else none
    | _ => none

/-- The updates among some deliveries that went to a driver. -/
def driverUpdates (driver : DriverId) (deliveries : List Delivery) :
    List StatusUpdate :=
  deliveries.filterMap fun
    | .driver id update => if id = driver then some update else none
    | _ => none

end Notifier

end Ridehail
