import Ridehail.Decimal.Reader
import Ridehail.Driver.Basic
import Ridehail.Geo.Distance
import Ridehail.Ride.Basic

/-!
# Rows of the store

A record is stored as a row of columns. A point takes two columns that may be
empty one by one, `NaN` is stored as an empty column, zero without its sign, and
an amount as its canonical text. Reading a row checks what the columns do not:
the range of the coordinates and the form of the amount.

## Main definitions

* `DriverRow.ofDriver`, `DriverRow.read` — drivers.
* `RideRow.ofRide`, `RideRow.read` — rides.
-/

namespace Ridehail

/-! ## Columns -/

/-- A double as it is stored: a zero has no sign. -/
def storedDouble (x : Float) : Float := if x == 0.0 then 0.0 else x

/-- A coordinate as a column. -/
def coordinateColumn (x : Float) : Option Float :=
  if x.isNaN then none else some (storedDouble x)

/-- The point of two columns, if neither is empty. -/
def pointOfColumns (lat lng : Option Float) :
    Except StoreFault (Option GeoPoint) :=
  match lat, lng with
  | some lat, some lng =>
      ((GeoPoint.make lat lng).mapError .badCoordinate).map some
  | _, _ => .ok none

/-- The amount of a column. -/
def amountOfColumn : Option String → Except StoreFault (Option Decimal)
  | none => .ok none
  | some text =>
      match Decimal.read text with
      | .ok d => .ok (some d)
      | .error e =>
          .error (.badAmount ("invalid decimal " ++ text ++ ": " ++ e.message))

/-! ## Drivers -/

/-- The columns of a driver. -/
structure DriverRow where
  id : DriverId
  name : String
  phone : Option String
  licensePlate : Option String
  vehicleType : VehicleType
  lat : Option Float
  lng : Option Float
  lastPing : Option Instant
  status : DriverStatus
  createdAt : Instant
  updatedAt : Instant
  deriving DecidableEq, Repr, Inhabited

namespace DriverRow

/-- The row of a driver. -/
def ofDriver (d : Driver) : DriverRow :=
  { id := d.id, name := d.name, phone := d.phone,
    licensePlate := d.licensePlate, vehicleType := d.vehicleType,
    lat := d.location.bind (coordinateColumn ·.lat),
    lng := d.location.bind (coordinateColumn ·.lng), lastPing := d.lastPing,
    status := d.status, createdAt := d.createdAt, updatedAt := d.updatedAt }

/-- The driver of a row. -/
def read (row : DriverRow) : Except StoreFault Driver := do
  let location ← pointOfColumns row.lat row.lng
  return { id := row.id, name := row.name, phone := row.phone,
           licensePlate := row.licensePlate, vehicleType := row.vehicleType,
           location, lastPing := row.lastPing,
           status := row.status, createdAt := row.createdAt,
           updatedAt := row.updatedAt }

/-- An available driver must have a location. -/
def permitted (row : DriverRow) : Bool :=
  row.status ≠ .available || (row.lat.isSome && row.lng.isSome)

/-- The row with a location reported at `at_`. -/
def located (row : DriverRow) (p : GeoPoint) (at_ : Instant) : DriverRow :=
  { row with
    lat := coordinateColumn p.lat, lng := coordinateColumn p.lng
    lastPing := some at_, updatedAt := at_ }

/-- The row with another status. -/
def withStatus (row : DriverRow) (status : DriverStatus) (updatedAt : Instant) :
    DriverRow :=
  { row with status, updatedAt }

/-- Whether the last ping was before an instant. -/
def pingedBefore (row : DriverRow) (t : Instant) : Bool :=
  row.lastPing.any (· < t)

/-- Whether the last ping was at or after an instant. -/
def pingedSince (row : DriverRow) (t : Instant) : Bool :=
  row.lastPing.any (t ≤ ·)

/-- Whether the row lies in a box. -/
def inside (row : DriverRow) (box : GeoBox) : Bool :=
  match row.lat, row.lng with
  | some lat, some lng => box.holds lat lng
  | _, _ => false

end DriverRow

/-! ## Rides -/

/-- The columns of a ride. The pickup columns are never empty. -/
structure RideRow where
  id : RideId
  rider : RiderId
  driver : Option DriverId
  pickupLat : Float
  pickupLng : Float
  destinationLat : Option Float
  destinationLng : Option Float
  status : RideStatus
  fare : Option String
  estimateMinutes : Option Int
  createdAt : Instant
  acceptedAt : Option Instant
  startedAt : Option Instant
  completedAt : Option Instant
  cancelledAt : Option Instant
  updatedAt : Instant
  deriving DecidableEq, Repr, Inhabited

namespace RideRow

/-- The row of a ride. -/
def ofRide (r : Ride) : RideRow :=
  { id := r.id, rider := r.rider, driver := r.driver,
    pickupLat := storedDouble r.pickup.lat,
    pickupLng := storedDouble r.pickup.lng,
    destinationLat := r.destination.bind (coordinateColumn ·.lat),
    destinationLng := r.destination.bind (coordinateColumn ·.lng),
    status := r.status, fare := r.fare.map Decimal.text,
    estimateMinutes := r.estimateMinutes,
    createdAt := r.createdAt, acceptedAt := r.acceptedAt,
    startedAt := r.startedAt, completedAt := r.completedAt,
    cancelledAt := r.cancelledAt, updatedAt := r.updatedAt }

/-- The ride of a row. -/
def read (row : RideRow) : Except StoreFault Ride := do
  let pickup ← (GeoPoint.make row.pickupLat row.pickupLng).mapError
    .badCoordinate
  let destination ← pointOfColumns row.destinationLat row.destinationLng
  let fare ← amountOfColumn row.fare
  return { id := row.id, rider := row.rider, driver := row.driver,
           pickup, destination, status := row.status, fare,
           estimateMinutes := row.estimateMinutes,
           createdAt := row.createdAt, acceptedAt := row.acceptedAt,
           startedAt := row.startedAt, completedAt := row.completedAt,
           cancelledAt := row.cancelledAt,
           updatedAt := row.updatedAt }

/-- The row with everything of a ride that can change after it was requested. -/
def advanced (row : RideRow) (r : Ride) : RideRow :=
  { row with
    driver := r.driver, status := r.status, fare := r.fare.map Decimal.text
    estimateMinutes := r.estimateMinutes, acceptedAt := r.acceptedAt,
    startedAt := r.startedAt
    completedAt := r.completedAt, cancelledAt := r.cancelledAt,
    updatedAt := r.updatedAt }

/-- The row with a ride's driver and acceptance. -/
def assigned (row : RideRow) (r : Ride) (driver : DriverId) : RideRow :=
  { row with
    driver := some driver, status := r.status, acceptedAt := r.acceptedAt
    updatedAt := r.updatedAt }

/-- Whether the ride is its rider's one ride. -/
def holdsRider (row : RideRow) (rider : RiderId) : Bool :=
  row.rider = rider && row.status.isActive

/-- Whether the ride is its driver's one ride. -/
def holdsDriver (row : RideRow) (driver : DriverId) : Bool :=
  row.driver = some driver && row.status.occupiesDriver

/-- Whether the pickup lies in a box. -/
def pickupInside (row : RideRow) (box : GeoBox) : Bool :=
  box.holds row.pickupLat row.pickupLng

end RideRow

end Ridehail
