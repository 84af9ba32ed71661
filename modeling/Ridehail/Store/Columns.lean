import Ridehail.Store.Drivers
import Ridehail.Store.Rides

/-!
# Columns of the store

On disk a row is nothing but its columns. A column holds a text, a whole number,
a real number or nothing; identifiers, statuses and vehicle types are texts,
instants are milliseconds. Values are written in the order of a list of column
names, and a record is made from the columns by name, with an error of its own
for each text that means nothing.

## Main definitions

* `Cell`, `Columns` — what a column holds, and columns by name.
* `RideRow.columns`, `DriverRow.columns` — the columns that are written.
* `Columns.ride`, `Columns.driver` — the records that are read from columns.
* `Ride.changes`, `Columns.set` — the columns that a later step of a ride
  writes.
* `selectRide`, `updateRides`, `selectDriver` — tables of columns.
-/

namespace Ridehail

/-! ## Cells -/

/-- What a column holds. -/
inductive Cell where
  | null
  | integer (n : Int)
  | real (x : Float)
  | text (s : String)
  deriving DecidableEq, Repr, Inhabited

namespace Cell

/-- A value that may be absent. -/
def ofOption {α : Type} (cell : α → Cell) : Option α → Cell
  | none => .null
  | some x => cell x

/-- An instant in milliseconds. -/
def ofInstant (t : Instant) : Cell := .integer t.ms

/-- A text. -/
def text? : Cell → Option String
  | .text s => some s
  | _ => none

/-- A whole number. -/
def integer? : Cell → Option Int
  | .integer n => some n
  | _ => none

/-- A real number. -/
def real? : Cell → Option Float
  | .real x => some x
  | _ => none

/-- An instant. -/
def instant? (cell : Cell) : Option Instant := cell.integer?.map Instant.mk

/-- A value that may be absent. -/
def orNull {α : Type} (value? : Cell → Option α) : Cell → Option (Option α)
  | .null => some none
  | cell => (value? cell).map some

end Cell

/-- Columns by name. -/
abbrev Columns := List (String × Cell)

/-- Why columns make no record: one is missing or has a value of another kind, a
text means nothing, or the store would refuse the row. -/
inductive ColumnFault where
  | mistyped (column : String)
  | meaningless (message : String)
  | refused (fault : StoreFault)
  deriving DecidableEq, Repr

namespace Columns

/-- The value of a column. -/
def value {α : Type} (columns : Columns) (value? : Cell → Option α)
    (name : String) : Except ColumnFault α :=
  match (columns.lookup name).bind value? with
  | some v => .ok v
  | none => .error (.mistyped name)

/-- What a text means. -/
def meaning {α : Type} (read? : String → Option α) (complaint : String)
    (text : String) : Except ColumnFault α :=
  match read? text with
  | some v => .ok v
  | none => .error (.meaningless (complaint ++ text))

/-- Columns in which some have been given other values. -/
def set (columns changes : Columns) : Columns :=
  columns.map fun column => (column.1, (changes.lookup column.1).getD column.2)

end Columns

/-! ## Rides -/

/-- The columns of a ride. -/
def rideColumns : List String :=
  [ "id", "rider_id", "driver_id", "pickup_lat", "pickup_lng",
    "destination_lat", "destination_lng", "status", "fare_amount",
    "estimated_duration_minutes", "created_at_ms",
    "accepted_at_ms", "started_at_ms", "completed_at_ms", "cancelled_at_ms",
    "updated_at_ms" ]

/-- The values of a ride's row, in the order of its columns. -/
def RideRow.values (row : RideRow) : List Cell :=
  [ .text row.id.text, .text row.rider, .ofOption .text row.driver,
    .real row.pickupLat, .real row.pickupLng,
    .ofOption .real row.destinationLat, .ofOption .real row.destinationLng,
    .text row.status.name, .ofOption .text row.fare,
    .ofOption .integer row.estimateMinutes, .ofInstant row.createdAt,
    .ofOption .ofInstant row.acceptedAt,
    .ofOption .ofInstant row.startedAt, .ofOption .ofInstant row.completedAt,
    .ofOption .ofInstant row.cancelledAt, .ofInstant row.updatedAt ]

/-- The columns of a ride's row with their values. -/
def RideRow.columns (row : RideRow) : Columns := rideColumns.zip row.values

/-- The columns that a step of a ride writes. -/
def changedColumns : List String :=
  [ "driver_id", "status", "fare_amount", "estimated_duration_minutes",
    "accepted_at_ms", "started_at_ms", "completed_at_ms", "cancelled_at_ms",
    "updated_at_ms" ]

/-- What a step of a ride writes. -/
def Ride.changes (r : Ride) : Columns :=
  changedColumns.zip
    [ .ofOption .text r.driver, .text r.status.name,
      .ofOption .text (r.fare.map Decimal.text),
      .ofOption .integer r.estimateMinutes, .ofOption .ofInstant r.acceptedAt,
      .ofOption .ofInstant r.startedAt, .ofOption .ofInstant r.completedAt,
      .ofOption .ofInstant r.cancelledAt, .ofInstant r.updatedAt ]

namespace Columns

/-- The ride of its columns. -/
def ride (columns : Columns) : Except ColumnFault Ride := do
  let idText ← columns.value Cell.text? "id"
  let id ← meaning RideId.read? "invalid ride id " idText
  let pickupLat ← columns.value Cell.real? "pickup_lat"
  let pickupLng ← columns.value Cell.real? "pickup_lng"
  let some pickup ← (pointOfColumns (some pickupLat) (some pickupLng)).mapError
    .refused | throw (.meaningless ("ride " ++ idText ++ " has no pickup"))
  let rider ← columns.value Cell.text? "rider_id"
  let driver ← columns.value (Cell.orNull Cell.text?) "driver_id"
  let destinationLat ← columns.value (Cell.orNull Cell.real?) "destination_lat"
  let destinationLng ← columns.value (Cell.orNull Cell.real?) "destination_lng"
  let destination ← (pointOfColumns destinationLat destinationLng).mapError
    .refused
  let status ← meaning RideStatus.ofName? "unknown ride status "
    (← columns.value Cell.text? "status")
  let fareText ← columns.value (Cell.orNull Cell.text?) "fare_amount"
  let fare ← (amountOfColumn fareText).mapError .refused
  let estimateMinutes ← columns.value (Cell.orNull Cell.integer?)
    "estimated_duration_minutes"
  let createdAt ← columns.value Cell.instant? "created_at_ms"
  let acceptedAt ← columns.value (Cell.orNull Cell.instant?) "accepted_at_ms"
  let startedAt ← columns.value (Cell.orNull Cell.instant?) "started_at_ms"
  let completedAt ← columns.value (Cell.orNull Cell.instant?) "completed_at_ms"
  let cancelledAt ← columns.value (Cell.orNull Cell.instant?) "cancelled_at_ms"
  let updatedAt ← columns.value Cell.instant? "updated_at_ms"
  return { id, rider, driver, pickup, destination, status, fare,
           estimateMinutes, createdAt, acceptedAt, startedAt, completedAt,
           cancelledAt, updatedAt }

end Columns

/-- The record of a ride, looked up in a table of columns. -/
def selectRide (table : List Columns) (id : RideId) :
    Except ColumnFault (Option Ride) :=
  match table.find? fun columns =>
    columns.lookup "id" = some (.text id.text) with
  | none => .ok none
  | some columns => columns.ride.map some

/-- A table of columns after a step of a ride that was still to have a
status. -/
def updateRides (table : List Columns) (r : Ride) (expected : RideStatus) :
    List Columns :=
  table.map fun columns =>
    if columns.lookup "id" = some (.text r.id.text)
        ∧ columns.lookup "status" = some (.text expected.name) then
      columns.set r.changes
    else columns

/-! ## Drivers -/

/-- The columns of a driver. -/
def driverColumns : List String :=
  [ "id", "name", "phone", "license_plate", "vehicle_type", "lat", "lng",
    "last_location_update_ms", "status", "created_at_ms", "updated_at_ms" ]

/-- The values of a driver's row, in the order of its columns. -/
def DriverRow.values (row : DriverRow) : List Cell :=
  [ .text row.id, .text row.name, .ofOption .text row.phone,
    .ofOption .text row.licensePlate, .text row.vehicleType.name,
    .ofOption .real row.lat, .ofOption .real row.lng,
    .ofOption .ofInstant row.lastPing, .text row.status.name,
    .ofInstant row.createdAt, .ofInstant row.updatedAt ]

/-- The columns of a driver's row with their values. -/
def DriverRow.columns (row : DriverRow) : Columns :=
  driverColumns.zip row.values

namespace Columns

/-- The driver of their columns. -/
def driver (columns : Columns) : Except ColumnFault Driver := do
  let id ← columns.value Cell.text? "id"
  let name ← columns.value Cell.text? "name"
  let phone ← columns.value (Cell.orNull Cell.text?) "phone"
  let licensePlate ← columns.value (Cell.orNull Cell.text?) "license_plate"
  let vehicleType ← meaning VehicleType.ofName? "unknown vehicle type "
    (← columns.value Cell.text? "vehicle_type")
  let lat ← columns.value (Cell.orNull Cell.real?) "lat"
  let lng ← columns.value (Cell.orNull Cell.real?) "lng"
  let location ← (pointOfColumns lat lng).mapError .refused
  let lastPing ← columns.value (Cell.orNull Cell.instant?)
    "last_location_update_ms"
  let status ← meaning DriverStatus.ofName? "unknown driver status "
    (← columns.value Cell.text? "status")
  let createdAt ← columns.value Cell.instant? "created_at_ms"
  let updatedAt ← columns.value Cell.instant? "updated_at_ms"
  return { id, name, phone, licensePlate, vehicleType, location, lastPing,
           status, createdAt, updatedAt }

end Columns

/-- The record of a driver, looked up in a table of columns. -/
def selectDriver (table : List Columns) (id : DriverId) :
    Except ColumnFault (Option Driver) :=
  match table.find? fun columns => columns.lookup "id" = some (.text id) with
  | none => .ok none
  | some columns => columns.driver.map some

/-! ## Tables -/

namespace Store

/-- The table of all rides. -/
def rideTable (s : Store) : List Columns := s.rides.map RideRow.columns

/-- The table of all drivers. -/
def driverTable (s : Store) : List Columns := s.drivers.map DriverRow.columns

end Store

end Ridehail
