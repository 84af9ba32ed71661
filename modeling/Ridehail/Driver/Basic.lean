import Ridehail.Failure
import Ridehail.Time.Instant

/-!
# Drivers

The record of a driver and the operations on it. An operation that depends on
the status checks it first and changes nothing when it fails.

## Main definitions

* `Driver`, `Driver.register` — the record; a new driver is offline and has no
  known location.
* `Driver.locate`, `goOnline`, `goOffline`, `setEnRoute` — what drivers report.
* `Driver.startRide`, `finishRide`, `leaveRide` — what rides do to a driver.
-/

namespace Ridehail

/-- The record of a driver. -/
structure Driver where
  id : DriverId
  name : String
  phone : Option String
  licensePlate : Option String
  vehicleType : VehicleType
  location : Option GeoPoint
  lastPing : Option Instant
  status : DriverStatus
  createdAt : Instant
  updatedAt : Instant
  deriving DecidableEq, Repr, Inhabited

namespace Driver

/-- A newly registered driver. -/
def register (id : DriverId) (name : String) (now : Instant) : Driver :=
  { id, name, phone := none, licensePlate := none, vehicleType := .standard,
    location := none, lastPing := none, status := .offline, createdAt := now,
    updatedAt := now }

/-- Whether the driver can be given a ride. -/
def isAvailable (d : Driver) : Bool := d.status = .available

/-- The driver in another status. -/
def withStatus (d : Driver) (status : DriverStatus) (now : Instant) : Driver :=
  { d with status, updatedAt := now }

/-- Reports where the driver is. -/
def locate (d : Driver) (p : GeoPoint) (now : Instant) : Driver :=
  { d with location := some p, lastPing := some now, updatedAt := now }

/-- Makes the driver available, who needs a location and must not be on a
ride. -/
def goOnline (d : Driver) (now : Instant) : Except StateError Driver :=
  if d.location.isNone then .error (.driverWithoutLocation d.id)
  else if d.status = .busy ∨ d.status = .enRoute then
    .error (.driverCannot d.id .goOnline d.status)
  else .ok (d.withStatus .available now)

/-- Takes the driver offline, whatever the status. -/
def goOffline (d : Driver) (now : Instant) : Driver := d.withStatus .offline now

/-- Sends the driver on the way, whatever the status. -/
def setEnRoute (d : Driver) (now : Instant) : Driver :=
  d.withStatus .enRoute now

/-- Gives an available driver a ride. -/
def startRide (d : Driver) (now : Instant) : Except StateError Driver :=
  if d.status = .available then .ok (d.withStatus .busy now)
  else .error (.driverCannot d.id .startRide d.status)

/-- Frees a busy driver at the end of a ride. -/
def finishRide (d : Driver) (now : Instant) : Except StateError Driver :=
  if d.status = .busy then .ok (d.withStatus .available now)
  else .error (.driverCannot d.id .finishRide d.status)

/-- Frees a driver whose ride does not take place. -/
def leaveRide (d : Driver) (now : Instant) : Except StateError Driver :=
  if d.status = .busy ∨ d.status = .enRoute then
    .ok (d.withStatus .available now)
  else .error (.driverCannot d.id .leaveRide d.status)

end Driver

end Ridehail
