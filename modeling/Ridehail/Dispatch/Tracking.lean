import Ridehail.Dispatch.World
import Ridehail.Text.Basic

/-!
# Drivers

Drivers register, report where they are, go online and offline, and are found
near a point. Every change is stored first and then told to the index; a ping
and a location given on going online are published as well.
-/

namespace Ridehail

/-- A ping: where a driver is, and how the driver moves if that is known. -/
structure Ping where
  location : GeoPoint
  heading : Option Float := none
  speedKmh : Option Float := none
  accuracyMeters : Option Float := none
  deriving DecidableEq, Repr, Inhabited

/-- A driver at a distance. -/
structure NearbyDriver where
  driver : Driver
  distanceKm : Float
  deriving DecidableEq, Repr, Inhabited

/-- The driver registered on an application. -/
def NewDriver.register (n : NewDriver) (now : Instant) : Driver :=
  { Driver.register n.id n.name now with
    phone := n.phone, licensePlate := n.licensePlate,
    vehicleType := n.vehicleType }

namespace Dispatch

variable {σ : Type}

/-! ## Registration -/

/-- Registers a driver. -/
def registerDriver (n : NewDriver) : Dispatch σ Driver := do
  if isBlankText n.id || isBlankText n.name then
    throw (.validation .blankDriver)
  let d := n.register (← now)
  if !(← write (·.insertDriver d)) then
    throw (.conflict (.driverRegistered d.id))
  return d

/-! ## Pings and statuses -/

/-- Publishes a ping if tracking is on. -/
def publishPing (d : Driver) (ping : Ping) (at_ : Instant) :
    Dispatch σ Unit := do
  if ← flag realTimeTracking then
    publish <| .location
      { driver := d.id, location := ping.location, heading := ping.heading,
        speedKmh := ping.speedKmh, accuracyMeters := ping.accuracyMeters,
        status := d.status, timestamp := at_ }

/-- Stores where a driver is, who has to be known. -/
def storePing (id : DriverId) (p : GeoPoint) (at_ : Instant) :
    Dispatch σ Unit := do
  if !(← write (·.locateDriver id p at_)) then throw (.notFound (.driver id))

variable [DriverIndex σ]

/-- Takes a ping. -/
def updateLocation (id : DriverId) (ping : Ping) : Dispatch σ Driver := do
  let at_ ← now
  let d := (← driver id).locate ping.location at_
  storePing id ping.location at_
  indexDriver d
  publishPing d ping at_
  return d

/-- The driver with the location that was given, if one was. -/
def locatedAt (d : Driver) (place : Option GeoPoint) (at_ : Instant) : Driver :=
  match place with
  | some p => d.locate p at_
  | none => d

/-- Makes a driver available, at the location that was given, if one was. -/
def goOnline (id : DriverId) (place : Option GeoPoint) : Dispatch σ Driver := do
  let before ← driver id
  let at_ ← now
  let d ← transition ((locatedAt before place at_).goOnline at_)
  if let some p := place then storePing id p at_
  if !(← write (·.setDriverStatus d [before.status])) then
    throw (.invalidState (.driverChanged id))
  indexDriver d
  if let some p := place then publishPing d { location := p } at_
  return d

/-- Takes a driver offline, whatever the status. -/
def goOffline (id : DriverId) : Dispatch σ Driver := do
  let d := (← driver id).goOffline (← now)
  if !(← write (·.setDriverStatus d DriverStatus.all)) then
    throw (.notFound (.driver id))
  forgetDriver id
  return d

/-- Sends a driver on the way, whatever the status. -/
def setEnRoute (id : DriverId) : Dispatch σ Driver := do
  let d := (← driver id).setEnRoute (← now)
  if !(← write (·.setDriverStatus d DriverStatus.all)) then
    throw (.notFound (.driver id))
  indexDriver d
  return d

omit [DriverIndex σ]

/-! ## Finding drivers -/

/-- How recent the last ping of a nearby driver is, in seconds. -/
def nearbyRecency : Nat := 300

/-- How many drivers a search looks at. -/
def nearbyLimit : Int := 50

/-- A driver with the distance to a point, if it is within the radius. -/
def nearbyTo (p : GeoPoint) (radiusKm : Float) (d : Driver) :
    Option NearbyDriver := do
  let distanceKm := haversineKm p (← d.location)
  if distanceKm ≤ radiusKm then some { driver := d, distanceKm } else none

/-- Some drivers within a radius, nearest first; equally near ones stay in
order. -/
def nearestOf (p : GeoPoint) (radiusKm : Float) (drivers : List Driver) :
    List NearbyDriver :=
  (drivers.filterMap (nearbyTo p radiusKm)).mergeSort fun a b =>
    Double.totalLe a.distanceKm b.distanceKm

/-- The available drivers within a radius that have pinged lately. -/
def nearbyDrivers (p : GeoPoint) (radiusKm : Float) :
    Dispatch σ (List NearbyDriver) := do
  if !radiusKm.isFinite || radiusKm ≤ 0.0 then throw (.validation .badRadius)
  let since := (← now).minusSeconds nearbyRecency
  let drivers ← query
    (·.availableDrivers (GeoBox.around p radiusKm) since nearbyLimit)
  return nearestOf p radiusKm drivers

end Dispatch

/-- A nearby driver as JSON: the driver's record with the distance. -/
def NearbyDriver.toJson (n : NearbyDriver) : Json :=
  .object (n.driver.members ++ [("distanceKm", .ofFloat n.distanceKm)])

end Ridehail
