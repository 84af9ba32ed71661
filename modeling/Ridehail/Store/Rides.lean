import Ridehail.Store.Basic

/-!
# Rides in the store

A ride is added only while its rider is idle. Its later steps are conditional on
the stored status, and an assignment writes the ride and its driver together or
not at all.
-/

namespace Ridehail.Store

/-- Whether a rider has an active ride. -/
def riderActive (s : Store) (rider : RiderId) : Bool :=
  s.rides.any (·.holdsRider rider)

/-- Adds a ride unless its rider has an active one, its identifier is taken or
its driver is taken. -/
def insertRide (s : Store) (r : Ride) : Written :=
  let row := RideRow.ofRide r
  if s.riderActive r.rider then .ok (false, s)
  else if row.pickupLat.isNaN || row.pickupLng.isNaN then
    .error (.broken .notNull)
  else if (s.ride? r.id).isSome then .ok (false, s)
  else
    match s.brokenRule? row with
    | none => .ok (true, { s with rides := s.rides ++ [row] })
    | some .unique => .ok (false, s)
    | some rule => .error (.broken rule)

/-- The record of a ride. -/
def findRide (s : Store) (id : RideId) : Except StoreFault (Option Ride) :=
  match s.ride? id with
  | none => .ok none
  | some row => row.read.map some

/-- Stores a ride that has taken a step, if the stored status is still
`expected`. -/
def advanceRide (s : Store) (r : Ride) (expected : RideStatus) : Written :=
  s.changeRide r.id (fun row => row.status = expected) fun row => row.advanced r

/-- Stores that `r` was accepted by `d`, if the driver is still available and
the ride still requested; otherwise neither is changed. -/
def assignRide (s : Store) (r : Ride) (d : Driver) : Written := do
  let (claimed, next) ← s.changeDriver d.id
      (fun row => row.status = .available) fun row =>
    row.withStatus d.status d.updatedAt
  if !claimed then return (false, s)
  match next.changeRide r.id (fun row => row.status = .requested) (fun row =>
    row.assigned r d.id) with
  | .ok (true, last) => return (true, last)
  | .ok (false, _) => return (false, s)
  | .error (.broken .unique) => return (false, s)
  | .error fault => throw fault

/-! ## Queries -/

/-- Later rides first, then by identifier. -/
def newestFirst (a b : RideRow) : Bool :=
  b.createdAt < a.createdAt || (a.createdAt = b.createdAt && a.id.le b.id)

/-- The rides that meet a condition, newest first, up to a limit. -/
def ridesWhere (s : Store) (meets : RideRow → Bool) (limit : Int) :
    Except StoreFault (List Ride) :=
  (limited limit ((s.rides.filter meets).mergeSort newestFirst)).mapM
    RideRow.read

/-- The rides of a rider. -/
def ridesOfRider (s : Store) (rider : RiderId) (limit : Int) :
    Except StoreFault (List Ride) :=
  s.ridesWhere (·.rider = rider) limit

/-- The rides of a driver. -/
def ridesOfDriver (s : Store) (driver : DriverId) (limit : Int) :
    Except StoreFault (List Ride) :=
  s.ridesWhere (·.driver = some driver) limit

/-- How many requested rides have their pickup in a box. -/
def pendingRides (s : Store) (box : GeoBox) : Nat :=
  (s.rides.filter fun row =>
    row.status = .requested && row.pickupInside box).length

end Ridehail.Store
