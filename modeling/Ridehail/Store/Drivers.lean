import Ridehail.Store.Basic

/-!
# Drivers in the store

Registration, pings and changes of status. A change of status names the statuses
it may start from, so a change that was decided on an old record does not apply
once the driver has moved on.
-/

namespace Ridehail.Store

/-- Adds a driver unless the identifier is taken. -/
def insertDriver (s : Store) (d : Driver) : Written :=
  let row := DriverRow.ofDriver d
  if !row.permitted then .error (.broken .check)
  else if (s.driver? d.id).isSome then .ok (false, s)
  else .ok (true, { s with drivers := s.drivers ++ [row] })

/-- The record of a driver. -/
def findDriver (s : Store) (id : DriverId) :
    Except StoreFault (Option Driver) :=
  match s.driver? id with
  | none => .ok none
  | some row => row.read.map some

/-- Stores a ping; the status stays. -/
def locateDriver (s : Store) (id : DriverId) (p : GeoPoint) (at_ : Instant) :
    Written :=
  s.changeDriver id (fun _ => true) fun row => row.located p at_

/-- Stores the status of `d` if the stored one is among `expected`. -/
def setDriverStatus (s : Store) (d : Driver) (expected : List DriverStatus) :
    Written :=
  s.changeDriver d.id (fun row => expected.contains row.status) fun row =>
    row.withStatus d.status d.updatedAt

/-- Stores that `d` is offline if its status is still `expected` and it has not
pinged since `cutoff`. -/
def markOfflineIfStale (s : Store) (d : Driver) (expected : DriverStatus)
    (cutoff : Instant) : Written :=
  s.changeDriver d.id (fun row =>
    row.status = expected && row.pingedBefore cutoff) fun row =>
    row.withStatus .offline d.updatedAt

/-! ## Queries -/

/-- Later pings first, then by identifier. -/
def latestPingFirst (a b : DriverRow) : Bool :=
  match a.lastPing, b.lastPing with
  | some s, some t => t < s || (s = t && !(b.id < a.id))
  | _, _ => true

/-- Earlier pings first, then by identifier. -/
def earliestPingFirst (a b : DriverRow) : Bool :=
  match a.lastPing, b.lastPing with
  | some s, some t => s < t || (s = t && !(b.id < a.id))
  | _, _ => true

/-- The available drivers in a box that pinged at or after `since`, those with
the latest pings first, up to a limit. -/
def availableDrivers (s : Store) (box : GeoBox)
    (since : Instant) (limit : Int) : Except StoreFault (List Driver) :=
  let rows := s.drivers.filter fun row =>
    row.status = .available && row.inside box && row.pingedSince since
  (limited limit (rows.mergeSort latestPingFirst)).mapM DriverRow.read

/-- The drivers that are not offline and whose last ping was before `cutoff`,
those with the earliest pings first. -/
def staleDrivers (s : Store) (cutoff : Instant) :
    Except StoreFault (List Driver) :=
  let rows :=
    s.drivers.filter fun row => row.status ≠ .offline && row.pingedBefore cutoff
  (rows.mergeSort earliestPingFirst).mapM DriverRow.read

end Ridehail.Store
