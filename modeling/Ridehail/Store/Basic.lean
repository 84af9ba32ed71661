import Ridehail.Store.Row

/-!
# The store

Drivers and rides, one row each. The store keeps rules of its own, whatever the
callers do: an available driver has a location, a rider has one active ride at
most, a driver occupies one ride at most, and the driver of a ride is known.

A write either happens as a whole, or does not apply and answers `false`, or
breaks a rule and fails; only in the first case is the next store another one.

## Main definitions

* `Store`, `Store.driver?`, `Store.ride?` — the rows, found by identifier.
* `Store.brokenRule?` — the rule that a ride's row would break.
* `Store.changeDriver`, `Store.changeRide` — conditional writes, which all
  others are made of.
-/

namespace Ridehail

/-- The rows of all drivers and rides, oldest first. -/
structure Store where
  drivers : List DriverRow := []
  rides : List RideRow := []
  deriving DecidableEq, Repr, Inhabited

/-- What a write gives: whether it applied, and the next store. -/
abbrev Written := Except StoreFault (Bool × Store)

namespace Store

/-- The store without any row. -/
def empty : Store := {}

/-- The row of a driver. -/
def driver? (s : Store) (id : DriverId) : Option DriverRow :=
  s.drivers.find? (·.id = id)

/-- The row of a ride. -/
def ride? (s : Store) (id : RideId) : Option RideRow :=
  s.rides.find? (·.id = id)

/-! ## Rules -/

/-- Whether another ride already takes the place of `row` as the one ride of its
rider or of its driver. -/
def occupied (s : Store) (row : RideRow) : Bool :=
  s.rides.any fun other =>
    other.id ≠ row.id
      && ((row.status.isActive && other.holdsRider row.rider)
        || (row.status.occupiesDriver && row.driver.any other.holdsDriver))

/-- Whether the driver of `row`, if there is one, is known. -/
def driverKnown (s : Store) (row : RideRow) : Bool :=
  row.driver.all fun driver => (s.driver? driver).isSome

/-- The rule that the store would break with `row` in the place of its ride. -/
def brokenRule? (s : Store) (row : RideRow) : Option StoreRule :=
  if s.occupied row then some .unique
  else if s.driverKnown row then none
  else some .foreignKey

/-! ## Writing rows -/

/-- The store with `row` in the place of its driver. -/
def putDriver (s : Store) (row : DriverRow) : Store :=
  { s with
    drivers :=
      s.drivers.map fun other => if other.id = row.id then row else other }

/-- The store with `row` in the place of its ride. -/
def putRide (s : Store) (row : RideRow) : Store :=
  { s with
    rides := s.rides.map fun other => if other.id = row.id then row else other }

/-- Changes the row of a driver if there is one and it meets a condition. -/
def changeDriver (s : Store) (id : DriverId) (applies : DriverRow → Bool)
    (change : DriverRow → DriverRow) : Written :=
  match (s.driver? id).filter applies with
  | none => .ok (false, s)
  | some row =>
      if (change row).permitted then .ok (true, s.putDriver (change row))
      else .error (.broken .check)

/-- Changes the row of a ride if there is one and it meets a condition. -/
def changeRide (s : Store) (id : RideId) (applies : RideRow → Bool)
    (change : RideRow → RideRow) : Written :=
  match (s.ride? id).filter applies with
  | none => .ok (false, s)
  | some row =>
      match s.brokenRule? (change row) with
      | none => .ok (true, s.putRide (change row))
      | some rule => .error (.broken rule)

/-! ## Queries -/

/-- The first `limit` rows, or all of them if the limit is negative. -/
def limited {α : Type} (limit : Int) (rows : List α) : List α :=
  if limit < 0 then rows else rows.take limit.toNat

end Store

end Ridehail
