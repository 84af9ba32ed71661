/-!
# Ride statuses

A ride is requested, accepted by a driver, in progress, and then completed; it
may be cancelled until it starts. The first three statuses are active: a rider
has one active ride at most, and so has a driver.
-/

namespace Ridehail

/-- The identifier of a rider. -/
abbrev RiderId := String

/-- How far a ride has come. -/
inductive RideStatus where
  | requested
  | accepted
  | inProgress
  | completed
  | cancelled
  deriving DecidableEq, Repr, Inhabited

namespace RideStatus

/-- The name a status is written with. -/
def name : RideStatus → String
  | .requested => "REQUESTED"
  | .accepted => "ACCEPTED"
  | .inProgress => "IN_PROGRESS"
  | .completed => "COMPLETED"
  | .cancelled => "CANCELLED"

/-- Every status. -/
def all : List RideStatus :=
  [.requested, .accepted, .inProgress, .completed, .cancelled]

/-- The status of a name, which has to be exact. -/
def ofName? (name : String) : Option RideStatus := all.find? (·.name = name)

/-- A status is read back from its name. -/
@[simp] theorem ofName?_name (s : RideStatus) : ofName? s.name = some s := by
  cases s <;> decide

/-- Whether a ride counts as its rider's one ride. -/
def isActive : RideStatus → Bool
  | .requested => true
  | .accepted => true
  | .inProgress => true
  | _ => false

/-- Whether a ride counts as its driver's one ride. -/
def occupiesDriver : RideStatus → Bool
  | .accepted => true
  | .inProgress => true
  | _ => false

/-- Whether a ride is over. -/
def isTerminal : RideStatus → Bool
  | .completed => true
  | .cancelled => true
  | _ => false

end RideStatus

end Ridehail
