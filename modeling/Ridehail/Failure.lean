import Ridehail.Driver.Status
import Ridehail.Geo.Point
import Ridehail.Ride.Id
import Ridehail.Ride.Status

/-!
# Failures

Every failure is a cause: what was asked for, of whom, and why it cannot be. The
wording of each cause is in one place, and so is the kind of failure it counts
as, which decides how it is reported.

## Main definitions

* `StateError`, `ValidationError`, `ConflictError`, `MissingRecord` — what
  callers did wrong.
* `IndexError`, `StoreFault` — what the driver index and the store refuse.
* `DispatchError` — any of them; `DispatchError.kind`, `.detail`, `.message`.
-/

namespace Ridehail

/-! ## Causes -/

/-- What a driver may be asked to do. -/
inductive DriverAction where
  | goOnline
  | startRide
  | finishRide
  | leaveRide
  deriving DecidableEq, Repr

/-- The action as it follows "cannot". -/
def DriverAction.phrase : DriverAction → String
  | .goOnline => "go online"
  | .startRide => "start a ride"
  | .finishRide => "finish a ride"
  | .leaveRide => "be released from a ride"

/-- What may happen to a ride. -/
inductive RideAction where
  | accept
  | start
  | complete
  | cancel
  deriving DecidableEq, Repr

/-- The action as it follows "cannot be". -/
def RideAction.phrase : RideAction → String
  | .accept => "accepted"
  | .start => "started"
  | .complete => "completed"
  | .cancel => "cancelled"

/-- A record is not in the state that an operation needs. -/
inductive StateError where
  | driverWithoutLocation (id : DriverId)
  | driverCannot (id : DriverId) (action : DriverAction) (status : DriverStatus)
  | driverChanged (id : DriverId)
  | rideCannot (id : RideId) (action : RideAction) (status : RideStatus)
  | rideChanged (id : RideId) (expected : RideStatus)
  | rideNotAwaiting (id : RideId) (status : RideStatus)
  deriving DecidableEq, Repr

/-- The wording of a state error. -/
def StateError.message : StateError → String
  | .driverWithoutLocation id =>
      "driver " ++ id ++ " cannot go online without a location"
  | .driverCannot id action status =>
      "driver " ++ id ++ " cannot " ++ action.phrase ++
        " in status " ++ status.name
  | .driverChanged id => "driver " ++ id ++ " changed status concurrently"
  | .rideCannot id action status =>
      "ride " ++ id.text ++ " cannot be " ++ action.phrase ++
        " in status " ++ status.name
  | .rideChanged id expected =>
      "ride " ++ id.text ++ " changed concurrently, expected " ++ expected.name
  | .rideNotAwaiting id status =>
      "ride " ++ id.text ++ " is " ++ status.name ++ ", not awaiting a driver"

/-- An argument that no state would make valid. -/
inductive ValidationError where
  | coordinate (cause : CoordinateError)
  | blankRider
  | blankDriver
  | negativeFare
  | badRadius
  | driverNotAssigned (driver : DriverId) (ride : RideId)
  deriving DecidableEq, Repr

/-- The wording of a validation error. -/
def ValidationError.message : ValidationError → String
  | .coordinate cause => cause.message
  | .blankRider => "rider id must not be empty"
  | .blankDriver => "driver id and name must not be empty"
  | .negativeFare => "fare must not be negative"
  | .badRadius => "radius must be a positive number of kilometres"
  | .driverNotAssigned driver ride =>
      "driver " ++ driver ++ " is not assigned to ride " ++ ride.text

/-- A record that must not exist does. -/
inductive ConflictError where
  | riderHasRide (rider : RiderId)
  | driverRegistered (id : DriverId)
  deriving DecidableEq, Repr

/-- The wording of a conflict. -/
def ConflictError.message : ConflictError → String
  | .riderHasRide rider => "rider " ++ rider ++ " already has an active ride"
  | .driverRegistered id => "driver " ++ id ++ " already registered"

/-- A record that must exist does not. -/
inductive MissingRecord where
  | driver (id : DriverId)
  | ride (id : RideId)
  deriving DecidableEq, Repr

/-- The wording of a missing record. -/
def MissingRecord.message : MissingRecord → String
  | .driver id => "driver " ++ id
  | .ride id => "ride " ++ id.text

/-- Why the driver index gave no answer. -/
inductive IndexError where
  | network (message : String)
  | http (status : Nat) (message : String)
  | parse (message : String)
  | unavailable (message : String)
  deriving DecidableEq, Repr

/-- The wording of an index error. -/
def IndexError.message : IndexError → String
  | .network m => "Network error: " ++ m
  | .http status m => "HTTP error " ++ natText status ++ ": " ++ m
  | .parse m => "Parse error: " ++ m
  | .unavailable m => "Geo index unavailable: " ++ m

/-- The rules of the store that a write can break. -/
inductive StoreRule where
  | unique
  | foreignKey
  | notNull
  | check
  deriving DecidableEq, Repr

/-- The name of a rule. -/
def StoreRule.name : StoreRule → String
  | .unique => "unique"
  | .foreignKey => "foreign key"
  | .notNull => "not null"
  | .check => "check"

/-- What the store refuses: a write against a rule, or to read a row whose
columns make no record. -/
inductive StoreFault where
  | broken (rule : StoreRule)
  | badCoordinate (cause : CoordinateError)
  | badAmount (message : String)
  deriving DecidableEq, Repr

/-- The wording of a store fault. -/
def StoreFault.message : StoreFault → String
  | .broken rule => "database: " ++ rule.name
  | .badCoordinate cause => "decode: " ++ cause.message
  | .badAmount m => "decode: " ++ m

/-! ## Failures of the service -/

/-- The kinds of failure that callers tell apart. -/
inductive FailureKind where
  | notFound
  | invalidState
  | validation
  | conflict
  | externalService
  | storage
  deriving DecidableEq, Repr

namespace FailureKind

/-- The name of a kind. -/
def name : FailureKind → String
  | .notFound => "NotFound"
  | .invalidState => "InvalidState"
  | .validation => "Validation"
  | .conflict => "Conflict"
  | .externalService => "ExternalService"
  | .storage => "Storage"

/-- Every kind. -/
def all : List FailureKind :=
  [.notFound, .invalidState, .validation, .conflict, .externalService, .storage]

/-- The kind of a name, which has to be exact. -/
def ofName? (name : String) : Option FailureKind := all.find? (·.name = name)

end FailureKind

/-- How a failure of a kind with a given detail is worded. -/
def FailureKind.describe (kind : FailureKind) (detail : String) : String :=
  match kind with
  | .notFound => "Not found: " ++ detail
  | .invalidState => "Invalid state: " ++ detail
  | .validation => "Validation error: " ++ detail
  | .conflict => "Conflict: " ++ detail
  | .externalService => "External service error: " ++ detail
  | .storage => "Storage error: " ++ detail

/-- Why an operation of the service failed. -/
inductive DispatchError where
  | notFound (what : MissingRecord)
  | invalidState (cause : StateError)
  | validation (cause : ValidationError)
  | conflict (cause : ConflictError)
  | externalService (cause : IndexError)
  | storage (fault : StoreFault)
  deriving DecidableEq, Repr

namespace DispatchError

/-- The kind of a failure. -/
def kind : DispatchError → FailureKind
  | .notFound _ => .notFound
  | .invalidState _ => .invalidState
  | .validation _ => .validation
  | .conflict _ => .conflict
  | .externalService _ => .externalService
  | .storage _ => .storage

/-- What exactly failed. -/
def detail : DispatchError → String
  | .notFound what => what.message
  | .invalidState cause => cause.message
  | .validation cause => cause.message
  | .conflict cause => cause.message
  | .externalService cause => "geo index: " ++ cause.message
  | .storage fault => fault.message

/-- The full wording. -/
def message (e : DispatchError) : String := e.kind.describe e.detail

end DispatchError

end Ridehail
