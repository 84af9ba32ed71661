import Ridehail.Decimal.Basic

/-!
# Driver statuses and vehicle classes

A driver is offline, available for a ride, busy with one, or en route. Only an
available driver can take a ride. The class of the vehicle scales the fare.
-/

namespace Ridehail

/-- The identifier of a driver, given out when the driver is taken on. -/
abbrev DriverId := String

/-- What a driver is doing. -/
inductive DriverStatus where
  | offline
  | available
  | busy
  | enRoute
  deriving DecidableEq, Repr, Inhabited

namespace DriverStatus

/-- The name a status is written with. -/
def name : DriverStatus → String
  | .offline => "OFFLINE"
  | .available => "AVAILABLE"
  | .busy => "BUSY"
  | .enRoute => "EN_ROUTE"

/-- Every status. -/
def all : List DriverStatus := [.offline, .available, .busy, .enRoute]

/-- The status of a name, which has to be exact. -/
def ofName? (name : String) : Option DriverStatus := all.find? (·.name = name)

/-- A status is read back from its name. -/
@[simp] theorem ofName?_name (s : DriverStatus) : ofName? s.name = some s := by
  cases s <;> decide

end DriverStatus

/-- The class of a vehicle. -/
inductive VehicleType where
  | standard
  | premium
  | suv
  | luxury
  deriving DecidableEq, Repr, Inhabited

namespace VehicleType

/-- The name a class is written with. -/
def name : VehicleType → String
  | .standard => "STANDARD"
  | .premium => "PREMIUM"
  | .suv => "SUV"
  | .luxury => "LUXURY"

/-- Every class. -/
def all : List VehicleType := [.standard, .premium, .suv, .luxury]

/-- The class of a name, which has to be exact. -/
def ofName? (name : String) : Option VehicleType := all.find? (·.name = name)

/-- A class is read back from its name. -/
@[simp] theorem ofName?_name (v : VehicleType) : ofName? v.name = some v := by
  cases v <;> decide

/-- The class of a name in any mix of ASCII cases. -/
def ofNameAnyCase? (name : String) : Option VehicleType :=
  ofName? (name.map Char.toUpper)

/-- What a fare is multiplied by. -/
def multiplier : VehicleType → Decimal
  | .standard => Decimal.one
  | .premium => Decimal.tenths 15
  | .suv => Decimal.tenths 18
  | .luxury => Decimal.tenths 25

/-- The multiplier of a class given by name; an unknown class counts as
standard. -/
def multiplierOfName (name : String) : Decimal :=
  match ofNameAnyCase? name with
  | some v => v.multiplier
  | none => Decimal.one

end VehicleType

end Ridehail
