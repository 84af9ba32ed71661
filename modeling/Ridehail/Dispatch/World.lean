import Ridehail.Eta
import Ridehail.Event.Basic
import Ridehail.Flags
import Ridehail.Index.Basic
import Ridehail.Settings
import Ridehail.Store.Drivers
import Ridehail.Store.Rides

/-!
# The world of the service

The service works on the store, the driver index, the flags and the clock, and
it publishes events. The store is the truth; the index is a service of its own
that is kept up to date as well as it can be, and an event is published once the
change that it tells of is stored.

An operation may fail at any point and leaves behind what it had done by then.

## Main definitions

* `World` — everything that operations look at and change, for an index of type
  `σ`.
* `Setup` — what operations are told once and for all.
* `Dispatch` — operations; `Dispatch.query`, `write`, `askIndex`, `tellIndex`
  and `publish` are the ways in which they touch the world.
* `Dispatch.driver`, `ride`, `transition` — the records that operations start
  from, and the transitions of records as operations.
-/

namespace Ridehail

/-- Everything that operations look at and change. -/
structure World (σ : Type) where
  store : Store := .empty
  index : σ
  flags : Flags := .none
  /-- The events published so far. -/
  log : List Event := []
  now : Instant
  /-- How many identifiers of rides have been drawn. -/
  drawn : Nat := 0

/-- What operations are told once and for all. -/
structure Setup where
  matching : MatchingPolicy := {}
  tracking : TrackingPolicy := {}
  pricing : PricingPolicy := {}
  /-- How durations are estimated while `dynamic_eta` is on. -/
  eta : EtaEstimator := .straight
  /-- Whether `surge_pricing` switches surge pricing on; without that it is
  on. -/
  surgeSwitch : Bool := false
  /-- The identifier of the `n`-th ride. -/
  rideId : Nat → RideId := RideId.ofSerial
  /-- How the platform computes angles, for the distances of priced trips. -/
  atan2 : Float → Float → Float := Float.atan2

/-- Operations on the world. -/
abbrev Dispatch (σ : Type) := ExceptT DispatchError (StateM (World σ))

namespace Dispatch

variable {σ α : Type}

/-- The outcome of an operation and the world after it. -/
def runOn (x : Dispatch σ α) (w : World σ) :
    Except DispatchError α × World σ := x.run.run w

/-- The time. -/
def now : Dispatch σ Instant := return (← get).now

/-- Whether a flag is on. -/
def flag (name : String) : Dispatch σ Bool :=
  return (← get).flags.isEnabled name

/-- The outcome of an operation, failed or not. -/
def outcome (x : Dispatch σ α) : Dispatch σ (Except DispatchError α) :=
  ExceptT.mk do return .ok (← x.run)

/-! ## The store -/

/-- Looks something up in the store. -/
def query (look : Store → Except StoreFault α) : Dispatch σ α := do
  match look (← get).store with
  | .ok a => return a
  | .error fault => throw (.storage fault)

/-- Writes to the store and tells whether the write applied. -/
def write (change : Store → Written) : Dispatch σ Bool := do
  match change (← get).store with
  | .ok (applied, store) =>
      modify fun w => { w with store }
      return applied
  | .error fault => throw (.storage fault)

/-! ## The index -/

/-- Asks the index; its failure is the operation's. -/
def askIndex (call : σ → Except IndexError α × σ) : Dispatch σ α := do
  let (answer, index) := call (← get).index
  modify fun w => { w with index }
  match answer with
  | .ok a => return a
  | .error e => throw (.externalService e)

/-- Tells the index something; it does not matter whether that succeeds. -/
def tellIndex (call : σ → Except IndexError α × σ) : Dispatch σ Unit :=
  modify fun w => { w with index := (call w.index).2 }

/-- Tells the index what a driver does, if the driver has a location. -/
def indexDriver [DriverIndex σ] (d : Driver) : Dispatch σ Unit := do
  match d.location with
  | none => return ()
  | some p => tellIndex (DriverIndex.put (← now) d.id p d.status)

/-- Has the index forget a driver. -/
def forgetDriver [DriverIndex σ] (id : DriverId) : Dispatch σ Unit :=
  tellIndex (DriverIndex.remove id)

/-! ## Events -/

/-- Publishes an event. -/
def publish (e : Event) : Dispatch σ Unit :=
  modify fun w => { w with log := w.log ++ [e] }

/-- Publishes a step of a ride. -/
def publishRide (kind : RideEventKind) (r : Ride) (at_ : Instant) :
    Dispatch σ Unit :=
  publish (.ride (.ofRide kind r at_))

/-! ## Records -/

/-- The record of a driver. -/
def driver (id : DriverId) : Dispatch σ Driver := do
  match ← query (·.findDriver id) with
  | some d => return d
  | none => throw (.notFound (.driver id))

/-- The record of a ride. -/
def ride (id : RideId) : Dispatch σ Ride := do
  match ← query (·.findRide id) with
  | some r => return r
  | none => throw (.notFound (.ride id))

/-- The rides of a rider, newest first. -/
def ridesOfRider (rider : RiderId) (limit : Int) : Dispatch σ (List Ride) :=
  query (·.ridesOfRider rider limit)

/-- The rides of a driver, newest first. -/
def ridesOfDriver (driver : DriverId) (limit : Int) : Dispatch σ (List Ride) :=
  query (·.ridesOfDriver driver limit)

/-- A transition, which the state of its record may not allow. -/
def transition : Except StateError α → Dispatch σ α
  | .ok a => return a
  | .error cause => throw (.invalidState cause)

end Dispatch

end Ridehail
