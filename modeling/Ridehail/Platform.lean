import Ridehail.Dispatch.Matching
import Ridehail.Pricing.Quote

/-!
# The platform

The world of dispatching and the state of pricing side by side. Prices follow
the market, so a price looks at the world; nothing in the world depends on
prices. The world has the time of day, and what pricing remembers ages by a
steady clock.

## Main definitions

* `Platform`, `Service` — the state and the operations on it.
* `Dispatch.market` — the drivers and rides around a place.
* `Service.multiplier`, `cached`, `outlook`, `quote`, `estimateFare` — prices.
-/

namespace Ridehail

/-- The world, what pricing remembers, and the steady clock in milliseconds. -/
structure Platform (σ : Type) where
  world : World σ
  surge : SurgeState := {}
  steady : Int := 0

/-- Why an operation of the platform failed. -/
inductive ServiceError where
  | dispatch (cause : DispatchError)
  | overflow (cause : Decimal.Overflow)
  deriving DecidableEq, Repr

/-! ## The market -/

/-- How many drivers are counted at most. -/
def Dispatch.supplySample : Nat := 500

/-- The market around a place: demand is what the store knows of requested
rides, supply what the index knows of available drivers. -/
def Dispatch.market {σ : Type} [DriverIndex σ] (policy : PricingPolicy)
    (p : GeoPoint) : Dispatch σ Market := do
  let pending :=
    (← get).store.pendingRides (GeoBox.around p policy.demandRadiusKm)
  let found ← askIndex
    (DriverIndex.nearest p supplySample policy.demandRadiusKm)
  return { available := found.length, pending }

/-! ## Operations -/

/-- Operations on the platform. -/
abbrev Service (σ : Type) := ExceptT ServiceError (StateM (Platform σ))

namespace Service

variable {σ α : Type}

/-- The outcome of an operation and the platform after it. -/
def runOn (x : Service σ α) (p : Platform σ) :
    Except ServiceError α × Platform σ := x.run.run p

/-- An operation on the world. -/
def onWorld (x : Dispatch σ α) : Service σ α := do
  let p ← get
  let (result, world) := x.runOn p.world
  set { p with world }
  match result with
  | .ok a => return a
  | .error e => throw (.dispatch e)

/-- A computation of prices. -/
def onSurge (x : SurgeM α) : Service σ α := do
  let p ← get
  match x.run p.surge with
  | .ok (a, surge) =>
      set { p with surge }
      return a
  | .error e => throw (.overflow e)

/-! ## Prices -/

/-- The model of surge pricing under a setup. -/
def model (setup : Setup) : SurgeModel :=
  { offsetSeconds := setup.pricing.offsetSeconds, atan2 := setup.atan2 }

/-- Whether surge pricing is on. -/
def surgeEnabled (setup : Setup) : Service σ Bool := do
  if setup.surgeSwitch then onWorld (Dispatch.flag surgePricing)
  else return true

/-- The time. -/
def now : Service σ Instant := onWorld Dispatch.now

/-- The steady clock. -/
def steady : Service σ Int := return (← get).steady

/-- The remembered multiplier of a place. -/
def cached (p : GeoPoint) : Service σ (Option Decimal) := do
  onSurge (SurgeM.cached (← steady) p)

variable [DriverIndex σ]

/-- What is looked up about a place, which is nothing while surge pricing is
off. -/
def signals (setup : Setup) (enabled : Bool) (p : GeoPoint) :
    Service σ SurgeSignals := do
  if !enabled then return { market := none }
  match ← onWorld (Dispatch.outcome (Dispatch.market setup.pricing p)) with
  | .ok market => return { market }
  | .error _ => return { market := none }

/-- The multiplier of a place. -/
def multiplier (setup : Setup) (p : GeoPoint) : Service σ Decimal := do
  let enabled ← surgeEnabled setup
  let signals ← signals setup enabled p
  let clock ← steady
  let at_ ← now
  onSurge (SurgeM.multiplier enabled (model setup) signals clock p at_)

/-- The multiplier of a place and the one to expect in an hour. -/
def outlook (setup : Setup) (p : GeoPoint) : Service σ (Decimal × Decimal) := do
  let enabled ← surgeEnabled setup
  let signals ← signals setup enabled p
  let clock ← steady
  let at_ ← now
  onSurge (SurgeM.outlook enabled (model setup) signals clock p at_)

/-- The quote of a trip. -/
def quote (setup : Setup) (trip : Trip) : Service σ FareQuote := do
  let enabled ← surgeEnabled setup
  let signals ← signals setup enabled trip.pickup
  let clock ← steady
  let at_ ← now
  onSurge (SurgeM.quote enabled (model setup) signals clock trip at_)

/-- The quote of a trip; a duration that is not given is estimated. -/
def estimateFare (setup : Setup) (pickup destination : GeoPoint)
    (minutes : Option Int) (vehicle : String) : Service σ FareQuote := do
  let minutes ← match minutes with
    | some m => pure (max m 0)
    | none => onWorld (Dispatch.estimateMinutes setup pickup destination)
  quote setup { pickup, destination, minutes, vehicle }

end Service

end Ridehail
