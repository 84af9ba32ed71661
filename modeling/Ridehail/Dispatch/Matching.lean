import Ridehail.Dispatch.World
import Ridehail.Selection
import Ridehail.Text.Basic

/-!
# Rides

A ride is created for a rider without an active one and offered to the drivers
around the pickup. Candidates come from the index, but only the store decides
who gets the ride: a candidate who cannot be claimed is passed over. Starting,
completing and cancelling follow, and the end of a ride frees its driver.

## Main definitions

* `Dispatch.createRide`, `matchRide`, `retryMatching` — finding a driver.
* `Dispatch.assignRide` — the claim of one driver for a ride.
* `Dispatch.startRide`, `completeRide`, `cancelRide` — the life of the ride.
-/

namespace Ridehail

/-- A chosen candidate is one of the candidates. -/
theorem Strategy.select?_mem {strategy : Strategy} {candidates : List Candidate}
    {c : Candidate} (h : strategy.select? candidates = some c) :
    c ∈ candidates := by
  have from_mem : ∀ (rest : List Candidate) (best : Candidate),
      nearestFrom best rest ∈ best :: rest := by
    intro rest
    induction rest with
    | nil => intro best; simp [nearestFrom]
    | cons d rest ih =>
        intro best
        rw [nearestFrom]
        split
        · exact List.mem_cons_of_mem _ (ih d)
        · rcases List.mem_cons.1 (ih best) with h | h
          · rw [h]; exact List.mem_cons_self
          · exact List.mem_cons_of_mem _ (List.mem_cons_of_mem _ h)
  cases strategy with
  | first => exact List.mem_of_find?_eq_some h
  | nearest =>
      rw [Strategy.select?] at h
      have : c ∈ candidates.filter (·.eligible) := by
        revert h
        cases candidates.filter (·.eligible) with
        | nil => intro h; cases h
        | cons d rest => intro h; cases h; exact from_mem rest d
      exact (List.mem_filter.1 this).1

/-- The candidates other than a driver. -/
def othersThan (driver : DriverId) (candidates : List Candidate) :
    List Candidate :=
  candidates.filter fun c => c.driver ≠ driver

/-- Fewer candidates are left without a chosen one. -/
theorem length_othersThan_lt {strategy : Strategy} {candidates : List Candidate}
    {c : Candidate} (h : strategy.select? candidates = some c) :
    (othersThan c.driver candidates).length < candidates.length := by
  refine List.length_filter_lt_length_iff_exists.2
    ⟨c, Strategy.select?_mem h, ?_⟩
  simp

namespace Dispatch

variable {σ : Type}

/-! ## Estimates and identifiers -/

/-- The estimated minutes of a trip. -/
def estimateMinutes (setup : Setup) (start stop : GeoPoint) :
    Dispatch σ Int := do
  let estimator := if ← flag dynamicEta then setup.eta else .straight
  return estimator.minutes (← now) start stop

/-- The next identifier of a ride. -/
def drawRideId (setup : Setup) : Dispatch σ RideId := do
  modify fun w => { w with drawn := w.drawn + 1 }
  return setup.rideId (← get).drawn

/-! ## Finding a driver -/

section

variable [DriverIndex σ]

/-- Claims a driver for a ride. The record of the driver is read again, and the
store applies the claim only while the driver is available and the ride
requested; a claim that is lost changes nothing. -/
def assignRide (r : Ride) (id : DriverId) : Dispatch σ (Option Ride) := do
  let some d ← query (·.findDriver id) | return none
  if !d.isAvailable then return none
  let at_ ← now
  let accepted ← transition (r.accept id at_)
  let busy ← transition (d.startRide at_)
  if !(← write (·.assignRide accepted busy)) then return none
  indexDriver busy
  publishRide .accepted accepted at_
  publish (.assignment { ride := accepted.id, driver := id, timestamp := at_ })
  return some accepted

/-- Claims the candidate that the strategy chooses, and the next one without it
as long as the policy allows. -/
def claimOneOf (policy : MatchingPolicy) (strategy : Strategy) (r : Ride)
    (candidates : List Candidate) : Dispatch σ (Option Ride) :=
  match _chosen : strategy.select? candidates with
  | none => return none
  | some chosen => do
      match ← assignRide r chosen.driver with
      | some accepted => return some accepted
      | none =>
          if policy.retryNext then
            claimOneOf policy strategy r (othersThan chosen.driver candidates)
          else return none
termination_by candidates.length
decreasing_by exact length_othersThan_lt (by assumption)

/-- Tries to find a driver for a requested ride. -/
def matchRide (policy : MatchingPolicy) (r : Ride) :
    Dispatch σ (Option Ride) := do
  if r.status ≠ .requested then return none
  let candidates ←
    askIndex (DriverIndex.nearest r.pickup policy.maxDrivers policy.maxRadiusKm)
  let strategy := Strategy.ofAdvanced (← flag advancedMatching)
  claimOneOf policy strategy r candidates

/-- Creates a ride and tries to find a driver for it. If that fails for whatever
reason, the ride stays requested. -/
def createRide (setup : Setup) (rider : RiderId) (pickup : GeoPoint)
    (destination : Option GeoPoint) : Dispatch σ Ride := do
  if isBlankText rider then throw (.validation .blankRider)
  let at_ ← now
  let id ← drawRideId setup
  let estimate ← match destination with
    | some stop => some <$> estimateMinutes setup pickup stop
    | none => pure none
  let r := { Ride.request id rider pickup destination at_ with
      estimateMinutes := estimate }
  if !(← write (·.insertRide r)) then throw (.conflict (.riderHasRide rider))
  publishRide .requested r at_
  match ← outcome (matchRide setup.matching r) with
  | .ok (some accepted) => return accepted
  | _ => return r

/-- Tries again to find a driver for a ride. -/
def retryMatching (policy : MatchingPolicy) (id : RideId) :
    Dispatch σ Ride := do
  let r ← ride id
  if r.status ≠ .requested then
    throw (.invalidState (.rideNotAwaiting r.id r.status))
  return (← matchRide policy r).getD r

end

/-! ## The life of a ride -/

/-- Refuses a driver who is not the ride's. -/
def checkDriver (r : Ride) (id : DriverId) : Dispatch σ Unit := do
  if r.driver ≠ some id then throw (.validation (.driverNotAssigned id r.id))

/-- Stores a ride that has taken a step from a status. -/
def storeStep (r : Ride) (previous : RideStatus) : Dispatch σ Unit := do
  if !(← write (·.advanceRide r previous)) then
    throw (.invalidState (.rideChanged r.id previous))

/-- The driver starts the ride. -/
def startRide (id : RideId) (driver : DriverId) : Dispatch σ Ride := do
  let before ← ride id
  checkDriver before driver
  let at_ ← now
  let r ← transition (before.start at_)
  storeStep r .accepted
  publishRide .started r at_
  return r

variable [DriverIndex σ]

/-- Frees the driver of a ride that is over, if the driver is on a ride. The
ride is stored already, so this cannot fail any more. -/
def releaseDriver (id : DriverId) (free : Driver → Except StateError Driver)
    (expected : List DriverStatus) : Dispatch σ Unit := do
  let attempt : Dispatch σ Unit := do
    let d ← transition (free (← driver id))
    if ← write (·.setDriverStatus d expected) then indexDriver d
  let _ ← outcome attempt

/-- The driver completes the ride for a fare. -/
def completeRide (id : RideId) (driver : DriverId) (fare : Decimal) :
    Dispatch σ Ride := do
  if fare.isNegative then throw (.validation .negativeFare)
  let before ← ride id
  checkDriver before driver
  let at_ ← now
  let r ← transition (before.complete fare.roundCents at_)
  storeStep r .inProgress
  releaseDriver driver (·.finishRide at_) [.busy]
  publishRide .completed r at_
  return r

/-- Someone cancels the ride. -/
def cancelRide (id : RideId) (initiatedBy : String) : Dispatch σ Ride := do
  let before ← ride id
  let at_ ← now
  let r ← transition (before.cancel at_)
  storeStep r before.status
  if let some driver := r.driver then
    releaseDriver driver (·.leaveRide at_) [.busy, .enRoute]
  publish (.ride { RideEvent.ofRide .cancelled r at_ with
    initiatedBy := some initiatedBy })
  return r

end Dispatch

end Ridehail
