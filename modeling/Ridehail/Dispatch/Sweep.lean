import Ridehail.Dispatch.Tracking

/-!
# Drivers that are gone

A driver who has not pinged for a while is taken offline. Drivers are handled
one by one: a failure is counted and does not keep the sweep from the others,
and a driver who has pinged in the meantime is left alone.
-/

namespace Ridehail

/-- What a sweep did. -/
structure SweepReport where
  examined : Nat := 0
  offlined : Nat := 0
  failed : Nat := 0
  deriving DecidableEq, Repr, Inhabited

/-- A report as JSON. -/
def SweepReport.toJson (r : SweepReport) : Json :=
  .object
    [ ("examined", .int r.examined), ("offlined", .int r.offlined),
      ("failed", .int r.failed) ]

/-- A report with one more outcome: a driver taken offline or not, or a
failure. -/
def SweepReport.count (r : SweepReport) :
    Except DispatchError Bool → SweepReport
  | .ok true => { r with offlined := r.offlined + 1 }
  | .ok false => r
  | .error _ => { r with failed := r.failed + 1 }

namespace Dispatch

variable {σ : Type} [DriverIndex σ]

/-- Takes a driver offline who was found stale, unless that has changed. -/
def forceOffline (d : Driver) (cutoff at_ : Instant) : Dispatch σ Bool := do
  let applied ← write (·.markOfflineIfStale (d.goOffline at_) d.status cutoff)
  if applied then forgetDriver d.id
  return applied

/-- Takes some stale drivers offline and counts what happened. -/
def forceAllOffline (cutoff at_ : Instant) :
    List Driver → SweepReport → Dispatch σ SweepReport
  | [], report => return report
  | d :: rest, report => do
      let result ← outcome (forceOffline d cutoff at_)
      forceAllOffline cutoff at_ rest (report.count result)

/-- Takes all drivers offline whose last ping is older than the policy
allows. -/
def sweepAt (policy : TrackingPolicy) (at_ : Instant) :
    Dispatch σ SweepReport := do
  let cutoff := at_.minusSeconds policy.staleAfterSeconds
  let stale ← query (·.staleDrivers cutoff)
  forceAllOffline cutoff at_ stale { examined := stale.length }

/-- The sweep at the present time. -/
def sweep (policy : TrackingPolicy) : Dispatch σ SweepReport := do
    sweepAt policy (← now)

end Dispatch

end Ridehail
