import Ridehail.Proofs.Dispatch.Mirror

/-!
# A failed call leaves no trace

An operation is a chain of reads, checks and writes, and nothing takes back what
it has done before it fails.  It need not: up to the point after which it cannot
fail any more it has asked questions only.  The index may have been asked who is
near, which makes a difference to an index that counts its questions, but not to
what is indexed.

## Main results

* `World.Still.entries_eq` — what is indexed does not depend on the questions
  that were asked.
* `World.failed_call_leaves_all` — after a failure all drivers, rides, entries
  of the index and published events are as before.
-/

namespace Ridehail

/-- What a view of the index shows is not changed by asking who is near. -/
def DriverIndex.Steady {σ ε : Type} [DriverIndex σ] (entries : σ → ε) : Prop :=
  ∀ p count radiusKm i, entries (DriverIndex.nearest p count radiusKm i).2 =
    entries i

/-- The entries of the index in memory are not changed by questions. -/
theorem MemoryIndex.steady_entries : DriverIndex.Steady MemoryIndex.entries :=
  fun p count radiusKm i => congrArg entries (nearest_index p count radiusKm i)

namespace World

variable {σ ε : Type} [DriverIndex σ] {setup : Setup} {w next : World σ}
  {entries : σ → ε}

open Dispatch

theorem Still.entries_eq (h : w.Still next)
    (hsteady : DriverIndex.Steady entries) :
    entries next.index = entries w.index := by
  obtain ⟨index, drawn, rfl, hsame | ⟨p, count, radiusKm, hasked⟩⟩ := h
  · exact congrArg entries hsame
  · show entries index = entries w.index
    rw [hasked]
    exact hsteady p count radiusKm w.index

/-- A failed call has at most asked the index who is near and drawn
identifiers. -/
theorem still_of_error (hs : w.store.Sound) {c : ServiceCall}
    {e : DispatchError} (h : (c.perform setup).runOn w = (.error e, next)) :
    w.Still next := by
  have hends := ServiceCall.ends_perform hs setup c
  rwa [Ends, h] at hends

omit [DriverIndex σ] in
/-- Looking for drivers near a point changes nothing, whether it succeeds or
not. -/
theorem nearbyDrivers_runOn (w : World σ) (p : GeoPoint) (radiusKm : Float) :
    ((nearbyDrivers p radiusKm).runOn w).2 = w := by
  have hends : Ends (nearbyDrivers p radiusKm) w (· = w) fun _ next =>
      next = w := by
    unfold nearbyDrivers
    dsimp only
    refine ends_guard (E := (· = w)) rfl fun _ => ?_
    apply ends_bind_now
    exact ends_bind_query rfl fun _ _ => rfl
  unfold Ends at hends
  rcases hrun : (nearbyDrivers p radiusKm).runOn w with ⟨e | found, next⟩ <;>
    rwa [hrun] at hends

/-- In every world that the service can have brought about, whatever the flags
and the index are, a call that fails leaves every driver, every ride, every
entry of the index and every published event as it was. -/
theorem failed_call_leaves_all (hw : w.Reachable setup)
    (hsteady : DriverIndex.Steady entries) :
    (∀ (c : ServiceCall) (e : DispatchError) (next : World σ),
      (c.perform setup).runOn w = (.error e, next) →
        next.store.drivers = w.store.drivers ∧
          next.store.rides = w.store.rides ∧
          entries next.index = entries w.index ∧ next.log = w.log) ∧
    ∀ p radiusKm (e : DispatchError) (next : World σ),
      (nearbyDrivers p radiusKm).runOn w = (.error e, next) →
        next.store.drivers = w.store.drivers ∧
          next.store.rides = w.store.rides ∧
          entries next.index = entries w.index ∧ next.log = w.log := by
  constructor
  · intro c e next h
    have hstill := still_of_error hw.sound h
    rw [hstill.store_eq]
    exact ⟨rfl, rfl, hstill.entries_eq hsteady, hstill.log_eq⟩
  · intro p radiusKm e next h
    have hsame := nearbyDrivers_runOn w p radiusKm
    rw [h] at hsame
    cases hsame
    exact ⟨rfl, rfl, rfl, rfl⟩

namespace Example

/-- A driver is online and a rider waits, and the index has gone out of
service. -/
def outage : World MemoryIndex :=
  run {} { index := {}, now := ⟨0⟩ }
    [{ now := ⟨1⟩, call := .registerDriver dana },
      { now := ⟨2⟩, call := .goOnline "d" (some place) inRange_some_place },
      { now := ⟨3⟩, index := fun i => { i with failing := true },
        call := .createRide "a" place none inRange_place }]

theorem reachable_outage : outage.Reachable {} := reachable_run rfl _

end Example

/-- During an outage of the index another attempt to match a ride fails midway,
and the driver, the ride, the entry of the driver and the events are as
before. -/
theorem failed_call_leaves_all_outage :
    Example.outage.Reachable {} ∧ DriverIndex.Steady MemoryIndex.entries ∧
      ∃ next, (ServiceCall.perform {} (.retryMatching Example.trip)).runOn
          Example.outage =
          (.error (.externalService (.unavailable "index offline")), next) ∧
        next.store.drivers.length = 1 ∧ next.store.rides.length = 1 ∧
        next.store.drivers = Example.outage.store.drivers ∧
        next.store.rides = Example.outage.store.rides ∧
        next.index.entries = Example.outage.index.entries ∧
        next.log = Example.outage.log := by
  have hfails :
      (match ((ServiceCall.perform {} (.retryMatching Example.trip)).runOn
      Example.outage).1 with
      | .error e => decide (e = .externalService (.unavailable "index offline"))
      | .ok _ => false) = true := by decide +kernel
  have hcount : Example.outage.store.drivers.length = 1 ∧
      Example.outage.store.rides.length = 1 := by decide +kernel
  rcases hrun : (ServiceCall.perform {} (.retryMatching Example.trip)).runOn
      Example.outage with
    ⟨e | answer, next⟩
  · rw [hrun] at hfails
    obtain rfl := of_decide_eq_true hfails
    have hsame := (failed_call_leaves_all Example.reachable_outage
      MemoryIndex.steady_entries).1 _ _ _ hrun
    refine ⟨Example.reachable_outage, MemoryIndex.steady_entries, next,
      rfl, ?_, ?_, hsame⟩
    · rw [hsame.1, hcount.1]
    · rw [hsame.2.1, hcount.2]
  · rw [hrun] at hfails
    cases hfails

end World

end Ridehail
