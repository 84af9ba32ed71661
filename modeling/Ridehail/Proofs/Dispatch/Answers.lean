import Ridehail.Proofs.Dispatch.Runs

/-!
# Answers are what is stored

A call works on a record that it has read, changes that record in memory, and
answers with it; what it stores is a few columns of a row.  Nothing of the
answer is taken from the row after the write.  The two are the same
nevertheless: each write fills just the columns in which its step changes a
record, and the row that it fills still is the one that was read.

They are the same as records, not as texts.  A fare is stored in its canonical
form and a coordinate without the sign of a zero, so the numbers are compared as
numbers.

## Main results

* `World.answer_holds` — the store has what a call answers with.
* `World.answers_read_back` — a record that a call answers with is found right
  after the call.
-/

namespace Ridehail.World

variable {σ : Type} [DriverIndex σ] {setup : Setup} {w w' : World σ}

open Dispatch

theorem answer_holds (hs : w.store.Sound) {c : ServiceCall} (hc : c.Located)
    {answer : Answer} (h : (c.perform setup).runOn w = (.ok answer, w')) :
    answer.Holds w'.store := by
  have hends := ServiceCall.ends_perform hs setup c
  rw [Ends, h] at hends
  exact hends.2 hc

omit [DriverIndex σ] in
/-- A ride that the store has is found. -/
theorem ride_runOn_of_hasRide {r : Ride} (h : w.store.HasRide r) :
    ∃ r', (ride r.id).runOn w = (.ok r', w) ∧ r.Same r' := by
  obtain ⟨r', hfind, hsame⟩ := h.find
  exact ⟨r', ride_eq_ok.2 ⟨hfind, rfl⟩, hsame⟩

omit [DriverIndex σ] in
theorem driver_runOn_of_hasDriver {d : Driver} (h : w.store.HasDriver d) :
    ∃ d', (driver d.id).runOn w = (.ok d', w) ∧ d.Same d' := by
  obtain ⟨d', hfind, hsame⟩ := h.find
  exact ⟨d', driver_eq_ok.2 ⟨hfind, rfl⟩, hsame⟩

/-- In every state that the service can have brought about, a call that creates,
offers, starts, completes or cancels a ride and answers with it leaves a state
in which looking the ride up gives the same record, and a call that registers or
locates a driver, or changes their status, and answers with them leaves one in
which looking the driver up does. -/
theorem answers_read_back (hw : w.Reachable setup) {c : ServiceCall}
    (hc : c.Located) :
    (∀ r w', (c.perform setup).runOn w = (.ok (.ride r), w') →
      ∃ r', (ride r.id).runOn w' = (.ok r', w') ∧ r.Same r') ∧
    ∀ d w', (c.perform setup).runOn w = (.ok (.driver d), w') →
      ∃ d', (driver d.id).runOn w' = (.ok d', w') ∧ d.Same d' := by
  refine ⟨fun r w' h => ?_, fun d w' h => ?_⟩
  · have hholds : w'.store.HasRide r := answer_holds hw.sound hc h
    exact ride_runOn_of_hasRide hholds
  · have hholds : w'.store.HasDriver d := answer_holds hw.sound hc h
    exact driver_runOn_of_hasDriver hholds

namespace Example

/-- The ride is started. -/
def started : List (Turn Roster) :=
  accepted ++ [{ now := ⟨4⟩, call := .startRide trip "d" }]

/-- Eighteen and a half, with a zero at the end that is not stored. -/
def fare : Decimal := .cents 1850

theorem reachable_started : (run {} start started).Reachable {} :=
  reachable_run (w := start) rfl started

theorem completes_started :
    ∃ r w', ((ServiceCall.completeRide trip "d" fare).perform {}).runOn
      (run {} start started) = (.ok (.ride r), w') := by
  have hok :
      ((completeRide trip "d" fare).runOn (run {} start started)).1.isOk =
        true := by
    decide +kernel
  rcases hrun : (completeRide trip "d" fare).runOn (run {} start started) with
    ⟨e | r, w'⟩
  · rw [hrun] at hok
    cases hok
  · refine ⟨r, w', ?_⟩
    rw [ServiceCall.perform, runOn_map, hrun]
    rfl

end Example

/-- In the example the ride is completed, and looked up with its fare in another
form. -/
theorem answers_read_back_example :
    (run {} Example.start Example.started).Reachable {} ∧
      (ServiceCall.completeRide Example.trip "d" Example.fare).Located ∧
      ∃ r w' r',
          ((ServiceCall.completeRide Example.trip "d" Example.fare).perform
            {}).runOn
          (run {} Example.start Example.started) = (.ok (.ride r), w') ∧
        (ride r.id).runOn w' = (.ok r', w') ∧ r.Same r' := by
  obtain ⟨r, w', hrun⟩ := Example.completes_started
  obtain ⟨hride, -⟩ := answers_read_back Example.reachable_started
    (c := .completeRide Example.trip "d" Example.fare) trivial
  obtain ⟨r', hfound, hsame⟩ := hride r w' hrun
  exact ⟨Example.reachable_started, trivial, r, w', r', hrun, hfound, hsame⟩

example :
    let completed := (completeRide Example.trip "d" Example.fare).runOn
      (run {} Example.start Example.started)
    let found := (ride Example.trip).runOn completed.2
    (completed.1.toOption.bind (·.fare)).map (·.scale) = some 2 ∧
      (found.1.toOption.bind (·.fare)).map (·.scale) = some 1 := by
  decide +kernel

end Ridehail.World
