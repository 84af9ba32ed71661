import Ridehail.Proofs.Dispatch.Runs

/-!
# Who is available

A driver on a ride is not to be available, for then the driver would be offered
for another ride.  Going online refuses a driver who is busy or en route, which
is the status of a driver on a ride, unless the driver went offline or was taken
offline during it.  Such a driver is brought online like any other: the record
says nothing of the ride.

That is the only way.  A run keeps available drivers off rides exactly as long
as no driver goes online who is offline and on a ride.

## Main results

* `World.goOnline_engaged_iff` — which drivers on a ride are refused.
* `World.idle_run_iff` — when all states of a run have no available driver on a
  ride.
-/

namespace Ridehail.World

variable {σ : Type} [DriverIndex σ] {setup : Setup} {w : World σ}

open Dispatch

/-- Of the drivers on a ride exactly those who are busy or en route are refused
to go online, and then nothing is changed. -/
theorem goOnline_engaged_iff (hs : w.store.Sound) {id : DriverId}
    (hengaged : w.store.Engaged id) {place : Option GeoPoint}
    (hplace : ∀ p ∈ place, p.inRange = true) {row : DriverRow}
    (hrow : w.store.driver? id = some row) :
    (∃ cause, (goOnline id place).runOn w = (.error (.invalidState cause), w)) ↔
      row.status = .busy ∨ row.status = .enRoute := by
  constructor
  · rintro ⟨cause, hrefused⟩
    apply row.status.off_or_on.resolve_left
    intro hoff
    obtain ⟨ride, hride, hholds⟩ := hengaged
    obtain ⟨found, p, hfound, hp⟩ :=
      hs.placed ride hride id (Store.holdsDriver_iff.1 hholds).1
    rw [hrow] at hfound
    cases hfound
    obtain ⟨d, next, hrun, -⟩ :=
      goOnline_runOn hs hrow hplace (.inr ⟨p, hp⟩) hoff
    rw [hrun] at hrefused
    cases hrefused
  · exact fun hon => goOnline_refused hs hrow (.inr hon)

/-- A state without available drivers on a ride is followed by such a state
exactly if the turn reopens nothing. -/
theorem idle_turn_iff (hs : w.store.Sound) (hidle : w.store.Idle) (t : Turn σ) :
    (w.turn setup t).store.Idle ↔ ¬t.call.Reopens w.store := by
  constructor
  · exact fun hafter hreopens =>
      not_idle_after (w := t.begin w) hs hreopens hafter
  · exact idle_after (w := t.begin w) hs hidle

/-- A run keeps available drivers off rides as long as nothing is reopened. -/
theorem idle_run (hs : w.store.Sound) (hidle : w.store.Idle)
    {turns : List (Turn σ)}
    (h : ∀ before t, before ++ [t] <+: turns →
      ¬t.call.Reopens (run setup w before).store) :
    (run setup w turns).store.Idle := by
  -- Soundness goes along with the claim: the step lemma asks for both.
  induction turns generalizing w with
  | nil => exact hidle
  | cons t rest ih =>
      have hfirst : ¬t.call.Reopens w.store :=
        h [] t (List.prefix_append [t] rest)
      apply ih (sound_after (w := t.begin w) hs t.call)
        ((idle_turn_iff hs hidle t).2 hfirst)
      intro before u hprefix
      exact h (t :: before) u (List.prefix_cons_inj t |>.2 hprefix)

/-- In a run from an empty store, no state has an available driver on a ride
exactly if no call brings a driver online who is offline and on a ride.  In
every state, a driver on a ride who is to go online is refused, with nothing
changed, exactly if they are busy or en route. -/
theorem idle_run_iff (hempty : w.store = .empty) (turns : List (Turn σ)) :
    ((∀ before, before <+: turns → (run setup w before).store.Idle) ↔
      ∀ before t, before ++ [t] <+: turns →
        ¬t.call.Reopens (run setup w before).store) ∧
    ∀ (next : World σ) id row place, next.store = (run setup w turns).store →
      next.store.Engaged id → next.store.driver? id = some row →
      (∀ p ∈ place, p.inRange = true) →
        ((∃ cause, (goOnline id place).runOn next =
          (.error (.invalidState cause), next)) ↔
          row.status = .busy ∨ row.status = .enRoute) := by
  have hs : w.store.Sound := hempty ▸ Store.sound_empty
  have hidle : w.store.Idle := hempty ▸ Store.idle_empty
  refine ⟨⟨fun h before t hprefix => ?_, fun h before hprefix => ?_⟩, ?_⟩
  · have hbefore : (run setup w before).store.Idle :=
      h before ((List.prefix_append before [t]).trans hprefix)
    have hafter := h (before ++ [t]) hprefix
    rw [run_append] at hafter
    exact (idle_turn_iff (sound_run hs before) hbefore t).1 hafter
  · exact idle_run hs hidle fun earlier t h' => h earlier t (h'.trans hprefix)
  · intro next id row place hstore hengaged hrow hplace
    have hnext : next.store.Sound := hstore ▸ sound_run hs turns
    exact goOnline_engaged_iff hnext hengaged hplace hrow

namespace Example

/-- The driver goes offline during the ride, and may then come back. -/
def away : List (Turn Roster) :=
  accepted ++ [{ now := ⟨4⟩, call := .goOffline "d" }]

/-- The call with which the driver comes back. -/
def back : Turn Roster := { now := ⟨5⟩, call := .goOnline "d" none (by decide) }

theorem reachable_away : (run {} start away).Reachable {} :=
  reachable_run (w := start) rfl away

theorem engaged_away : (run {} start away).store.Engaged "d" :=
  List.any_eq_true.1 (by decide +kernel)

theorem offline_away :
    ((run {} start away).store.driver? "d").map (·.status) = some .offline := by
  decide +kernel

end Example

/-- In the example the way back is not refused and reopens the ride, so that not
all states of the run are without an available driver on a ride. -/
theorem idle_run_iff_example :
    Example.start.store = .empty ∧
      Example.back.call.Reopens (run {} Example.start Example.away).store ∧
      (¬∀ before, before <+: Example.away ++ [Example.back] →
        (run {} Example.start before).store.Idle) ∧
      ¬∃ cause, (goOnline "d" none).runOn (run {} Example.start Example.away) =
        (.error (.invalidState cause), run {} Example.start Example.away) := by
  obtain ⟨row, hrow, hoffline⟩ := Option.map_eq_some_iff.1 Example.offline_away
  have hreopens : Example.back.call.Reopens
      (run {} Example.start Example.away).store :=
    ⟨⟨row, hrow, hoffline⟩, Example.engaged_away⟩
  obtain ⟨hstates, -⟩ :=
    @idle_run_iff Roster _ {} Example.start rfl (Example.away ++ [Example.back])
  obtain ⟨-, hrefused⟩ :=
    @idle_run_iff Roster _ {} Example.start rfl Example.away
  refine ⟨rfl, hreopens, fun hidle => ?_, fun hcause => ?_⟩
  · exact hstates.1 hidle Example.away Example.back
      (List.prefix_refl _) hreopens
  · have hon :=
      (hrefused _ "d" row none rfl Example.engaged_away hrow (by decide)).1
        hcause
    rw [hoffline] at hon
    rcases hon with h | h <;> cases h

/-- A driver who went offline during a ride is not refused to go online, and is
then available and on the ride. -/
theorem available_on_accepted_ride :
    ∃ w : World Roster, w.Reachable {} ∧ w.store.Engaged "d" ∧
      ((goOnline "d" none).runOn w).1.isOk = true ∧
      let after := ((goOnline "d" none).runOn w).2.store
      (after.driver? "d").map (·.status) = some .available ∧
        after.Engaged "d" ∧ ¬after.Idle := by
  have havailable :
      (((goOnline "d" none).runOn
        (run {} Example.start Example.away)).2.store.driver?
      "d").map (·.status) = some .available := by
    decide +kernel
  have hengaged :
      ((goOnline "d" none).runOn
        (run {} Example.start Example.away)).2.store.Engaged
      "d" := List.any_eq_true.1 (by decide +kernel)
  refine ⟨run {} Example.start Example.away, Example.reachable_away,
    Example.engaged_away, by decide +kernel, havailable, hengaged,
    Store.not_idle_of_engaged havailable hengaged⟩

end Ridehail.World
