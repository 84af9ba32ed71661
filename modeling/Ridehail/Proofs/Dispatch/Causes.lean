import Ridehail.Proofs.Dispatch.Log
import Ridehail.Proofs.Event.Decoding

/-!
# What comes from the callers

What is stored and published of a ride is the service's own making, apart from a
few values that come from elsewhere: the times, which are those of the clock,
the name of the one who cancels, which is handed over in the call, and the
estimates of trips, of which the setup may have one that is always the same.
The rows and the events do not say where they have these values from, so it is
followed through the commits.

## Main results

* `World.run_caused` — an event of a ride has the time of a call that succeeded,
  and a cancellation the name that was given in it.
* `World.estimated_run` — every stored estimate is one that the setup may give.
-/

namespace Ridehail

/-! ## Estimates -/

theorem Setup.Estimates.isInt64 {setup : Setup} {minutes : Int}
    (h : setup.Estimates minutes) :
    IsInt64 minutes := by
  obtain ⟨estimator, now, start, stop, -, rfl⟩ := h
  exact estimator.isInt64 now start stop

/-- The estimates of the stored rides are those of the setup. -/
def Store.Estimated (s : Store) (setup : Setup) : Prop :=
  ∀ row ∈ s.rides, ∀ minutes ∈ row.estimateMinutes, setup.Estimates minutes

/-- The event was published at the time of the call, and the call may have been
the cause. -/
structure RideEvent.CausedBy (e : RideEvent) (c : ServiceCall)
    (now : Instant) : Prop where
  timestamp : e.timestamp = now
  causes : c.Causes e

namespace World

variable {σ : Type} [DriverIndex σ] {setup : Setup} {c : ServiceCall}
  {w next : World σ}

/-- A commit stores no estimates but those of the setup. -/
theorem Commit.estimated (h : w.Commit setup c next) (hs : w.store.Sound)
    (hw : w.store.Estimated setup) : next.store.Estimated setup := by
  cases h with
  | still h =>
      rw [h.store_eq]
      exact hw
  | register d s' hstatus hlocation h =>
      obtain ⟨-, -, rfl⟩ := Store.insertDriver_applied h
      exact hw
  | report row later d pings hrow hlater hd => exact hw
  | retire row at_ hrow => exact hw
  | request r s' hr hat hestimate hplace h =>
      obtain ⟨-, -, -, rfl⟩ := Store.insertRide_applied h
      intro row hrow
      rcases List.mem_append.1 hrow with hold | hnew
      · exact hw row hold
      · rw [List.mem_singleton.1 hnew]
        exact hestimate
  | assign copy accepted d s' hcopy hd haccept h =>
      obtain ⟨driver, ride, -, -, -, hride, -, -, rfl⟩ :=
        Store.assignRide_applied h
      intro row hrow
      rcases Store.mem_putRide.1 hrow with ⟨rfl, -⟩ | ⟨hold, -⟩
      · exact hw ride (Store.mem_of_ride? hride).1
      · exact hw row hold
  | advance old r kind initiatedBy s' mid hold hstep hkind hat hcause h hmid =>
      obtain ⟨before, hbefore, -, hmove, rfl⟩ := hs.advance_inv hold hstep h
      have hmem := (Store.mem_of_ride? hbefore).1
      have hsame := (hmove.growsTo (hs.shaped before hmem)).estimateMinutes
      intro row hrow
      have hrides : mid.store.rides =
          (w.store.putRide (before.advanced r)).rides :=
        hmid.rides_eq
      rcases Store.mem_putRide.1 (hrides ▸ hrow) with ⟨rfl, -⟩ | ⟨hother, -⟩
      · rw [hsame]
        exact hw before hmem
      · exact hw row hother

/-- A run stores no estimates but those of the setup. -/
theorem estimated_run (hstore : w.store = .empty) (turns : List (Turn σ)) :
    (run setup w turns).store.Estimated setup := by
  refine run_keeps (P := fun v => v.store.Estimated setup)
    (hstore ▸ Store.sound_empty) (fun _ _ _ h => h)
    (fun c v next hv h hcommit => hcommit.estimated hv h) ?_
  rw [hstore]
  exact fun row hrow => by cases hrow

/-! ## Times and initiators -/

theorem Released.now_eq {r : Ride} (h : w.Released r next) :
    next.now = w.now := by
  cases h <;> rfl

theorem Commit.now_eq (h : w.Commit setup c next) : next.now = w.now := by
  cases h with
  | still h =>
      obtain ⟨index, drawn, rfl, -⟩ := h
      rfl
  | advance old r kind initiatedBy s' mid hold hstep hkind hat hcause h hmid =>
      exact hmid.now_eq
  | _ => rfl

/-- What a commit publishes of rides is caused by its call. -/
theorem Commit.caused (h : w.Commit setup c next) {e : RideEvent}
    (he : .ride e ∈ next.log) :
    .ride e ∈ w.log ∨ e.CausedBy c w.now := by
  cases h with
  | still h => exact .inl (h.log_eq ▸ he)
  | register d s' hstatus hlocation h => exact .inl he
  | report row later d pings hrow hlater hd =>
      rcases List.mem_append.1 he with hold | hping
      · exact .inl hold
      · obtain ⟨ping, -, hsame⟩ := List.mem_map.1 hping
        cases hsame
  | retire row at_ hrow => exact .inl he
  | request r s' hr hat hestimate hplace h =>
      rcases List.mem_append.1 he with hold | hnew
      · exact .inl hold
      · cases List.mem_singleton.1 hnew
        exact .inr ⟨rfl, nofun⟩
  | assign copy accepted d s' hcopy hd haccept h =>
      rcases List.mem_append.1 he with hold | hnew
      · exact .inl hold
      · rcases List.mem_cons.1 hnew with hride | hassignment
        · cases hride
          exact .inr ⟨rfl, nofun⟩
        · cases List.mem_singleton.1 hassignment
  | advance old r kind initiatedBy s' mid hold hstep hkind hat hcause h hmid =>
      have hlog : mid.log = w.log := hmid.log_eq
      rcases List.mem_append.1 he with hold | hnew
      · exact .inl (hlog ▸ hold)
      · cases List.mem_singleton.1 hnew
        exact .inr ⟨rfl, hcause⟩

theorem Commits.caused (h : w.Commits setup c next) (hs : w.store.Sound)
    {e : RideEvent} (he : .ride e ∈ next.log) :
    .ride e ∈ w.log ∨ e.CausedBy c w.now := by
  have hkept : next.now = w.now ∧
      ∀ e, .ride e ∈ next.log → .ride e ∈ w.log ∨
        RideEvent.CausedBy e c w.now := by
    refine h.keep (P := fun v => v.now = w.now ∧
      ∀ e, .ride e ∈ v.log → .ride e ∈ w.log ∨ RideEvent.CausedBy e c w.now)
      hs ?_ ⟨rfl, fun _ => .inl⟩
    rintro v v' - ⟨hnow, hbefore⟩ hcommit
    refine ⟨hcommit.now_eq.trans hnow, fun e he => ?_⟩
    rcases hcommit.caused he with hold | hcaused
    · exact hbefore e hold
    · exact .inr (hnow ▸ hcaused)
  exact hkept.2 e he

/-- The call of a turn succeeds in a world. -/
def Succeeds (setup : Setup) (w : World σ) (t : Turn σ) : Prop :=
  ∃ answer next, (t.call.perform setup).runOn (t.begin w) = (.ok answer, next)

/-- What a turn publishes of rides is caused by its call, which succeeds. -/
theorem turn_caused (hs : w.store.Sound) (t : Turn σ) {e : RideEvent}
    (he : .ride e ∈ (w.turn setup t).log) :
    .ride e ∈ w.log ∨ w.Succeeds setup t ∧ e.CausedBy t.call t.now := by
  have hcommits : (t.begin w).Commits setup t.call (w.turn setup t) :=
    commits_after (w := t.begin w) hs t.call
  rcases hcommits.caused hs he with hold | hcaused
  · exact .inl hold
  · rcases hrun : (t.call.perform setup).runOn (t.begin w) with
      ⟨e' | answer, next⟩
    · have hlog := log_eq_of_error (w := t.begin w) hs hrun
      have hturn : w.turn setup t = next := by
        rw [turn, after_eq_perform, hrun]
      rw [hturn, hlog] at he
      exact .inl he
    · exact .inr ⟨⟨answer, next, hrun⟩, hcaused⟩

/-- Every event of a ride in a run was caused by one of its calls, which
succeeded. -/
theorem run_caused (hs : w.store.Sound) (turns : List (Turn σ)) {e : RideEvent}
    (he : .ride e ∈ (run setup w turns).log) :
    .ride e ∈ w.log ∨ ∃ before t after, turns = before ++ t :: after ∧
      (run setup w before).Succeeds setup t ∧ e.CausedBy t.call t.now := by
  induction turns using List.reverseRecOn with
  | nil => exact .inl he
  | append_singleton before t ih =>
      rw [run_append] at he
      rcases turn_caused (sound_run hs before) t he with
        hold | ⟨hsucceeds, hcaused⟩
      · rcases ih hold with hold | ⟨earlier, u, after, rfl, h⟩
        · exact .inl hold
        · exact .inr ⟨earlier, u, after ++ [t], by simp, h⟩
      · exact .inr ⟨before, t, [], rfl, hsucceeds, hcaused⟩

end World

end Ridehail
