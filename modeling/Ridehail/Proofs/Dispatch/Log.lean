import Mathlib.Data.List.Induction
import Ridehail.Proofs.Dispatch.Runs
import Ridehail.Proofs.Store.History

/-!
# The log is the history

An event is built from the record that an operation has in memory, after the
change was committed, and on each of several ways through the matching of rides.
What is published is nevertheless the history of the rides in the store: one
event for each row that is written, in the order in which they are written, and
each tells what the row says.

Somebody who calls for a ride to be matched hands over a record of the ride, and
the event is built from that.  It may be of any age, but has to be one that the
store once had; that the ride can still be accepted then makes it a true copy.

## Main results

* `World.Commit.chronicled` — a commit publishes what it writes.
* `World.chronicled_run` — so does every stretch of a run.
* `World.log_faithful` — the events of each ride, and of all assignments.
-/

namespace Ridehail

/-! ## Events by topic -/

namespace Event

/-- The step of a ride that the event announces. -/
def ride? : Event → Option RideEvent
  | .ride e => some e
  | _ => none

/-- The assignment that the event announces. -/
def assignment? : Event → Option AssignmentEvent
  | .assignment e => some e
  | _ => none

@[simp] theorem ride?_location (e : LocationEvent) :
    (location e).ride? = none := rfl

@[simp] theorem assignment?_location (e : LocationEvent) :
    (location e).assignment? = none := rfl

theorem mem_filterMap_ride? {log : List Event} {e : RideEvent} :
    e ∈ log.filterMap ride? ↔ ride e ∈ log := by
  rw [List.mem_filterMap]
  constructor
  · rintro ⟨event, hevent, hride⟩
    cases event <;> cases hride
    exact hevent
  · exact fun h => ⟨ride e, h, rfl⟩

end Event

/-! ## What an event tells -/

/-- The event announces the step by which the ride has become what it is. -/
structure RideEvent.Announces (e : RideEvent) (r : Ride) : Prop where
  kind : e.kind.status = r.status
  ride : e.ride = r.id
  rider : e.rider = r.rider
  driver : e.driver = r.driver
  pickup : e.pickup.Same r.pickup
  destination : Option.Rel GeoPoint.Same e.destination r.destination
  fare : Option.Rel (fun a b => Decimal.same a b = true) e.fare r.fare
  estimateMinutes : e.estimateMinutes = r.estimateMinutes
  durationMinutes : e.durationMinutes = r.durationMinutes
  timestamp : e.timestamp = r.updatedAt

/-- The event tells what the row says. -/
def RideEvent.Tells (e : RideEvent) (row : RideRow) : Prop :=
  ∃ r, row.read = .ok r ∧ e.Announces r

/-- The event of an assignment is that of the acceptance once more. -/
structure AssignmentEvent.Repeats (a : AssignmentEvent)
    (e : RideEvent) : Prop where
  ride : e.ride = a.ride
  driver : e.driver = some a.driver
  timestamp : e.timestamp = a.timestamp

theorem RideEvent.tells_ofRide {r : Ride} {row : RideRow} (h : row.Shows r)
    {k : RideEventKind} (hkind : k.status = r.status) {at_ : Instant}
    (hat : r.updatedAt = at_) (initiatedBy : Option String) :
    ({ RideEvent.ofRide k r at_ with
      initiatedBy := initiatedBy } : RideEvent).Tells row := by
  obtain ⟨stored, hread, hsame⟩ := h
  have hduration : r.durationMinutes = stored.durationMinutes := by
    rw [Ride.durationMinutes, Ride.durationMinutes, hsame.startedAt,
      hsame.completedAt]
  exact ⟨stored, hread, hkind.trans hsame.status, hsame.id,
    hsame.rider, hsame.driver, hsame.pickup, hsame.destination, hsame.fare,
    hsame.estimateMinutes, hduration,
    hat.symm.trans hsame.updatedAt⟩

theorem RideEvent.Tells.stamped {e : RideEvent} {row : RideRow}
    (h : e.Tells row) :
    e.ride = row.id ∧ e.kind.status = row.status ∧
      e.timestamp = row.updatedAt := by
  obtain ⟨r, hread, hannounces⟩ := h
  obtain ⟨pickup, destination, fare, -, -, -, rfl⟩ :=
    RideRow.read_eq_ok_iff.1 hread
  exact ⟨hannounces.ride, hannounces.kind, hannounces.timestamp⟩

theorem RideEvent.Tells.people {e : RideEvent} {row : RideRow}
    (h : e.Tells row) :
    e.rider = row.rider ∧ e.driver = row.driver := by
  obtain ⟨r, hread, hannounces⟩ := h
  obtain ⟨pickup, destination, fare, -, -, -, rfl⟩ :=
    RideRow.read_eq_ok_iff.1 hread
  exact ⟨hannounces.rider, hannounces.driver⟩

/-- The events of one ride tell what the rows of that ride say. -/
theorem own_tells {events : List RideEvent} {rows : List RideRow}
    (h : List.Forall₂ RideEvent.Tells events rows) (id : RideId) :
    List.Forall₂ RideEvent.Tells (events.filter (·.ride = id))
      (rows.filter (·.id = id)) := by
  refine List.rel_filter (fun e row htells => ?_) h
  show decide (e.ride = id) = true ↔ decide (row.id = id) = true
  rw [htells.stamped.1]

theorem statuses_of_tells {events : List RideEvent} {rows : List RideRow}
    (h : List.Forall₂ RideEvent.Tells events rows) :
    events.map (·.kind.status) = rows.map (·.status) := by
  induction h with
  | nil => rfl
  | cons htells hrest ih =>
      rw [List.map_cons, List.map_cons, ih, htells.stamped.2.1]

theorem times_of_tells {events : List RideEvent} {rows : List RideRow}
    (h : List.Forall₂ RideEvent.Tells events rows) :
    events.map (·.timestamp) = rows.map (·.updatedAt) := by
  induction h with
  | nil => rfl
  | cons htells hrest ih =>
      rw [List.map_cons, List.map_cons, ih, htells.stamped.2.2]

/-! ## Chronicles -/

namespace World

variable {σ : Type} {w mid next : World σ}

/-- What was published between two worlds tells of the rows of rides that were
written between them. -/
structure Chronicle (w next : World σ) (published : List Event)
    (rows : List RideRow) : Prop where
  log_eq : next.log = w.log ++ published
  records : w.store.Records rows next.store
  tells : List.Forall₂ RideEvent.Tells (published.filterMap Event.ride?) rows
  assigned : List.Forall₂ AssignmentEvent.Repeats
    (published.filterMap Event.assignment?)
    ((published.filterMap Event.ride?).filter (·.kind = .accepted))

/-- What was published between two worlds is what was written. -/
def Chronicled (w next : World σ) : Prop :=
  ∃ published rows, w.Chronicle next published rows

/-- Nothing is to be told if no ride was touched. -/
theorem Chronicle.of_rides_eq {published : List Event}
    (hlog : next.log = w.log ++ published)
    (hrides : next.store.rides = w.store.rides)
    (hride : published.filterMap Event.ride? = [])
    (hassignment : published.filterMap Event.assignment? = []) :
    w.Chronicle next published [] where
  log_eq := hlog
  records := .of_rides_eq hrides
  tells := by
    rw [hride]
    exact .nil
  assigned := by
    rw [hride, hassignment]
    exact .nil

theorem Chronicled.refl (w : World σ) : w.Chronicled w :=
  ⟨[], [], .of_rides_eq (List.append_nil _).symm rfl rfl rfl⟩

theorem Chronicled.trans (h : w.Chronicled mid) (hnext : mid.Chronicled next) :
    w.Chronicled next := by
  obtain ⟨published, rows, h⟩ := h
  obtain ⟨more, moreRows, hnext⟩ := hnext
  refine ⟨published ++ more, rows ++ moreRows, ?_,
    h.records.trans hnext.records, ?_, ?_⟩
  · rw [hnext.log_eq, h.log_eq, List.append_assoc]
  · rw [List.filterMap_append]
    exact List.rel_append h.tells hnext.tells
  · rw [List.filterMap_append, List.filterMap_append, List.filter_append]
    exact List.rel_append h.assigned hnext.assigned

/-- If there were no rides, the rows that were written of a ride are its whole
life. -/
theorem Chronicle.life {published : List Event} {rows : List RideRow}
    (h : w.Chronicle next published rows) (hstore : w.store = .empty)
    (id : RideId) :
    RideRow.Life none (rows.filter (·.id = id)) (next.store.ride? id) := by
  have hlife := h.records.life id
  rwa [hstore, show Store.empty.ride? id = none from rfl] at hlife

/-- If there were no rides, the events of one ride are its whole life. -/
theorem Chronicle.own_events {published : List Event} {rows : List RideRow}
    (h : w.Chronicle next published rows) (hstore : w.store = .empty)
    (id : RideId) :
    let own := (published.filterMap Event.ride?).filter (·.ride = id)
    RideStatus.Path none (own.map (·.kind.status)) ∧
      (own.map (·.kind.status)).getLast? =
        (next.store.ride? id).map (·.status) ∧
      own.map (·.timestamp) = (next.store.ride? id).elim [] (·.stamps) := by
  intro own
  have htells := own_tells h.tells id
  have hlife := h.life hstore id
  have hlast := hlife.getLast?
  rw [Option.or_none] at hlast
  rw [statuses_of_tells htells, times_of_tells htells]
  refine ⟨hlife.path, ?_, hlife.stamps fun row hrow => by cases hrow⟩
  rw [List.getLast?_map, hlast]

/-- What was once known of a ride is still known or has grown old. -/
theorem Chronicled.knewRide (h : w.Chronicled next) {r : Ride}
    (hr : w.store.KnewRide r) :
    next.store.KnewRide r := by
  obtain ⟨published, rows, hchronicle⟩ := h
  exact hr.records hchronicle.records

/-! ## Commits -/

variable [DriverIndex σ] {setup : Setup} {c : ServiceCall}

theorem Released.rides_eq {r : Ride} (h : w.Released r next) :
    next.store.rides = w.store.rides := by
  cases h <;> rfl

/-- A commit publishes what it writes. -/
theorem Commit.chronicled (h : w.Commit setup c next) (hs : w.store.Sound)
    (hc : c.Located) (hcopies : ∀ r ∈ c.copies, w.store.KnewRide r) :
    w.Chronicled next := by
  cases h with
  | still h =>
      have hlog : next.log = w.log ++ [] :=
        h.log_eq.trans (List.append_nil _).symm
      exact ⟨[], [], .of_rides_eq hlog (by rw [h.store_eq]) rfl rfl⟩
  | register d s' hstatus hlocation h =>
      obtain ⟨-, -, rfl⟩ := Store.insertDriver_applied h
      exact ⟨[], [], .of_rides_eq (List.append_nil _).symm rfl rfl rfl⟩
  | report row later d pings hrow hlater hd =>
      exact ⟨_, [], .of_rides_eq rfl rfl (by simp) (by simp)⟩
  | retire row at_ hrow =>
      exact ⟨[], [], .of_rides_eq (List.append_nil _).symm rfl rfl rfl⟩
  | request r s' hr hat hestimate hplace h =>
      obtain ⟨-, hnew, -, hstore⟩ := Store.insertRide_applied h
      have hrow : w.store.CommitsRow s' (.ofRide r) :=
        .request r hr hnew (by rw [hstore])
      have hshows := hrow.shows rfl (hplace hc)
      have htells :=
        RideEvent.tells_ofRide hshows (k := .requested)
          hr.status_eq.symm hat none
      exact ⟨_, _, rfl, .committed hrow (.refl s'), .cons htells .nil, .nil⟩
  | assign copy accepted d s' hcopy hd haccept h =>
      obtain ⟨driver, ride, -, -, -, hride, hrequested, -, hstore⟩ :=
        Store.assignRide_applied h
      obtain ⟨hstatus, haccepted⟩ := Ride.accept_eq_ok.1 haccept
      obtain ⟨-, hid⟩ := Store.mem_of_ride? hride
      have hcopyId : accepted.id = copy.id := by rw [haccepted]
      have hhas : w.store.HasRide copy := by
        rcases hcopy hc with h | h
        · exact h
        · exact (hcopies copy h).hasRide (hcopyId ▸ hride)
            (hrequested.trans hstatus.symm)
      have hrow : w.store.CommitsRow s' (ride.assigned accepted d.id) :=
        .move ride _ (hid.symm ▸ hride)
          (RideRow.movesTo_assigned hrequested haccept) (by rw [hstore]; rfl)
      have hshows :=
        hrow.shows hid.symm
          (hhas.assigned (d := d.withStatus .busy w.now) haccept h)
      have htells :=
        RideEvent.tells_ofRide hshows (k := .accepted) (by rw [haccepted]; rfl)
        (by rw [haccepted]) none
      have hdriver : accepted.driver = some d.id := by rw [haccepted]
      exact ⟨_, _, rfl, .committed hrow (.refl s'), .cons htells .nil,
        .cons ⟨rfl, hdriver, rfl⟩ .nil⟩
  | advance old r kind initiatedBy s' mid hold hstep hkind hat hcause h hmid =>
      obtain ⟨row, hfound, hread, hmove, hstore⟩ := hs.advance_inv hold hstep h
      have hrow : w.store.CommitsRow s' (row.advanced r) :=
        .move row _ hfound hmove (by rw [hstore])
      have hid : r.id = row.id := hstep.id_eq.trans (RideRow.read_eq_ok hread).1
      have hshows := hrow.shows hid (Store.hasRide_of_advanceRide hold hstep h)
      have htells := RideEvent.tells_ofRide hshows hkind hat initiatedBy
      have hother : kind ≠ .accepted := by
        rintro rfl
        exact hstep.status_ne_accepted hkind.symm
      refine ⟨[.ride { RideEvent.ofRide kind r w.now with
        initiatedBy := initiatedBy }], [row.advanced r], ?_,
        .committed hrow (.of_rides_eq hmid.rides_eq), .cons htells .nil, ?_⟩
      · show mid.log ++ _ = w.log ++ _
        rw [hmid.log_eq]
      · simp [Event.ride?, Event.assignment?, RideEvent.ofRide, hother]

theorem Commits.chronicled (h : w.Commits setup c next) (hs : w.store.Sound)
    (hc : c.Located) (hcopies : ∀ r ∈ c.copies, w.store.KnewRide r) :
    w.Chronicled next := by
  refine h.keep hs (fun v v' hv hbefore hcommit => ?_) (.refl w)
  exact hbefore.trans (hcommit.chronicled hv hc fun r hr =>
    hbefore.knewRide (hcopies r hr))

theorem chronicled_turn (hs : w.store.Sound) (t : Turn σ)
    (hlocated : t.call.Located)
    (hcopies : ∀ r ∈ t.call.copies, w.store.KnewRide r) :
    w.Chronicled (w.turn setup t) := by
  have hcommits : (t.begin w).Commits setup t.call (w.turn setup t) :=
    commits_after (w := t.begin w) hs t.call
  obtain ⟨published, rows, h⟩ := hcommits.chronicled hs hlocated hcopies
  exact ⟨published, rows, h.log_eq, h.records, h.tells, h.assigned⟩

/-! ## Runs -/

/-- Callers give points as destinations, and hand over only records of rides
that the store had after some call before. -/
inductive Informed (setup : Setup) (w : World σ) : List (Turn σ) → Prop
  | nil : Informed setup w []
  | snoc {turns : List (Turn σ)} {t : Turn σ} (h : Informed setup w turns)
      (hlocated : t.call.Located)
      (hcopies : ∀ r ∈ t.call.copies,
        ∃ earlier later, turns = earlier ++ later ∧
        (run setup w earlier).store.HasRide r) : Informed setup w (turns ++ [t])

/-- Callers that hand over no records are well informed. -/
theorem Informed.of_copies_eq_nil {turns : List (Turn σ)}
    (h : ∀ t ∈ turns, t.call.Located ∧ t.call.copies = []) :
    w.Informed setup turns := by
  induction turns using List.reverseRecOn with
  | nil => exact .nil
  | append_singleton turns t ih =>
      obtain ⟨hlocated, hcopies⟩ := h t (by simp)
      refine .snoc (ih fun u hu => h u (List.mem_append_left _ hu))
        hlocated fun r hr => ?_
      rw [hcopies] at hr
      cases hr

/-- Every stretch of a run publishes what it writes. -/
theorem chronicled_run (hs : w.store.Sound) {turns : List (Turn σ)}
    (h : w.Informed setup turns) :
    ∀ before more, turns = before ++ more →
      (run setup w before).Chronicled (run setup w turns) := by
  induction h with
  | nil =>
      intro before more hsplit
      obtain ⟨rfl, rfl⟩ := List.append_eq_nil_iff.1 hsplit.symm
      exact .refl w
  | @snoc turns t h hlocated hcopies ih =>
      intro before more hsplit
      rcases List.eq_nil_or_concat more with rfl | ⟨more, u, rfl⟩
      · rw [List.append_nil] at hsplit
        rw [hsplit]
        exact .refl _
      · rw [List.concat_eq_append, ← List.append_assoc] at hsplit
        obtain ⟨hturns, -⟩ := List.append_inj' hsplit rfl
        have hturn : (run setup w turns).Chronicled
            ((run setup w turns).turn setup t) := by
          refine chronicled_turn (sound_run hs turns) t hlocated fun r hr => ?_
          obtain ⟨earlier, later, hearlier, hhad⟩ := hcopies r hr
          exact (ih earlier later hearlier).knewRide hhad.knewRide
        rw [run_append]
        exact (ih before more hturns).trans hturn

/-- A call that fails publishes nothing. -/
theorem log_eq_of_error (hs : w.store.Sound) {c : ServiceCall}
    {e : DispatchError} (h : (c.perform setup).runOn w = (.error e, next)) :
    next.log = w.log := by
  have hends := ServiceCall.ends_perform hs setup c
  rw [Dispatch.Ends, h] at hends
  exact hends.log_eq

namespace Example

/-- The ride as it is requested. -/
def copy : Ride := Ride.request trip "a" place none ⟨2⟩

/-- A ride is requested while nobody is online. -/
def waiting : List (Turn Roster) :=
  [{ now := ⟨1⟩, call := .registerDriver dana },
    { now := ⟨2⟩, call := .createRide "a" place none inRange_place }]

/-- The driver comes and is assigned to the ride by somebody who has a record of
it. -/
def claimed : List (Turn Roster) :=
  waiting ++
    [{ now := ⟨3⟩, call := .goOnline "d" (some place) inRange_some_place }] ++
    [{ now := ⟨4⟩, call := .assignRide copy "d" }]

end Example

end World

end Ridehail
