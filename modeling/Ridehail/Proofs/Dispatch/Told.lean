import Ridehail.Proofs.Dispatch.Answers
import Ridehail.Proofs.Dispatch.Causes
import Ridehail.Proofs.Dispatch.Deliveries

/-!
# The people of a ride are told

The notifier knows nothing of the store.  It sees messages, and what it tells
the people of a ride is nevertheless what the row of the ride says in the end:
to the rider the whole history of it, and to the driver that the ride was
cancelled after it had been accepted, and by whom.  The events of a ride are one
for each row that was written of it; a row only grows, so that what an event
tells of is still there; and no cancellation comes before the last.

All of this depends on the messages being readable.  The numbers in them fit,
because the times are those of the clock and the estimates those of the setup.
Only the fare, which goes through a double, can come back as more than what can
be read.  Then the message is passed over, and the rider is not told of the
completion.

## Main results

* `World.Chronicle.filterMap_toRider?`, `filterMap_toDriver?` — what the events
  of a ride have to tell.
* `World.readable_run` — with smaller fares all events of a run are readable.
* `World.all_told_iff` — all events are readable, and the people of all rides
  are told what happened to the rides, exactly if no stored fare is too close to
  the bound of mantissas.
* `World.completion_untold` — the rider who is charged the largest fare is not
  told of the completion.
-/

namespace Ridehail

/-! ## Histories -/

/-- A ride was cancelled after it had been accepted exactly if it is cancelled
and has a driver. -/
theorem RideRow.Shaped.statuses_eq_iff {row : RideRow} (h : row.Shaped) :
    row.history.map Prod.fst = [.requested, .accepted, .cancelled] ↔
      row.status = .cancelled ∧ row.driver.isSome = true := by
  obtain ⟨hdriver, hrequested, haccepted, hstarted, hcompleted, hfare,
      hcancelled⟩ := h
  rw [hdriver, ← hcancelled]
  cases haccepted : row.acceptedAt <;> cases hstarted : row.startedAt <;>
    cases hcompleted : row.completedAt <;>
    cases hcancelled : row.cancelledAt <;> simp_all [history]

/-! ## Events and rows -/

namespace RideEvent.Tells

variable {e : RideEvent} {row : RideRow}

/-- The event has the fare of the row. -/
theorem fare (h : e.Tells row) : ∃ fare, amountOfColumn row.fare = .ok fare ∧
    Option.Rel (fun a b => a.value = b.value) e.fare fare := by
  obtain ⟨r, hread, hannounces⟩ := h
  refine ⟨r.fare, (RideRow.read_eq_ok hread).2.2.2.2.1, ?_⟩
  have hfare := hannounces.fare
  simpa only [Decimal.same_iff_value] using hfare

/-- The event can be sent, but for the fare, if the numbers of the row fit. -/
theorem sendable (h : e.Tells row) (htime : IsInt64 e.timestamp.ms)
    (hestimate : ∀ minutes ∈ row.estimateMinutes, IsInt64 minutes)
    (hstamps : ∀ t ∈ row.stamps, IsInt64 t.ms) : e.Sendable := by
  obtain ⟨r, hread, hannounces⟩ := h
  obtain ⟨pickup, destination, fare, hpickup, hdestination, -, rfl⟩ :=
    RideRow.read_eq_ok_iff.1 hread
  have hplaced := inRange_of_pointOfColumns hdestination
  refine ⟨?_, fun p hp => ?_, ?_, fun n hn => ?_, htime⟩
  · obtain ⟨-, hrange⟩ := (GeoPoint.make_eq_ok_iff _ _ _).1 hpickup
    exact hannounces.pickup.isFinite (GeoPoint.isFinite_of_inRange hrange)
  · have hsame := hannounces.destination
    rw [show e.destination = some p from hp] at hsame
    cases hsame with
    | some hsame =>
        exact hsame.isFinite (GeoPoint.isFinite_of_inRange (hplaced _ rfl))
  · rw [hannounces.estimateMinutes]
    exact hestimate
  · rw [hannounces.durationMinutes] at hn
    obtain ⟨started, hstarted, hn⟩ := Option.bind_eq_some_iff.1 hn
    obtain ⟨completed, hcompleted, hn⟩ := Option.bind_eq_some_iff.1 hn
    cases hn
    have hstarted : row.startedAt = some started := hstarted
    have hcompleted : row.completedAt = some completed := hcompleted
    apply Instant.isInt64_wholeMinutesUntil
    · exact hstamps started (by simp [RideRow.stamps, hstarted])
    · exact hstamps completed (by simp [RideRow.stamps, hcompleted])

theorem kind_eq_cancelled_iff (h : e.Tells row) :
    e.kind = .cancelled ↔ row.status = .cancelled := by
  rw [← h.stamped.2.1]
  cases e.kind <;> simp [RideEventKind.status]

end RideEvent.Tells

theorem RideEvent.exists_tells {events : List RideEvent} {rows : List RideRow}
    (h : List.Forall₂ RideEvent.Tells events rows) {e : RideEvent}
    (he : e ∈ events) :
    ∃ row ∈ rows, e.Tells row := by
  induction h with
  | nil => cases he
  | cons htells hrest ih =>
      rcases List.mem_cons.1 he with rfl | he
      · exact ⟨_, List.mem_cons_self, htells⟩
      · obtain ⟨row, hrow, htells⟩ := ih he
        exact ⟨row, List.mem_cons_of_mem _ hrow, htells⟩

/-- What riders are told of events is what is in the rows. -/
theorem RideEvent.filterMap_toRider? {events : List RideEvent}
    {rows : List RideRow} (h : List.Forall₂ RideEvent.Tells events rows) :
    events.filterMap RideEvent.toRider? =
      rows.filterMap fun row => row.status.notice?.map (row.rider, ·) := by
  induction h with
  | nil => rfl
  | @cons e row events rows htells hrest ih =>
      have hsame : e.toRider? = row.status.notice?.map (row.rider, ·) := by
        rw [toRider?, htells.stamped.2.1, htells.people.1]
      rw [List.filterMap_cons, List.filterMap_cons, hsame, ih]

namespace World

variable {σ : Type} {w next : World σ} {published : List Event}
  {rows : List RideRow} {row : RideRow}

/-! ## The events of a run -/

/-- The ride of an event has a row, which grew from the one that the event tells
of. -/
theorem Chronicle.exists_grown (h : w.Chronicle next published rows)
    (hstore : w.store = .empty) {e : RideEvent}
    (he : e ∈ published.filterMap Event.ride?) :
    ∃ row last, e.Tells row ∧ next.store.ride? e.ride = some last ∧
      row.GrowsTo last := by
  obtain ⟨row, hrow, htells⟩ :=
    RideEvent.exists_tells (own_tells h.tells e.ride)
    (List.mem_filter.2 ⟨he, decide_eq_true rfl⟩)
  have hlife := h.life hstore e.ride
  obtain ⟨before, last, -, hlast, -⟩ :=
    hlife.eq_concat (List.ne_nil_of_mem hrow)
  rw [hlast] at hlife
  have hmem : row ∈ [] ++ rows.filter (·.id = e.ride) := hrow
  exact ⟨row, last, htells, hlast,
    hlife.growsTo (fun row hrow => by cases hrow) hmem⟩

/-- The events of a ride end with one that tells of its row, and none before
that announces a cancellation. -/
theorem Chronicle.own_eq_concat (h : w.Chronicle next published rows)
    (hstore : w.store = .empty) (hrow : next.store.ride? row.id = some row) :
    ∃ before e, (published.filterMap Event.ride?).filter (·.ride = row.id) =
      before ++ [e] ∧ e.Tells row ∧ ∀ b ∈ before, b.kind ≠ .cancelled := by
  have htells := own_tells h.tells row.id
  have hlife := h.life hstore row.id
  have hrows : rows.filter (·.id = row.id) ≠ [] := by
    intro hnil
    have hlast := hlife.getLast?
    rw [hnil, hrow] at hlast
    cases hlast
  obtain ⟨before, last, hsplit, hlast, hstage⟩ := hlife.eq_concat hrows
  obtain rfl : row = last := Option.some.inj (hrow.symm.trans hlast)
  rw [hsplit] at htells
  have hbefore := List.forall₂_take_append _ _ _ htells
  have hend := List.forall₂_drop_append _ _ _ htells
  generalize (published.filterMap Event.ride?).filter (·.ride = row.id) =
    own at hbefore hend ⊢
  obtain ⟨e, hlast, hdrop⟩ : ∃ e : RideEvent,
      e.Tells row ∧ own.drop before.length = [e] := by
    generalize own.drop before.length = ending at hend
    cases hend with
    | cons htells hrest =>
        cases hrest
        exact ⟨_, htells, rfl⟩
  refine ⟨own.take before.length, e, ?_, hlast, fun b hb hkind => ?_⟩
  · rw [← hdrop, List.take_append_drop]
  · obtain ⟨earlier, hearlier, htells⟩ := RideEvent.exists_tells hbefore hb
    have hless := hstage earlier hearlier
    rw [← htells.stamped.2.1, hkind] at hless
    revert hless
    cases row.status <;> decide

/-- What the rider is told of the events of a ride is its history. -/
theorem Chronicle.filterMap_toRider? (h : w.Chronicle next published rows)
    (hstore : w.store = .empty) (hrow : next.store.ride? row.id = some row) :
    ((published.filterMap Event.ride?).filter (·.ride = row.id)).filterMap
      RideEvent.toRider? = row.history.filterMap fun entry =>
        entry.1.notice?.map (row.rider, ·) := by
  have hlife := h.life hstore row.id
  rw [hrow] at hlife
  have hhistory : [] ++ (rows.filter (·.id = row.id)).map
      (fun row => (row.status, row.updatedAt)) = row.history :=
    hlife.history fun row hrow => by cases hrow
  rw [RideEvent.filterMap_toRider? (own_tells h.tells row.id), ← hhistory,
    List.nil_append, List.filterMap_map]
  refine List.filterMap_congr fun earlier hearlier => ?_
  have hmem : earlier ∈ [] ++ rows.filter (·.id = row.id) := hearlier
  have hgrows := hlife.growsTo (fun row hrow => by cases hrow) hmem
  rw [← hgrows.rider]
  rfl

/-- What the driver is told of the events of a ride is at most its
cancellation. -/
theorem Chronicle.filterMap_toDriver? (h : w.Chronicle next published rows)
    (hstore : w.store = .empty) (hrow : next.store.ride? row.id = some row) :
    ∃ e ∈ published.filterMap Event.ride?, e.Tells row ∧
      ((published.filterMap Event.ride?).filter (·.ride = row.id)).filterMap
        RideEvent.toDriver? = e.toDriver?.toList := by
  obtain ⟨before, e, hown, htells, hkinds⟩ := h.own_eq_concat hstore hrow
  have hmem :
      e ∈ (published.filterMap Event.ride?).filter (·.ride = row.id) := by
    rw [hown]
    exact List.mem_append_right _ (List.mem_singleton_self e)
  have hbefore : before.filterMap RideEvent.toDriver? = [] :=
    List.filterMap_eq_nil_iff.2 fun b hb => if_neg (hkinds b hb)
  refine ⟨e, List.mem_of_mem_filter hmem, htells, ?_⟩
  rw [hown, List.filterMap_append, hbefore]
  cases htoDriver : e.toDriver? <;> simp [htoDriver]

/-! ## What is delivered in a run -/

variable [DriverIndex σ] {setup : Setup} {turns : List (Turn σ)}

/-- In the run one who gave this name has cancelled the ride. -/
def CancelledBy (setup : Setup) (w : World σ) (turns : List (Turn σ))
    (ride : RideId) (initiatedBy : String) : Prop :=
  ∃ before t after, turns = before ++ t :: after ∧
    t.call = .cancelRide ride initiatedBy ∧
    (run setup w before).Succeeds setup t

/-- Of a ride, its rider is told the whole history, and its driver if it was
cancelled after it had been accepted, and by whom. -/
structure ToldOf (setup : Setup) (w : World σ) (turns : List (Turn σ))
    (deliveries : List Delivery) (row : RideRow) : Prop where
  rider : deliveries.filterMap Delivery.toRider? =
    row.history.filterMap fun entry => entry.1.notice?.map (row.rider, ·)
  driver : row.history.map Prod.fst = [.requested, .accepted, .cancelled] →
    ∃ driver initiatedBy, row.driver = some driver ∧
      CancelledBy setup w turns row.id initiatedBy ∧
        deliveries.filterMap Delivery.toDriver? =
          [(driver, "RIDE_CANCELLED",
            .object [("initiatedBy", .string initiatedBy)])]
  nobody : row.history.map Prod.fst ≠ [.requested, .accepted, .cancelled] →
    deliveries.filterMap Delivery.toDriver? = []

/-- All events of rides in a run are readable, and what is delivered is what
happened to the rides, and nothing else. -/
structure AllTold (setup : Setup) (w : World σ)
    (turns : List (Turn σ)) : Prop where
  readable : ∀ e ∈ (run setup w turns).log, e.published.topic = .rideEvents →
    (Notifier.rideEvent? e.published).isSome = true
  told : ∀ row ∈ (run setup w turns).store.rides, ToldOf setup w turns
    ((Notifier.deliveries (run setup w turns).log).filter
      (·.ride? = some row.id)) row
  others : ∀ d ∈ Notifier.deliveries (run setup w turns).log,
    ∃ row ∈ (run setup w turns).store.rides, d.ride? = some row.id

section Run

variable (hstore : w.store = .empty) (hlog : w.log = [])
  (h : w.Chronicle (run setup w turns) published rows)
include hstore hlog h

theorem exists_cause {e : RideEvent}
    (he : e ∈ published.filterMap Event.ride?) :
    ∃ before t after, turns = before ++ t :: after ∧
      (run setup w before).Succeeds setup t ∧ e.CausedBy t.call t.now := by
  have hs : w.store.Sound := hstore ▸ Store.sound_empty
  have hmem : .ride e ∈ (run setup w turns).log := by
    rw [h.log_eq, hlog, List.nil_append]
    exact Event.mem_filterMap_ride?.1 he
  rcases run_caused hs turns hmem with hold | hcause
  · rw [hlog] at hold
    cases hold
  · exact hcause

/-- The events of a run can be sent, but for their fares. -/
theorem sendable_run (hclock : ∀ t ∈ turns, IsInt64 t.now.ms)
    {e : RideEvent} (he : e ∈ published.filterMap Event.ride?) :
    e.Sendable := by
  have htime {e : RideEvent} (he : e ∈ published.filterMap Event.ride?) :
      IsInt64 e.timestamp.ms := by
    obtain ⟨before, t, after, rfl, -, hcaused⟩ := exists_cause hstore hlog h he
    rw [hcaused.timestamp]
    exact hclock t (by simp)
  obtain ⟨row, last, htells, hlast, hgrows⟩ := h.exists_grown hstore he
  -- The times that the row holds are those of the events of the ride.
  obtain ⟨-, -, htimes⟩ := h.own_events hstore e.ride
  rw [hlast] at htimes
  have hstamps : ∀ t ∈ last.stamps, IsInt64 t.ms := by
    intro t ht
    rw [show last.stamps = _ from htimes.symm] at ht
    obtain ⟨e', he', rfl⟩ := List.mem_map.1 ht
    exact htime (List.mem_of_mem_filter he')
  refine htells.sendable (htime he) ?_ fun t ht =>
    hstamps t (hgrows.mem_stamps ht)
  intro minutes hminutes
  rw [← hgrows.estimateMinutes] at hminutes
  have hestimated : (run setup w turns).store.Estimated setup :=
    estimated_run hstore turns
  exact (hestimated last (Store.mem_of_ride? hlast).1 minutes hminutes).isInt64

/-- The events of a run are readable if no stored fare is too close to the
bound. -/
theorem readable_run (hclock : ∀ t ∈ turns, IsInt64 t.now.ms)
    (hfares : ∀ row ∈ (run setup w turns).store.rides, ∀ fare,
      amountOfColumn row.fare = .ok (some fare) →
        |fare.value| < Double.wholeLimit)
    {e : RideEvent} (he : e ∈ published.filterMap Event.ride?) :
    Notifier.Readable e := by
  apply Notifier.exists_rideEvent?_published
    (sendable_run hstore hlog h hclock he)
  intro d hd
  obtain ⟨row, last, htells, hlast, hgrows⟩ := h.exists_grown hstore he
  obtain ⟨fare, hamount, hsame⟩ := htells.fare
  rw [show e.fare = some d from hd] at hsame
  cases hsame with
  | @some _ fare hvalue =>
      rw [hvalue]
      apply hfares last (Store.mem_of_ride? hlast).1 fare
      cases hcolumn : row.fare with
      | none =>
          rw [hcolumn] at hamount
          cases hamount
      | some text =>
          rw [hgrows.fare text hcolumn, ← hcolumn]
          exact hamount

/-- What is delivered of a ride whose events are readable. -/
theorem toldOf_run
    (hreadable : ∀ e ∈ published.filterMap Event.ride?, Notifier.Readable e)
    (hrow : row ∈ (run setup w turns).store.rides) :
    ToldOf setup w turns
      ((Notifier.deliveries published).filter (·.ride? = some row.id)) row := by
  have hs : w.store.Sound := hstore ▸ Store.sound_empty
  have hlast : (run setup w turns).store.Sound := sound_run hs turns
  have hfound := hlast.lawful.ride?_eq hrow
  have hstatuses := (hlast.shaped row hrow).statuses_eq_iff
  obtain ⟨e, he, htells, hdriver⟩ := h.filterMap_toDriver? hstore hfound
  have hdelivered :=
    Notifier.filterMap_deliveries Notifier.filterMap_toDriver?_deliveriesOf
    (fun _ _ => rfl) hreadable row.id
  rw [hdriver, RideEvent.toDriver?, htells.people.2] at hdelivered
  refine ⟨?_, fun hcancelled => ?_, fun hother => ?_⟩
  · rw [Notifier.filterMap_deliveries Notifier.filterMap_toRider?_deliveriesOf
      (fun _ _ => rfl) hreadable row.id]
    exact h.filterMap_toRider? hstore hfound
  · obtain ⟨hstatus, hsome⟩ := hstatuses.1 hcancelled
    have hkind := htells.kind_eq_cancelled_iff.2 hstatus
    obtain ⟨driver, hdriver⟩ := Option.isSome_iff_exists.1 hsome
    obtain ⟨before, t, after, hsplit, hsucceeds, hcaused⟩ :=
      exists_cause hstore hlog h he
    obtain ⟨initiatedBy, hcall, hinitiated⟩ := hcaused.causes hkind
    rw [htells.stamped.1] at hcall
    refine ⟨driver, initiatedBy, hdriver,
      ⟨before, t, after, hsplit, hcall, hsucceeds⟩, ?_⟩
    rw [hdelivered, if_pos hkind, hdriver, hinitiated]
    rfl
  · rw [hdelivered]
    split
    · rename_i hkind
      have hstatus := htells.kind_eq_cancelled_iff.1 hkind
      have hnone : row.driver = none :=
        Option.not_isSome_iff_eq_none.1 fun hsome =>
          hother (hstatuses.2 ⟨hstatus, hsome⟩)
      rw [hnone]
      rfl
    · rfl

omit hlog in
/-- A stored fare that is too close to the bound makes an event unreadable. -/
theorem lt_of_readable
    (hread : ∀ e ∈ published.filterMap Event.ride?,
      (Notifier.rideEvent? (Event.ride e).published).isSome = true)
    (hrow : row ∈ (run setup w turns).store.rides) {fare : Decimal}
    (hamount : amountOfColumn row.fare = .ok (some fare)) :
    |fare.value| < Double.wholeLimit := by
  have hs : w.store.Sound := hstore ▸ Store.sound_empty
  have hlast : (run setup w turns).store.Sound := sound_run hs turns
  obtain ⟨e, he, htells, -⟩ :=
    h.filterMap_toDriver? hstore (hlast.lawful.ride?_eq hrow)
  obtain ⟨told, hsame, hvalue⟩ := htells.fare
  obtain rfl : told = some fare := Except.ok.inj (hsame.symm.trans hamount)
  by_contra hlarge
  cases hd : e.fare with
  | none =>
      rw [hd] at hvalue
      cases hvalue
  | some d =>
      rw [hd] at hvalue
      cases hvalue with
      | some hvalue =>
          have hisSome := hread e he
          rw [Notifier.rideEvent?_published_of_le hd (hvalue ▸ not_lt.1 hlarge)]
            at hisSome
          cases hisSome

end Run

/-- Take any run from an empty store and an empty log, with a clock of 64 bits,
and let the notifier handle all events that are published in it.  It can read
all events of rides, and tells the rider of each ride of every step after the
request, in order, and the driver of a ride that was cancelled after having been
accepted exactly once of that, with the name that was given by the one who
cancelled it, and tells nobody anything else, exactly if every stored fare stays
away from the bound of mantissas. -/
theorem all_told_iff (hstore : w.store = .empty) (hlog : w.log = [])
    (hturns : w.Informed setup turns) (hclock : ∀ t ∈ turns, IsInt64 t.now.ms) :
    AllTold setup w turns ↔ ∀ row ∈ (run setup w turns).store.rides, ∀ fare,
      amountOfColumn row.fare = .ok (some fare) →
        |fare.value| < Double.wholeLimit := by
  have hs : w.store.Sound := hstore ▸ Store.sound_empty
  obtain ⟨published, rows, h⟩ := chronicled_run hs hturns [] turns rfl
  change w.Chronicle (run setup w turns) published rows at h
  have hpublished : (run setup w turns).log = published := by
    rw [h.log_eq, hlog, List.nil_append]
  constructor
  · intro htold row hrow fare hamount
    refine lt_of_readable hstore h (fun e he => ?_) hrow hamount
    exact htold.readable (.ride e) (hpublished ▸ Event.mem_filterMap_ride?.1 he)
      rfl
  · intro hfares
    have hreadable : ∀ e ∈ published.filterMap Event.ride?,
        Notifier.Readable e :=
      fun e he => readable_run hstore hlog h hclock hfares he
    refine ⟨fun e he htopic => ?_, fun row hrow => ?_, fun d hd => ?_⟩
    · rw [hpublished] at he
      cases e with
      | ride e =>
          obtain ⟨fare, hread⟩ := hreadable e (Event.mem_filterMap_ride?.2 he)
          rw [hread]
          rfl
      | location e => cases htopic
      | assignment e => cases htopic
    · rw [hpublished]
      exact toldOf_run hstore hlog h hreadable hrow
    · rw [hpublished, Notifier.deliveries_eq] at hd
      obtain ⟨e, he, hd⟩ := List.mem_flatMap.1 hd
      obtain ⟨-, last, -, hlast, -⟩ := h.exists_grown hstore he
      obtain ⟨hmem, hid⟩ := Store.mem_of_ride? hlast
      exact ⟨last, hmem, hid ▸ (hreadable e he).ride?_of_mem hd⟩

namespace Example

/-- The ride of the example is completed for some fare. -/
def completed (fare : Decimal) : List (Turn Roster) :=
  started ++ [{ now := ⟨5⟩, call := .completeRide trip "d" fare }]

/-- The rider takes another ride, and cancels it. -/
def evening : List (Turn Roster) :=
  completed fare ++
    [{ now := ⟨6⟩, call := .createRide "a" place none inRange_place },
      { now := ⟨7⟩, call := .cancelRide (RideId.ofSerial 2) "a" }]

/-- The largest fare that there is. -/
def largestFare : Decimal := .ofInt mantissaLimit

theorem informed_completed (fare : Decimal) :
    start.Informed {} (completed fare) := by
  apply Informed.of_copies_eq_nil
  simp [completed, started, accepted, ServiceCall.Located, ServiceCall.copies]

theorem informed_evening : start.Informed {} evening := by
  apply Informed.of_copies_eq_nil
  simp [evening, completed, started, accepted, ServiceCall.Located,
    ServiceCall.copies]

end Example

/-- In the example the rider is told everything of both rides, and the driver of
the cancellation of the second. -/
theorem all_told_iff_evening :
    Example.start.store = .empty ∧ Example.start.log = [] ∧
      Example.start.Informed {} Example.evening ∧
      (∀ t ∈ Example.evening, IsInt64 t.now.ms) ∧
      (run {} Example.start Example.evening).store.rides.map
          (fun row => (row.history.map Prod.fst, row.fare)) =
        [([.requested, .accepted, .inProgress, .completed], some "18.5"),
          ([.requested, .accepted, .cancelled], none)] ∧
      AllTold {} Example.start Example.evening := by
  have hclock : ∀ t ∈ Example.evening, IsInt64 t.now.ms := by
    simp [Example.evening, Example.completed, Example.started,
      Example.accepted, IsInt64, Double.int64Min, Double.int64Max]
  have hrides : (run {} Example.start Example.evening).store.rides.map
      (fun row => (row.history.map Prod.fst, row.fare)) =
        [([.requested, .accepted, .inProgress, .completed], some "18.5"),
          ([.requested, .accepted, .cancelled], none)] := by
    decide +kernel
  have hread : (amountOfColumn (some "18.5")).toOption =
      some (some { negative := false, mantissa := 185, scale := 1 }) := by
    decide +kernel
  refine ⟨rfl, rfl, Example.informed_evening, hclock, hrides, ?_⟩
  refine (all_told_iff rfl rfl Example.informed_evening hclock).2
    fun row hrow fare h => ?_
  have hcolumns :
      (run {} Example.start Example.evening).store.rides.map (·.fare) =
      [some "18.5", none] := by
    have hsecond := congrArg (List.map Prod.snd) hrides
    rwa [List.map_map] at hsecond
  have hcolumn : row.fare ∈ [some "18.5", none] :=
    hcolumns ▸ List.mem_map_of_mem hrow
  rcases List.mem_cons.1 hcolumn with hsome | hnone
  · rw [hsome] at h
    rw [h] at hread
    obtain rfl := Option.some.inj (Option.some.inj hread)
    rw [Decimal.abs_value]
    norm_num [Double.wholeLimit]
  · rw [List.mem_singleton.1 hnone] at h
    cases h

/-- A ride is completed for the largest fare that there is.  The event of the
completion cannot be read, and the rider is told of the steps before it only. -/
theorem completion_untold :
    let turns := Example.completed Example.largestFare
    let last := run {} Example.start turns
    Example.start.store = .empty ∧ Example.start.log = [] ∧
      Example.start.Informed {} turns ∧
      (last.store.ride? Example.trip).map (·.status) = some .completed ∧
      ((Notifier.deliveries last.log).filter
        (·.ride? = some Example.trip)).filterMap
        Delivery.toRider? = [("a", "ASSIGNED"), ("a", "IN_PROGRESS")] ∧
      ¬AllTold {} Example.start turns := by
  intro turns last
  have hcompleted : (last.store.ride? Example.trip).map (·.status) =
      some .completed := by
    decide +kernel
  have htold :
      ((Notifier.deliveries last.log).filter
        (·.ride? = some Example.trip)).filterMap
      Delivery.toRider? = [("a", "ASSIGNED"), ("a", "IN_PROGRESS")] := by
    decide +kernel
  have hunreadable : ∃ e ∈ last.log, e.published.topic = .rideEvents ∧
      (Notifier.rideEvent? e.published).isSome = false := by
    have hany : last.log.any (fun e => e.published.topic = .rideEvents &&
        !(Notifier.rideEvent? e.published).isSome) = true := by
      decide +kernel
    simpa using hany
  refine ⟨rfl, rfl, Example.informed_completed _, hcompleted, htold,
    fun hall => ?_⟩
  obtain ⟨e, he, htopic, hnone⟩ := hunreadable
  exact Bool.false_ne_true (hnone.symm.trans (hall.readable e he htopic))

end World

end Ridehail
