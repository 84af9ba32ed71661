import Ridehail.Proofs.Store.Session

/-!
# The life of a stored ride

A step of a ride is written over nine columns of its row, from a copy that may
have been read long before.  Still nothing that was written in between is lost:
the stored status would have moved on, and it never comes back.  Followed over a
whole run of calls, the row of a ride therefore goes through the statuses of one
life, keeps the columns of the request, and fills each other column once.

The times that the columns hold are in order if the clock that the clients use
does not run backwards.  That is the only place where the clock matters.

## Main results

* `Session.path_run` — the statuses that a ride goes through follow the edges of
  the life of a ride.
* `Session.growsTo_run` — no row is removed, and what is filled stays.
* `Session.clocked_run` — the filled times are in order.
* `Session.ride_life` — all of it, of every ride in every run.
-/

namespace Ridehail

/-! ## Paths -/

/-- The statuses that a ride can go through from the one it has, or from its
request on if it does not exist yet. -/
inductive RideStatus.Path : Option RideStatus → List RideStatus → Prop
  | nil (before : Option RideStatus) : Path before []
  | first {rest : List RideStatus} (h : Path (some .requested) rest) :
      Path none (.requested :: rest)
  | step {a b : RideStatus} {rest : List RideStatus} (hab : a.Precedes b)
      (h : Path (some b) rest) : Path (some a) (b :: rest)

namespace RideStatus.Path

/-- Nothing follows the end of a ride. -/
theorem eq_nil_of_isTerminal {a : RideStatus} {path : List RideStatus}
    (h : Path (some a) path) (ha : a.isTerminal = true) : path = [] := by
  cases h with
  | nil => rfl
  | step hab _ => cases hab <;> cases ha

/-- A path leads further and further from the request. -/
theorem pairwise_stage {before : Option RideStatus} {path : List RideStatus}
    (h : Path before path) :
    (before.toList ++ path).Pairwise (·.stage < ·.stage) := by
  induction h with
  | nil before => cases before <;> simp
  | first h ih => exact ih
  | @step a b rest hab h ih =>
      have hrest : (b :: rest).Pairwise (·.stage < ·.stage) := ih
      refine List.pairwise_cons.2 ⟨fun c hc => ?_, hrest⟩
      rcases List.mem_cons.1 hc with rfl | hc
      · exact hab.stage_lt
      · exact Nat.lt_trans hab.stage_lt ((List.pairwise_cons.1 hrest).1 c hc)

/-- A path from the beginning is one of the three lives of a ride, or a part of
one. -/
theorem prefix_of_none {path : List RideStatus} (h : Path none path) :
    path <+: [.requested, .accepted, .inProgress, .completed] ∨
      path <+: [.requested, .accepted, .cancelled] ∨
      path <+: [.requested, .cancelled] := by
  cases h with
  | nil => exact .inl (List.nil_prefix)
  | first h =>
      cases h with
      | nil => exact .inl (by decide)
      | step hab h =>
          cases hab with
          | accept =>
              cases h with
              | nil => exact .inl (by decide)
              | step hab h =>
                  cases hab with
                  | start =>
                      cases h with
                      | nil => exact .inl (by decide)
                      | step hab h =>
                          cases hab with
                          | complete =>
                              rw [h.eq_nil_of_isTerminal rfl]
                              exact .inl (by decide)
                  | cancelAccepted =>
                      rw [h.eq_nil_of_isTerminal rfl]
                      exact .inr (.inl (by decide))
          | cancelRequested =>
              rw [h.eq_nil_of_isTerminal rfl]
              exact .inr (.inr (by decide))

end RideStatus.Path

namespace Session

variable {s : Session} {calls : List StoreCall}

/-- The stored status of a ride. -/
def status? (s : Session) (id : RideId) : Option RideStatus :=
  (s.store.ride? id).map (·.status)

/-- The statuses that a ride takes on during some calls, one for each change. -/
def trail (s : Session) (id : RideId) : List StoreCall → List RideStatus
  | [] => []
  | c :: rest =>
      if (s.next c).status? id = s.status? id then (s.next c).trail id rest
      else ((s.next c).status? id).toList ++ (s.next c).trail id rest

/-! ## What one call changes -/

/-- A ride that exists keeps its status in a call or takes one step. -/
theorem status?_next_of_some (hs : s.Coherent) {c : StoreCall} (hc : s.Allows c)
    {id : RideId} {a : RideStatus} (ha : s.status? id = some a) :
    (s.next c).status? id = some a ∨
      ∃ b, (s.next c).status? id = some b ∧ a.Precedes b := by
  obtain ⟨row, hrow, rfl⟩ := Option.map_eq_some_iff.1 ha
  rcases (ridesChange_next hs hc).ride? hrow with
    hsame | ⟨at_, later, -, hmove, hlater⟩
  · exact .inl (by rw [status?, hsame]; rfl)
  · exact .inr ⟨later.status, by rw [status?, hlater]; rfl, hmove.precedes⟩

/-- A ride that does not exist yet is requested first. -/
theorem status?_next_of_none (hs : s.Coherent) {c : StoreCall} (hc : s.Allows c)
    {id : RideId} (hnone : s.status? id = none) :
    (s.next c).status? id = none ∨ (s.next c).status? id = some .requested := by
  have hmissing : ∀ row ∈ s.store.rides, row.id ≠ id :=
    Store.ride?_eq_none.1 (Option.map_eq_none_iff.1 hnone)
  cases hlater : (s.next c).store.ride? id with
  | none => exact .inl (by rw [status?, hlater]; rfl)
  | some later =>
      obtain ⟨hmem, hid⟩ := Store.mem_of_ride? hlater
      rcases (ridesChange_next hs hc).mem hmem with hold | ⟨r, hfresh, -, rfl⟩ |
        ⟨at_, row, hrow, -, hmove⟩
      · exact absurd hid (hmissing later hold)
      · right
        rw [status?, hlater]
        exact congrArg some hfresh.status_eq
      · exact absurd (hmove.id_eq.symm.trans hid) (hmissing row hrow)

/-! ## Runs -/

/-- The statuses that a ride takes on during a run are a path. -/
theorem path_run (hs : s.Coherent) (hc : s.Permits calls) (id : RideId) :
    RideStatus.Path (s.status? id) (s.trail id calls) := by
  -- The trail begins where the ride is now, so the induction is on the calls to
  -- come.
  induction calls generalizing s with
  | nil => exact .nil _
  | cons c rest ih =>
      have hpath := ih (coherent_next hs hc.1) hc.2
      by_cases hsame : (s.next c).status? id = s.status? id
      · rw [trail, if_pos hsame, ← hsame]
        exact hpath
      · rw [trail, if_neg hsame]
        cases hbefore : s.status? id with
        | none =>
            rcases status?_next_of_none hs hc.1 hbefore with hnone | hfirst
            · exact absurd (hnone.trans hbefore.symm) hsame
            · rw [hfirst] at hpath ⊢
              exact .first hpath
        | some a =>
            rcases status?_next_of_some hs hc.1 hbefore with
              hkept | ⟨b, hb, hab⟩
            · exact absurd (hkept.trans hbefore.symm) hsame
            · rw [hb] at hpath ⊢
              exact .step hab hpath

theorem growsTo_run (hs : s.Coherent) (hc : s.Permits calls) {id : RideId}
    {row : RideRow} (hrow : s.store.ride? id = some row) :
    ∃ later, (s.run calls).store.ride? id = some later ∧ row.GrowsTo later := by
  induction calls generalizing s row with
  | nil => exact ⟨row, hrow, .refl row⟩
  | cons c rest ih =>
      have hnext := coherent_next hs hc.1
      rcases (ridesChange_next hs hc.1).ride? hrow with
        hsame | ⟨at_, moved, -, hmove, hmoved⟩
      · exact ih hnext hc.2 hsame
      · obtain ⟨later, hlater, hgrows⟩ := ih hnext hc.2 hmoved
        have hshaped := hs.shaped row (Store.mem_of_ride? hrow).1
        exact ⟨later, hlater, (hmove.growsTo hshaped).trans hgrows⟩

/-- The times that are stored are in order, and none is later than the times to
come. -/
def Clocked (s : Session) (times : List Instant) : Prop :=
  ∀ row ∈ s.store.rides, row.Timely ∧ ∀ t ∈ times, row.updatedAt ≤ t

theorem clocked_next (hs : s.Coherent) {c : StoreCall} (hc : s.Allows c)
    {times : List Instant} (hclock : (c.time?.toList ++ times).Pairwise (· ≤ ·))
    (h : s.Clocked (c.time?.toList ++ times)) : (s.next c).Clocked times := by
  obtain ⟨-, -, hbelow⟩ := List.pairwise_append.1 hclock
  have hnow : ∀ at_, c.time? = some at_ → ∀ t ∈ times, at_ ≤ t := by
    intro at_ htime
    rw [htime] at hbelow
    exact hbelow at_ (List.mem_singleton_self at_)
  intro later hlater
  rcases (ridesChange_next hs hc).mem hlater with
    hold | ⟨r, hfresh, htime, rfl⟩ | ⟨at_, row, hrow, htime, hmove⟩
  · obtain ⟨htimely, hle⟩ := h later hold
    exact ⟨htimely, fun t ht => hle t (List.mem_append_right _ ht)⟩
  · refine ⟨hfresh.timely, ?_⟩
    show ∀ t ∈ times, r.updatedAt ≤ t
    rw [hfresh.updatedAt_eq]
    exact hnow r.createdAt htime
  · obtain ⟨htimely, hle⟩ := h row hrow
    have hat : row.updatedAt ≤ at_ :=
      hle at_ (List.mem_append_left _
        (by rw [htime]; exact List.mem_singleton_self at_))
    refine ⟨hmove.timely (hs.shaped row hrow) htimely hat, ?_⟩
    rw [hmove.updatedAt_eq]
    exact hnow at_ htime

/-- A run keeps the times in order if the clock does not run backwards. -/
theorem clocked_run (hs : s.Coherent) (hc : s.Permits calls)
    {times : List Instant}
    (hclock : (calls.filterMap StoreCall.time? ++ times).Pairwise (· ≤ ·))
    (h : s.Clocked (calls.filterMap StoreCall.time? ++ times)) :
    (s.run calls).Clocked times := by
  induction calls generalizing s with
  | nil => exact h
  | cons c rest ih =>
      have hsplit : (c :: rest).filterMap StoreCall.time? ++ times =
          c.time?.toList ++ (rest.filterMap StoreCall.time? ++ times) := by
        rw [List.filterMap_cons]
        cases c.time? <;> rfl
      rw [hsplit] at hclock h
      have hnext := clocked_next hs hc.1 hclock h
      exact ih (coherent_next hs hc.1) hc.2
        (List.pairwise_append.1 hclock).2.1 hnext

/-! ## The main result -/

/-- In a run that clients make with copies of any age, and with a clock that
does not run backwards, every ride lives one of the three lives of a ride.  Its
row is never removed; the columns of the request stay, the others are filled
once; the status tells which of them are filled, and their times are in
order. -/
theorem ride_life (calls more : List StoreCall)
    (h : empty.Permits (calls ++ more))
    (hclock : ((calls ++ more).filterMap StoreCall.time?).Pairwise (· ≤ ·)) :
    (∀ id, let trail := empty.trail id (calls ++ more)
      trail <+: [.requested, .accepted, .inProgress, .completed] ∨
        trail <+: [.requested, .accepted, .cancelled] ∨
        trail <+: [.requested, .cancelled]) ∧
    ∀ row ∈ (empty.run calls).store.rides,
      row.Shaped ∧ row.Timely ∧
        ∃ later ∈ (empty.run (calls ++ more)).store.rides,
          row.GrowsTo later := by
  obtain ⟨hcalls, hmore⟩ := permits_append.1 h
  have hs : (empty.run calls).Coherent := coherent_run coherent_empty hcalls
  refine ⟨fun id => ?_, fun row hrow => ⟨hs.shaped row hrow, ?_, ?_⟩⟩
  · exact (path_run coherent_empty h id).prefix_of_none
  · rw [List.filterMap_append] at hclock
    have hempty : empty.Clocked (calls.filterMap StoreCall.time? ++
        more.filterMap StoreCall.time?) := fun _ h => by cases h
    exact (clocked_run coherent_empty hcalls hclock hempty row hrow).1
  · obtain ⟨later, hlater, hgrows⟩ :=
      growsTo_run hs hmore (hs.lawful.ride?_eq hrow)
    rw [run_append]
    exact ⟨later, (Store.mem_of_ride? hlater).1, hgrows⟩

namespace Example

/-- The first ride once it has started. -/
def started : Ride :=
  { taken first with
    status := .inProgress, startedAt := some ⟨8⟩, updatedAt := ⟨8⟩ }

/-- The first ride is started, cancelled from a copy of before, and
completed. -/
def trip : List StoreCall :=
  [.findRide first.id, .advanceRide started .accepted,
    .advanceRide { taken first with
      status := .cancelled, cancelledAt := some ⟨9⟩, updatedAt := ⟨9⟩ }
      .accepted,
    .findRide first.id,
    .advanceRide { started with
      fare := some Decimal.one, status := .completed, completedAt := some ⟨10⟩,
      updatedAt := ⟨10⟩ } .inProgress]

theorem permits_trip : (empty.run Example.calls).Permits trip := by
  refine ⟨trivial, ?_, ?_, trivial, ?_, trivial⟩
  · exact ⟨taken first, by decide, ⟨⟨8⟩, .inl rfl⟩, rfl⟩
  · exact ⟨taken first, by decide, ⟨⟨9⟩, .inr (.inr rfl)⟩, rfl⟩
  · exact ⟨started, by decide, ⟨⟨10⟩, .inr (.inl ⟨Decimal.one, rfl⟩)⟩, rfl⟩

end Example

/-- In the example the late cancellation is not on the trail, and the accepted
row of the middle grows to the completed one. -/
theorem ride_life_example :
    empty.Permits (Example.calls ++ Example.trip) ∧
      ((Example.calls ++ Example.trip).filterMap StoreCall.time?).Pairwise
        (· ≤ ·) ∧
      empty.trail Example.first.id (Example.calls ++ Example.trip) =
        [.requested, .accepted, .inProgress, .completed] ∧
      ∃ row ∈ (empty.run Example.calls).store.rides, row.status = .accepted ∧
        row.Shaped ∧ row.Timely ∧
          ∃ later ∈ (empty.run (Example.calls ++ Example.trip)).store.rides,
            row.GrowsTo later := by
  have hpermits :=
    permits_append.2 ⟨Example.permits_calls, Example.permits_trip⟩
  have hclock :
      ((Example.calls ++ Example.trip).filterMap StoreCall.time?).Pairwise
        (· ≤ ·) := by
    decide
  have hrow : RideRow.ofRide (Example.taken Example.first) ∈
      (empty.run Example.calls).store.rides := by decide
  refine ⟨hpermits, hclock, by decide, _, hrow, rfl, ?_⟩
  exact (ride_life Example.calls Example.trip hpermits hclock).2 _ hrow

end Session

end Ridehail
