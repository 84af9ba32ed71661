import Ridehail.Store.Row

/-!
# How the row of a ride moves

The life of a ride, told of the row in which it is stored.  A row moves in four
ways, one for each action on a ride, and a move writes exactly the columns of
its action: `RideRow.MovesTo`.  The module collects what one move does, so that
the theory of whole runs never looks at a column again.

* `RideRow.Shaped` — the status tells which columns are filled.
* `RideRow.Timely` — the filled time columns are in order, and the last of them
  is when the row was updated.
* `RideRow.GrowsTo` — what one row has, the other has too: the columns of the
  request are the same, and a column that was filled holds what it held.

A move is possible because every action starts from statuses in which its
columns are still empty.  That is where the shape is used: without it a move
could overwrite a column.

## Main results

* `RideRow.MovesTo.precedes` — a move follows an edge of the life of a ride.
* `RideRow.MovesTo.shaped`, `.timely`, `.growsTo` — what moves keep.
* `RideRow.movesTo_assigned`, `RideRow.movesTo_advanced` — what is written when
  a record takes a step is a move of the row.
-/

namespace Ridehail

/-! ## The life of a ride as a graph -/

/-- The edges of the life of a ride. -/
inductive RideStatus.Precedes : RideStatus → RideStatus → Prop
  | accept : Precedes .requested .accepted
  | start : Precedes .accepted .inProgress
  | complete : Precedes .inProgress .completed
  | cancelRequested : Precedes .requested .cancelled
  | cancelAccepted : Precedes .accepted .cancelled

/-- How far a status is from the request. -/
def RideStatus.stage : RideStatus → Nat
  | .requested => 0
  | .accepted => 1
  | .inProgress => 2
  | .completed => 3
  | .cancelled => 3

/-- Every edge leads further from the request, so that no status comes back. -/
theorem RideStatus.Precedes.stage_lt {a b : RideStatus} (h : a.Precedes b) :
    a.stage < b.stage := by
  cases h <;> decide

/-! ## The transitions of records -/

namespace Ride

variable {r r' : Ride} {at_ : Instant}

theorem act_eq_ok {action : RideAction} {after : Ride} :
    r.act action after = .ok r' ↔
      action.allows r.status = true ∧ r' = after := by
  unfold act can
  split
  · rename_i h
    simp [h, eq_comm]
  · rename_i h
    simp [h]

theorem accept_eq_ok {driver : DriverId} :
    r.accept driver at_ = .ok r' ↔
      r.status = .requested ∧
        r' = { r with
          driver := some driver, status := .accepted, acceptedAt := some at_,
          updatedAt := at_ } := by
  rw [accept, act_eq_ok]
  cases r.status <;> simp [RideAction.allows]

theorem start_eq_ok :
    r.start at_ = .ok r' ↔
      r.status = .accepted ∧
        r' = { r with
          status := .inProgress, startedAt := some at_, updatedAt := at_ } := by
  rw [start, act_eq_ok]
  cases r.status <;> simp [RideAction.allows]

theorem complete_eq_ok {fare : Decimal} :
    r.complete fare at_ = .ok r' ↔
      r.status = .inProgress ∧
        r' = { r with
          fare := some fare, status := .completed, completedAt := some at_,
          updatedAt := at_ } := by
  rw [complete, act_eq_ok]
  cases r.status <;> simp [RideAction.allows]

theorem cancel_eq_ok :
    r.cancel at_ = .ok r' ↔
      (r.status = .requested ∨ r.status = .accepted) ∧
        r' = { r with
          status := .cancelled, cancelledAt := some at_,
          updatedAt := at_ } := by
  rw [cancel, act_eq_ok]
  cases r.status <;> simp [RideAction.allows]

/-- The step that is decided on a copy of a ride, other than the acceptance. -/
def StepsTo (old r : Ride) : Prop :=
  ∃ at_, old.start at_ = .ok r ∨ (∃ fare, old.complete fare at_ = .ok r) ∨
    old.cancel at_ = .ok r

theorem StepsTo.id_eq (h : r.StepsTo r') : r'.id = r.id := by
  obtain ⟨at_, h | ⟨fare, h⟩ | h⟩ := h
  · rw [(start_eq_ok.1 h).2]
  · rw [(complete_eq_ok.1 h).2]
  · rw [(cancel_eq_ok.1 h).2]

theorem StepsTo.status_ne (h : r.StepsTo r') : r.status ≠ .completed := by
  obtain ⟨at_, h | ⟨fare, h⟩ | h⟩ := h
  · simp [(start_eq_ok.1 h).1]
  · simp [(complete_eq_ok.1 h).1]
  · rcases (cancel_eq_ok.1 h).1 with h | h <;> simp [h]

theorem StepsTo.status_ne_accepted (h : r.StepsTo r') :
    r'.status ≠ .accepted := by
  obtain ⟨at_, h | ⟨fare, h⟩ | h⟩ := h
  · simp [(start_eq_ok.1 h).2]
  · simp [(complete_eq_ok.1 h).2]
  · simp [(cancel_eq_ok.1 h).2]

/-- Only an acceptance gives a ride a driver. -/
theorem StepsTo.driver_eq (h : r.StepsTo r') : r'.driver = r.driver := by
  obtain ⟨at_, h | ⟨fare, h⟩ | h⟩ := h
  · rw [(start_eq_ok.1 h).2]
  · rw [(complete_eq_ok.1 h).2]
  · rw [(cancel_eq_ok.1 h).2]

theorem StepsTo.isActive (h : r.StepsTo r') : r.status.isActive = true := by
  obtain ⟨at_, h | ⟨fare, h⟩ | h⟩ := h
  · rw [(start_eq_ok.1 h).1]; rfl
  · rw [(complete_eq_ok.1 h).1]; rfl
  · rcases (cancel_eq_ok.1 h).1 with h | h <;> rw [h] <;> rfl

/-- A ride that occupies its driver after a step did so before. -/
theorem StepsTo.occupiesDriver (h : r.StepsTo r')
    (hafter : r'.status.occupiesDriver = true) :
    r.status.occupiesDriver = true := by
  obtain ⟨at_, h | ⟨fare, h⟩ | h⟩ := h
  · rw [(start_eq_ok.1 h).1]; rfl
  · rw [(complete_eq_ok.1 h).2] at hafter; cases hafter
  · rw [(cancel_eq_ok.1 h).2] at hafter; cases hafter

/-- A newly requested ride, with or without an estimate, whose pickup is a
point. -/
def Fresh (r : Ride) : Prop :=
  ∃ id rider pickup destination at_ estimateMinutes,
    pickup.lat.isNaN = false ∧ pickup.lng.isNaN = false ∧
      r = { Ride.request id rider pickup destination at_ with estimateMinutes }

end Ride

namespace Driver

variable {d d' : Driver} {now : Instant}

theorem startRide_eq_ok :
    d.startRide now = .ok d' ↔ d.status = .available ∧
      d' = d.withStatus .busy now := by
  unfold startRide
  split <;> simp_all [eq_comm]

theorem finishRide_eq_ok :
    d.finishRide now = .ok d' ↔
      d.status = .busy ∧ d' = d.withStatus .available now := by
  unfold finishRide
  split <;> simp_all [eq_comm]

theorem leaveRide_eq_ok :
    d.leaveRide now = .ok d' ↔
      (d.status = .busy ∨ d.status = .enRoute) ∧
        d' = d.withStatus .available now := by
  unfold leaveRide
  split <;> simp_all [eq_comm]

theorem goOnline_eq_ok :
    d.goOnline now = .ok d' ↔
      d.location.isSome = true ∧ (d.status = .offline ∨ d.status = .available) ∧
        d' = d.withStatus .available now := by
  unfold goOnline
  cases hlocation : d.location with
  | none => simp
  | some p => cases hstatus : d.status <;> simp [eq_comm]

end Driver

namespace RideRow

/-! ## Shapes -/

/-- The status tells which columns are filled. -/
structure Shaped (row : RideRow) : Prop where
  /-- The driver and the time of the acceptance are filled together. -/
  driver_iff : row.driver.isSome = true ↔ row.acceptedAt.isSome = true
  requested : row.status = .requested → row.acceptedAt = none
  accepted : row.status = .accepted ∨ row.status = .inProgress ∨
    row.status = .completed →
    row.acceptedAt.isSome = true
  started_iff : row.startedAt.isSome = true ↔
    row.status = .inProgress ∨ row.status = .completed
  completed_iff : row.completedAt.isSome = true ↔ row.status = .completed
  fare_iff : row.fare.isSome = true ↔ row.status = .completed
  cancelled_iff : row.cancelledAt.isSome = true ↔ row.status = .cancelled

/-- Only a completed ride has a fare. -/
theorem Shaped.fare_eq_none {row : RideRow} (h : row.Shaped)
    (hstatus : row.status ≠ .completed) :
    row.fare = none := by
  cases hfare : row.fare with
  | none => rfl
  | some fare => exact absurd (h.fare_iff.1 (by rw [hfare]; rfl)) hstatus

/-- The filled time columns, in the order of a ride's life. -/
def stamps (row : RideRow) : List Instant :=
  row.createdAt :: (row.acceptedAt.toList ++ row.startedAt.toList ++
    row.completedAt.toList ++ row.cancelledAt.toList)

/-- The statuses that the ride has had and since when, as the filled time
columns tell. -/
def history (row : RideRow) : List (RideStatus × Instant) :=
  (.requested, row.createdAt) ::
    (row.acceptedAt.toList.map (.accepted, ·) ++
      row.startedAt.toList.map (.inProgress, ·) ++
      row.completedAt.toList.map (.completed, ·) ++
      row.cancelledAt.toList.map (.cancelled, ·))

theorem map_snd_history (row : RideRow) :
    row.history.map Prod.snd = row.stamps := by
  simp [history, stamps, Function.comp_def]

/-- The filled time columns are in order, and the last of them is when the row
was updated. -/
structure Timely (row : RideRow) : Prop where
  ordered : row.stamps.Pairwise (· ≤ ·)
  latest : row.stamps.getLast? = some row.updatedAt

/-- No filled time column lies behind the update of the row. -/
theorem Timely.stamp_le {row : RideRow} (h : row.Timely) {t : Instant}
    (ht : t ∈ row.stamps) :
    t ≤ row.updatedAt := by
  obtain ⟨earlier, hsplit⟩ := List.getLast?_eq_some_iff.1 h.latest
  have hordered := h.ordered
  rw [hsplit, List.pairwise_append] at hordered
  rw [hsplit] at ht
  rcases List.mem_append.1 ht with ht | ht
  · exact hordered.2.2 t ht row.updatedAt (List.mem_singleton_self _)
  · rw [List.mem_singleton.1 ht]
    exact Int.le_refl _

/-- What a row has at one time, another has too. -/
structure GrowsTo (row later : RideRow) : Prop where
  id : later.id = row.id
  rider : later.rider = row.rider
  pickup : later.pickupLat = row.pickupLat ∧ later.pickupLng = row.pickupLng
  destination : later.destinationLat = row.destinationLat ∧
    later.destinationLng = row.destinationLng
  estimateMinutes : later.estimateMinutes = row.estimateMinutes
  createdAt : later.createdAt = row.createdAt
  driver : ∀ d, row.driver = some d → later.driver = some d
  fare : ∀ f, row.fare = some f → later.fare = some f
  acceptedAt : ∀ t, row.acceptedAt = some t → later.acceptedAt = some t
  startedAt : ∀ t, row.startedAt = some t → later.startedAt = some t
  completedAt : ∀ t, row.completedAt = some t → later.completedAt = some t
  cancelledAt : ∀ t, row.cancelledAt = some t → later.cancelledAt = some t

theorem GrowsTo.refl (row : RideRow) : row.GrowsTo row :=
  ⟨rfl, rfl, ⟨rfl, rfl⟩, ⟨rfl, rfl⟩, rfl, rfl, fun _ h => h, fun _ h =>
    h, fun _ h => h, fun _ h => h, fun _ h => h, fun _ h => h⟩

theorem GrowsTo.trans {a b c : RideRow} (h₁ : a.GrowsTo b) (h₂ : b.GrowsTo c) :
    a.GrowsTo c where
  id := h₂.id.trans h₁.id
  rider := h₂.rider.trans h₁.rider
  pickup := ⟨h₂.pickup.1.trans h₁.pickup.1, h₂.pickup.2.trans h₁.pickup.2⟩
  destination := ⟨h₂.destination.1.trans h₁.destination.1,
    h₂.destination.2.trans h₁.destination.2⟩
  estimateMinutes := h₂.estimateMinutes.trans h₁.estimateMinutes
  createdAt := h₂.createdAt.trans h₁.createdAt
  driver := fun d h => h₂.driver d (h₁.driver d h)
  fare := fun f h => h₂.fare f (h₁.fare f h)
  acceptedAt := fun t h => h₂.acceptedAt t (h₁.acceptedAt t h)
  startedAt := fun t h => h₂.startedAt t (h₁.startedAt t h)
  completedAt := fun t h => h₂.completedAt t (h₁.completedAt t h)
  cancelledAt := fun t h => h₂.cancelledAt t (h₁.cancelledAt t h)

/-- A filled time column stays filled. -/
theorem GrowsTo.mem_stamps {row later : RideRow} (h : row.GrowsTo later)
    {t : Instant} (ht : t ∈ row.stamps) : t ∈ later.stamps := by
  simp only [stamps, List.mem_cons, List.mem_append, Option.mem_toList] at ht ⊢
  rcases ht with rfl | ((ht | ht) | ht) | ht
  · exact .inl h.createdAt.symm
  · exact .inr (.inl (.inl (.inl (h.acceptedAt t ht))))
  · exact .inr (.inl (.inl (.inr (h.startedAt t ht))))
  · exact .inr (.inl (.inr (h.completedAt t ht)))
  · exact .inr (.inr (h.cancelledAt t ht))

/-! ## Moves -/

/-- The four moves of a row, made at an instant. -/
inductive MovesTo (at_ : Instant) (row : RideRow) : RideRow → Prop
  | accept (driver : DriverId) (h : row.status = .requested) :
      MovesTo at_ row
        { row with
          driver := some driver, status := .accepted, acceptedAt := some at_,
          updatedAt := at_ }
  | start (h : row.status = .accepted) :
      MovesTo at_ row
        { row with
          status := .inProgress, startedAt := some at_, updatedAt := at_ }
  | complete (fare : String) (h : row.status = .inProgress) :
      MovesTo at_ row
        { row with
          fare := some fare, status := .completed, completedAt := some at_,
          updatedAt := at_ }
  | cancel (h : row.status = .requested ∨ row.status = .accepted) :
      MovesTo at_ row
        { row with
          status := .cancelled, cancelledAt := some at_, updatedAt := at_ }

namespace MovesTo

variable {at_ : Instant} {row later : RideRow}

theorem precedes (h : row.MovesTo at_ later) :
    row.status.Precedes later.status := by
  cases h with
  | accept driver h => rw [h]; exact .accept
  | start h => rw [h]; exact .start
  | complete fare h => rw [h]; exact .complete
  | cancel h =>
      rcases h with h | h
      · rw [h]; exact .cancelRequested
      · rw [h]; exact .cancelAccepted

theorem id_eq (h : row.MovesTo at_ later) : later.id = row.id := by
  cases h <;> rfl

theorem updatedAt_eq (h : row.MovesTo at_ later) : later.updatedAt = at_ := by
  cases h <;> rfl

/-- The status after a move tells which columns are filled. -/
theorem shaped (h : row.MovesTo at_ later) (hrow : row.Shaped) :
    later.Shaped := by
  obtain ⟨hdriver, hrequested, haccepted, hstarted, hcompleted, hfare,
      hcancelled⟩ := hrow
  cases h with
  | accept driver h => constructor <;> simp_all
  | start h => constructor <;> simp_all
  | complete fare h => constructor <;> simp_all
  | cancel h => rcases h with h | h <;> constructor <;> simp_all

/-- A move fills empty columns only. -/
theorem growsTo (h : row.MovesTo at_ later) (hrow : row.Shaped) :
    row.GrowsTo later := by
  obtain ⟨hdriver, hrequested, haccepted, hstarted, hcompleted, hfare,
      hcancelled⟩ := hrow
  cases h with
  | accept driver h => constructor <;> simp_all
  | start h => constructor <;> simp_all
  | complete fare h => constructor <;> simp_all
  | cancel h => rcases h with h | h <;> constructor <;> simp_all

/-- A move goes on with the history. -/
theorem history_eq (h : row.MovesTo at_ later) (hrow : row.Shaped) :
    later.history = row.history ++ [(later.status, at_)] := by
  obtain ⟨hdriver, hrequested, haccepted, hstarted, hcompleted, hfare,
      hcancelled⟩ := hrow
  cases h with
  | accept driver h => simp_all [history]
  | start h => simp_all [history]
  | complete fare h => simp_all [history]
  | cancel h => rcases h with h | h <;> simp_all [history]

/-- A move puts its time behind those that are there. -/
theorem stamps_eq (h : row.MovesTo at_ later) (hrow : row.Shaped) :
    later.stamps = row.stamps ++ [at_] := by
  rw [← map_snd_history, h.history_eq hrow, List.map_append, map_snd_history]
  rfl

/-- A move that is not made before the row was last updated keeps the times in
order. -/
theorem timely (h : row.MovesTo at_ later) (hrow : row.Shaped)
    (htimely : row.Timely) (hclock : row.updatedAt ≤ at_) : later.Timely where
  ordered := by
    rw [h.stamps_eq hrow, List.pairwise_append]
    refine ⟨htimely.ordered, List.pairwise_singleton _ _, ?_⟩
    intro t ht u hu
    rw [List.mem_singleton.1 hu]
    exact Int.le_trans (htimely.stamp_le ht) hclock
  latest := by
    rw [h.stamps_eq hrow, h.updatedAt_eq]
    simp

end MovesTo

/-! ## Records read from rows -/

/-- The record of a row, apart from its points and its fare. -/
def toRide (row : RideRow) (pickup : GeoPoint) (destination : Option GeoPoint)
    (fare : Option Decimal) : Ride :=
  { id := row.id, rider := row.rider, driver := row.driver, pickup, destination,
    status := row.status, fare, estimateMinutes := row.estimateMinutes,
    createdAt := row.createdAt, acceptedAt := row.acceptedAt,
    startedAt := row.startedAt, completedAt := row.completedAt,
    cancelledAt := row.cancelledAt, updatedAt := row.updatedAt }

/-- Reading a row fails only because of its points or its fare. -/
theorem read_eq_ok_iff {row : RideRow} {r : Ride} :
    row.read = .ok r ↔
      ∃ pickup destination fare,
        GeoPoint.make row.pickupLat row.pickupLng = .ok pickup ∧
        pointOfColumns row.destinationLat row.destinationLng = .ok destination ∧
          amountOfColumn row.fare = .ok fare ∧
          r = row.toRide pickup destination fare := by
  unfold read
  cases GeoPoint.make row.pickupLat row.pickupLng with
  | error fault =>
      rw [show (Except.error fault).mapError StoreFault.badCoordinate =
        (.error (.badCoordinate fault) : Except StoreFault GeoPoint) from rfl]
      simp [bind, Except.bind]
  | ok pickup =>
      rw [show (Except.ok pickup).mapError StoreFault.badCoordinate =
        .ok pickup from rfl]
      cases pointOfColumns row.destinationLat row.destinationLng with
      | error fault => simp [bind, Except.bind]
      | ok destination =>
          cases amountOfColumn row.fare with
          | error fault => simp [bind, Except.bind]
          | ok fare =>
              simp [bind, Except.bind, pure, Except.pure, toRide, eq_comm]

/-- A record that was read from a row agrees with it in all columns that are
stored as they are. -/
theorem read_eq_ok {row : RideRow} {r : Ride} (h : row.read = .ok r) :
    r.id = row.id ∧ r.rider = row.rider ∧ r.driver = row.driver ∧
      r.status = row.status ∧
      amountOfColumn row.fare = .ok r.fare ∧
      r.estimateMinutes = row.estimateMinutes ∧
      r.acceptedAt = row.acceptedAt ∧ r.startedAt = row.startedAt ∧
      r.completedAt = row.completedAt ∧ r.cancelledAt = row.cancelledAt := by
  obtain ⟨pickup, destination, fare, -, -, hfare, rfl⟩ := read_eq_ok_iff.1 h
  exact ⟨rfl, rfl, rfl, rfl, hfare, rfl, rfl, rfl, rfl, rfl⟩

/-! ## What the steps of a ride write -/

/-- An assignment moves a requested row by an acceptance. -/
theorem movesTo_assigned {row : RideRow} {old r : Ride} {driver : DriverId}
    {at_ : Instant} (hstatus : row.status = .requested)
    (h : old.accept driver at_ = .ok r) :
    row.MovesTo r.updatedAt (row.assigned r driver) := by
  obtain ⟨-, rfl⟩ := Ride.accept_eq_ok.1 h
  exact .accept driver hstatus

/-- A step that was decided on a true copy of a row moves the row.  The fare is
left out of the copy's agreement with the row, because an amount is written
anew; a row that can still take a step has none. -/
theorem movesTo_advanced {row : RideRow} {old r : Ride}
    (hread : row.read = .ok old) (hfare : row.fare = none) (h : old.StepsTo r) :
    row.MovesTo r.updatedAt (row.advanced r) := by
  obtain ⟨-, -, hdriver, hstatus, hamount, hestimate, haccepted,
    hstarted, hcompleted, hcancelled⟩ := read_eq_ok hread
  have hnone : old.fare = none := by
    rw [hfare] at hamount
    exact (Except.ok.inj hamount).symm
  obtain ⟨at_, h | ⟨fare, h⟩ | h⟩ := h
  · obtain ⟨hcan, rfl⟩ := Ride.start_eq_ok.1 h
    have hmove : row.MovesTo at_ _ := .start (hstatus ▸ hcan)
    simpa [advanced, hdriver, hestimate, haccepted, hcompleted,
      hcancelled, hnone, hfare] using hmove
  · obtain ⟨hcan, rfl⟩ := Ride.complete_eq_ok.1 h
    have hmove : row.MovesTo at_ _ := .complete fare.text (hstatus ▸ hcan)
    simpa [advanced, hdriver, hestimate, haccepted, hstarted, hcancelled]
      using hmove
  · obtain ⟨hcan, rfl⟩ := Ride.cancel_eq_ok.1 h
    have hmove : row.MovesTo at_ _ := .cancel (hstatus ▸ hcan)
    simpa [advanced, hdriver, hestimate, haccepted, hstarted,
      hcompleted, hnone, hfare] using hmove

end RideRow

/-! ## New rides -/

theorem storedDouble_not_nan {x : Float} (h : x.isNaN = false) :
    (storedDouble x).isNaN = false := by
  unfold storedDouble
  split
  · decide
  · exact h

namespace Ride.Fresh

variable {r : Ride}

/-- The row of a new ride has the shape of a requested one. -/
theorem shaped (h : r.Fresh) : (RideRow.ofRide r).Shaped := by
  obtain ⟨id, rider, pickup, destination, at_, estimateMinutes, -, -, rfl⟩ := h
  constructor <;> simp [RideRow.ofRide, Ride.request]

/-- The history of a new ride is its request. -/
theorem history_eq (h : r.Fresh) :
    (RideRow.ofRide r).history = [(.requested, r.updatedAt)] := by
  obtain ⟨id, rider, pickup, destination, at_, estimateMinutes, -, -, rfl⟩ := h
  simp [RideRow.ofRide, Ride.request, RideRow.history]

/-- The row of a new ride holds one time, that of the request. -/
theorem stamps_eq (h : r.Fresh) :
    (RideRow.ofRide r).stamps = [r.updatedAt] := by
  rw [← RideRow.map_snd_history, h.history_eq]
  rfl

theorem timely (h : r.Fresh) : (RideRow.ofRide r).Timely where
  ordered := by
    rw [h.stamps_eq]
    exact List.pairwise_singleton _ _
  latest := by
    rw [h.stamps_eq]
    rfl

theorem pickup_not_nan (h : r.Fresh) :
    (RideRow.ofRide r).pickupLat.isNaN = false ∧
      (RideRow.ofRide r).pickupLng.isNaN = false := by
  obtain ⟨id, rider, pickup, destination, at_, estimateMinutes, hlat,
      hlng, rfl⟩ := h
  exact ⟨storedDouble_not_nan hlat, storedDouble_not_nan hlng⟩

theorem status_eq (h : r.Fresh) : r.status = .requested := by
  obtain ⟨id, rider, pickup, destination, at_, estimateMinutes, -, -, rfl⟩ := h
  rfl

theorem driver_eq (h : r.Fresh) : r.driver = none := by
  obtain ⟨id, rider, pickup, destination, at_, estimateMinutes, -, -, rfl⟩ := h
  rfl

theorem updatedAt_eq (h : r.Fresh) : r.updatedAt = r.createdAt := by
  obtain ⟨id, rider, pickup, destination, at_, estimateMinutes, -, -, rfl⟩ := h
  rfl

end Ride.Fresh

end Ridehail
