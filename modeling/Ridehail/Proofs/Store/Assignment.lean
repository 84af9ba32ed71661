import Ridehail.Proofs.Store.Rules

/-!
# The assignment

An assignment writes the row of the driver before it knows whether the ride can
be written at all.  Three things may stop it then: the ride has moved on, the
ride is not there, or an earlier ride of the driver takes the place that this
one would take.  All of them have to undo the first write, so what decides about
an assignment can be said of the store as it was before: `Store.Assignable`.

The store has two more rules, and neither of them stops an assignment.  The
driver was found, so the driver of the ride is known; and the driver was
available, so there is a location, which the driver keeps.

## Main results

* `Store.assignRide_exact` — what every assignment does to every lawful store,
  and that one of any number of assignments of a driver applies at most.
-/

namespace Ridehail

/-- The statuses in which a ride is the one ride of its driver. -/
theorem RideStatus.occupiesDriver_iff {status : RideStatus} :
    status.occupiesDriver = true ↔ status ∈ [.accepted, .inProgress] := by
  cases status <;> decide

namespace Store

/-! ## What an assignment needs and what it writes -/

/-- A driver is known and available. -/
def Offers (s : Store) (id : DriverId) : Prop :=
  ∃ row ∈ s.drivers, row.id = id ∧ row.status = .available

/-- A driver who can take a ride: available, and on no ride. -/
structure Claimable (s : Store) (id : DriverId) : Prop where
  offered : s.Offers id
  idle : ∀ row ∈ s.rides, row.driver = some id →
    row.status ∉ [.accepted, .inProgress]

/-- A ride still waits for a driver. -/
def Awaits (s : Store) (id : RideId) : Prop :=
  ∃ row ∈ s.rides, row.id = id ∧ row.status = .requested

instance (s : Store) (id : DriverId) : Decidable (s.Offers id) :=
  inferInstanceAs
    (Decidable (∃ row ∈ s.drivers, row.id = id ∧ row.status = .available))

instance (s : Store) (id : DriverId) : Decidable (s.Claimable id) :=
  decidable_of_iff (s.Offers id ∧
      ∀ row ∈ s.rides, row.driver = some id →
        row.status ∉ [.accepted, .inProgress])
    ⟨fun h => ⟨h.1, h.2⟩, fun h => ⟨h.1, h.2⟩⟩

instance (s : Store) (id : RideId) : Decidable (s.Awaits id) :=
  inferInstanceAs
    (Decidable (∃ row ∈ s.rides, row.id = id ∧ row.status = .requested))

/-- What an assignment needs: an available driver, a ride that is still
requested, and no other ride that the driver is on, in case the driver will be
on this one. -/
structure Assignable (s : Store) (r : Ride) (d : Driver) : Prop where
  offered : s.Offers d.id
  requested : s.Awaits r.id
  free : r.status ∈ [.accepted, .inProgress] →
    ∀ other ∈ s.rides, other.id ≠ r.id →
    other.driver = some d.id → other.status ∉ [.accepted, .inProgress]

/-- The store with everything written that an assignment writes. -/
def assigned (s : Store) (r : Ride) (d : Driver) : Store where
  drivers := s.drivers.map fun row =>
    if row.id = d.id then { row with
      status := d.status, updatedAt := d.updatedAt } else row
  rides := s.rides.map fun row =>
    if row.id = r.id then
      { row with
        driver := some d.id, status := r.status, acceptedAt := r.acceptedAt
        updatedAt := r.updatedAt }
    else row

section Lawful

variable {s s' : Store} {r : Ride} {d : Driver}

/-- A driver that is offered is found, and the row is an available one. -/
theorem Lawful.offers_iff (hs : s.Lawful) {id : DriverId} :
    s.Offers id ↔ ∃ row, s.driver? id = some row ∧ row.status = .available := by
  constructor
  · rintro ⟨row, hrow, rfl, hstatus⟩
    exact ⟨row, hs.driver?_eq hrow, hstatus⟩
  · rintro ⟨row, hrow, hstatus⟩
    obtain ⟨hmem, hid⟩ := mem_of_driver? hrow
    exact ⟨row, hmem, hid, hstatus⟩

/-- A ride waits if it is found so. -/
theorem Lawful.awaits_iff (hs : s.Lawful) {id : RideId} :
    s.Awaits id ↔ ∃ row, s.ride? id = some row ∧ row.status = .requested := by
  constructor
  · rintro ⟨row, hrow, rfl, hstatus⟩
    exact ⟨row, hs.ride?_eq hrow, hstatus⟩
  · rintro ⟨row, hrow, hstatus⟩
    obtain ⟨hmem, hid⟩ := mem_of_ride? hrow
    exact ⟨row, hmem, hid, hstatus⟩

/-- An accepted ride can be assigned to a driver who can take a ride, while it
waits: as long as it does, it is not itself a ride that the driver is on. -/
theorem Lawful.assignable_iff_claimable (hs : s.Lawful)
    (hr : r.status = .accepted) :
    s.Assignable r d ↔ s.Claimable d.id ∧ s.Awaits r.id := by
  have hon : r.status ∈ [RideStatus.accepted, .inProgress] := by simp [hr]
  constructor
  · rintro ⟨hoffered, hawaits, hfree⟩
    refine ⟨⟨hoffered, fun row hrow hdriver hbusy => ?_⟩, hawaits⟩
    obtain ⟨ride, hride, hid, hrequested⟩ := hawaits
    refine hfree hon row hrow (fun heq => ?_) hdriver hbusy
    rw [hs.eq_of_id_eq hrow hride (heq.trans hid.symm), hrequested] at hbusy
    exact absurd hbusy (by decide)
  · rintro ⟨⟨hoffered, hidle⟩, hawaits⟩
    exact ⟨hoffered, hawaits, fun _ row hrow _ hdriver =>
      hidle row hrow hdriver⟩

/-- The two rows that an assignment writes are all that differs. -/
theorem Lawful.put_eq_assigned (hs : s.Lawful) {driver : DriverRow}
    {ride : RideRow} (hdriver : s.driver? d.id = some driver)
    (hride : s.ride? r.id = some ride) :
    (s.putDriver (driver.withStatus d.status d.updatedAt)).putRide
      (ride.assigned r d.id) = s.assigned r d := by
  obtain ⟨hdriverMem, hdriverId⟩ := mem_of_driver? hdriver
  obtain ⟨hrideMem, hrideId⟩ := mem_of_ride? hride
  rw [Store.putRide, Store.putDriver, assigned, Store.mk.injEq]
  constructor
  · refine List.map_congr_left fun row hrow => ?_
    by_cases hid : row.id = d.id
    · have hsame : row = driver := by
        have hfound := hs.driver?_eq hrow
        rw [hid, hdriver] at hfound
        exact (Option.some.inj hfound).symm
      have hput : row.id = (driver.withStatus d.status d.updatedAt).id :=
        hid.trans hdriverId.symm
      rw [if_pos hid, if_pos hput, hsame]
      rfl
    · have hput : row.id ≠ (driver.withStatus d.status d.updatedAt).id :=
        fun h => hid (h.trans hdriverId)
      rw [if_neg hid, if_neg hput]
  · refine List.map_congr_left fun row hrow => ?_
    by_cases hid : row.id = r.id
    · have hsame : row = ride :=
        hs.eq_of_id_eq hrow hrideMem (hid.trans hrideId.symm)
      have hput : row.id = (ride.assigned r d.id).id := hid.trans hrideId.symm
      rw [if_pos hid, if_pos hput, hsame]
      rfl
    · have hput : row.id ≠ (ride.assigned r d.id).id :=
        fun h => hid (h.trans hrideId)
      rw [if_neg hid, if_neg hput]

end Lawful

/-! ## The outcome -/

section Outcome

variable {s s' : Store} {r : Ride} {d : Driver}

/-- An assignment does not fail unless it would make a driver without a location
available. -/
theorem exists_assignRide
    (h : ∀ row, s.driver? d.id = some row → row.status = .available →
    (row.withStatus d.status d.updatedAt).permitted = true) :
    ∃ applied s', s.assignRide r d = .ok (applied, s') := by
  unfold assignRide
  cases hclaim : s.changeDriver d.id
      (fun row => row.status = .available) (fun row =>
      row.withStatus d.status d.updatedAt) with
  | error fault =>
      obtain ⟨row, hrow, hstatus, hrefused⟩ := changeDriver_failed hclaim
      exact absurd (h row hrow (by simpa using hstatus)) hrefused
  | ok claim =>
      obtain ⟨claimed, next⟩ := claim
      cases claimed with
      | false => exact ⟨false, s, rfl⟩
      | true =>
          obtain ⟨driver, hdriver, -, -, rfl⟩ := changeDriver_applied hclaim
          simp only [bind, Except.bind, Bool.not_true,
            Bool.false_eq_true, if_false]
          split
          · exact ⟨true, _, rfl⟩
          · exact ⟨false, s, rfl⟩
          · exact ⟨false, s, rfl⟩
          · -- Any other rule would say that the driver who was just written is
            -- unknown.
            rename_i fault hne hfailed
            obtain ⟨row, rule, -, -, hrule, rfl⟩ := changeRide_failed hfailed
            rcases brokenRule?_eq_some hrule with
              rfl | ⟨driver', hdriver', hunknown⟩
            · exact absurd rfl hne
            · cases hdriver'
              have hsome : (s.driver? d.id).isSome = true := by
                rw [hdriver]
                rfl
              rw [← isSome_driver?_putDriver s, hunknown] at hsome
              cases hsome

/-- A driver who is available has a location, and may have any status. -/
theorem Lawful.permitted_of_available (hs : s.Lawful) {id : DriverId}
    {row : DriverRow} (hrow : s.driver? id = some row)
    (hstatus : row.status = .available) (status : DriverStatus)
    (at_ : Instant) : (row.withStatus status at_).permitted = true := by
  have hpermitted := hs.permitted row (mem_of_driver? hrow).1
  rw [DriverRow.permitted, hstatus] at hpermitted
  have hlocated : (row.lat.isSome && row.lng.isSome) = true := by
    simpa using hpermitted
  exact Bool.or_eq_true_iff.2 (.inr hlocated)

/-- In a lawful store no assignment fails, whatever it writes. -/
theorem Lawful.exists_assignRide (hs : s.Lawful) (r : Ride) (d : Driver) :
    ∃ applied s', s.assignRide r d = .ok (applied, s') :=
  Store.exists_assignRide fun _ hrow hstatus =>
    hs.permitted_of_available hrow hstatus _ _

/-- What an assignment that applied has found. -/
theorem Lawful.assignable_of_applied (hs : s.Lawful)
    (h : s.assignRide r d = .ok (true, s')) :
    s.Assignable r d ∧ s' = s.assigned r d := by
  obtain ⟨driver, ride, hdriver, havailable, -, hride,
      hrequested, hrule, rfl⟩ :=
    assignRide_applied h
  obtain ⟨hrideMem, hrideId⟩ := mem_of_ride? hride
  refine ⟨⟨hs.offers_iff.2 ⟨driver, hdriver, havailable⟩,
    ⟨ride, hrideMem, hrideId, hrequested⟩,
    fun hon other hother hne hholds hbusy => ?_⟩,
    hs.put_eq_assigned hdriver hride⟩
  apply (brokenRule?_eq_none.1 hrule).1 other hother
  exact ⟨fun hid => hne (hid.symm.trans hrideId),
    .inr ⟨RideStatus.occupiesDriver_iff.2 hon,
      RideStatus.occupiesDriver_iff.2 hbusy, d.id, rfl, hholds⟩⟩

/-- What an assignment needs is enough. -/
theorem Lawful.assignRide_of_assignable (hs : s.Lawful) (h : s.Assignable r d) :
    s.assignRide r d = .ok (true, s.assigned r d) := by
  obtain ⟨driver, hdriver, havailable⟩ := hs.offers_iff.1 h.offered
  obtain ⟨ride, hrideMem, hrideId, hrequested⟩ := h.requested
  have hride : s.ride? r.id = some ride := hrideId ▸ hs.ride?_eq hrideMem
  have hpermitted :=
    hs.permitted_of_available hdriver havailable d.status d.updatedAt
  have hclaim :
      s.changeDriver d.id (fun row => row.status = .available) (fun row =>
      row.withStatus d.status d.updatedAt) =
        .ok (true, s.putDriver (driver.withStatus d.status d.updatedAt)) :=
    changeDriver_of_found hdriver (decide_eq_true havailable) hpermitted
  have hrule :
      (s.putDriver (driver.withStatus d.status d.updatedAt)).brokenRule?
      (ride.assigned r d.id) = none := by
    refine brokenRule?_eq_none.2
      ⟨fun other hother hclash => ?_, fun id hid => ?_⟩
    · obtain ⟨hne, ⟨-, hactive, hrider⟩ | ⟨hon, hbusy, id, hid, hholds⟩⟩ :=
        hclash
      · refine hs.not_clashes hrideMem hother ⟨hne, .inl ⟨?_, hactive, hrider⟩⟩
        rw [hrequested]
        rfl
      · cases hid
        exact h.free (RideStatus.occupiesDriver_iff.1 hon) other hother
          (fun heq => hne (hrideId.trans heq.symm)) hholds
          (RideStatus.occupiesDriver_iff.1 hbusy)
    · cases hid
      rw [isSome_driver?_putDriver, hdriver]
      rfl
  have haccept :
      (s.putDriver (driver.withStatus d.status d.updatedAt)).changeRide r.id
      (fun row => row.status = .requested) (fun row => row.assigned r d.id) =
        .ok (true,
          (s.putDriver (driver.withStatus d.status d.updatedAt)).putRide
          (ride.assigned r d.id)) :=
    changeRide_of_found hride (decide_eq_true hrequested) hrule
  simp only [Store.assignRide, hclaim, haccept, bind, Except.bind,
    Bool.not_true, Bool.false_eq_true, if_false, pure, Except.pure,
    hs.put_eq_assigned hdriver hride]

/-- The outcome of every assignment in a lawful store. -/
theorem Lawful.assignRide_eq (hs : s.Lawful) (r : Ride) (d : Driver) :
    ∃ applied, s.assignRide r d =
      .ok (applied, if applied then s.assigned r d else s) ∧
      (applied = true ↔ s.Assignable r d) := by
  obtain ⟨applied, s', hrun⟩ := hs.exists_assignRide r d
  refine ⟨applied, ?_, fun happlied => ?_, fun hassignable => ?_⟩
  · cases applied with
    | true => rw [hrun, (hs.assignable_of_applied hrun).2, if_pos rfl]
    | false => rw [hrun, assignRide_unapplied hrun, if_neg Bool.false_ne_true]
  · subst happlied
    exact (hs.assignable_of_applied hrun).1
  · rw [hs.assignRide_of_assignable hassignable] at hrun
    cases hrun
    rfl

end Outcome

/-! ## Assignments in a row -/

/-- What happens to the store while assignments of one driver are asked for,
none of which makes the driver available: the assignments, with their answers,
and between them anything that does not make the driver available either. -/
inductive Claims (id : DriverId) : Store → List Bool → Store → Prop
  | nil (s : Store) : Claims id s [] s
  | assign {s next last : Store} {r : Ride} {d : Driver} {applied : Bool}
      {answers : List Bool} :
      d.id = id → d.status ≠ .available →
        s.assignRide r d = .ok (applied, next) →
        Claims id next answers last → Claims id s (applied :: answers) last
  | other {s next last : Store} {answers : List Bool} :
      (next.Offers id → s.Offers id) → Claims id next answers last →
        Claims id s answers last

section Claims

variable {s s' : Store} {r : Ride} {d : Driver}

/-- An assignment that applied needed the driver, and has taken the driver
away. -/
theorem offers_of_applied (hd : d.status ≠ .available)
    (h : s.assignRide r d = .ok (true, s')) :
    s.Offers d.id ∧ ¬s'.Offers d.id := by
  obtain ⟨driver, ride, hdriver, havailable, -, -, -, -, rfl⟩ :=
    assignRide_applied h
  obtain ⟨hmem, hid⟩ := mem_of_driver? hdriver
  refine ⟨⟨driver, hmem, hid, havailable⟩, ?_⟩
  rintro ⟨row, hrow, hrowId, hstatus⟩
  rcases mem_putDriver.1 hrow with ⟨rfl, -⟩ | ⟨-, hne⟩
  · exact hd hstatus
  · exact hne (hrowId.trans hid.symm)

/-- Without the driver no assignment applies any more. -/
theorem Claims.count_eq_zero {id : DriverId} {answers : List Bool}
    (h : Claims id s answers s') (hs : ¬s.Offers id) :
    answers.count true = 0 := by
  induction h with
  | nil => rfl
  | @assign s next last r d applied answers hid hd hrun hrest ih =>
      subst hid
      cases applied with
      | true => exact absurd (offers_of_applied hd hrun).1 hs
      | false =>
          rw [assignRide_unapplied hrun] at ih
          rw [List.count_cons_of_ne (by decide)]
          exact ih hs
  | other hkeeps hrest ih => exact ih fun hoffers => hs (hkeeps hoffers)

/-- One assignment of a driver applies at most. -/
theorem Claims.count_le_one {id : DriverId} {answers : List Bool}
    (h : Claims id s answers s') :
    answers.count true ≤ 1 := by
  induction h with
  | nil => exact Nat.zero_le 1
  | @assign s next last r d applied answers hid hd hrun hrest ih =>
      subst hid
      cases applied with
      | true =>
          have hnone := hrest.count_eq_zero (offers_of_applied hd hrun).2
          rw [List.count_cons_self]
          omega
      | false =>
          rw [List.count_cons_of_ne (by decide)]
          exact ih
  | other hkeeps hrest ih => exact ih

end Claims

/-! ## The main result -/

/-- An assignment never fails.  It applies exactly if the driver is available,
the ride is requested and no other ride is in the way; then it has written the
given status of the driver and the given driver, status and acceptance of the
ride, and nothing else.  Otherwise it has written nothing.  Of any number of
assignments of one driver, none of which makes the driver available again, one
applies at most if nothing else makes the driver available again. -/
theorem assignRide_exact (s : Store) (hs : s.Lawful) :
    (∀ (r : Ride) (d : Driver), ∃ applied,
      s.assignRide r d = .ok (applied, if applied then s.assigned r d else s) ∧
        (applied = true ↔ s.Assignable r d)) ∧
    ∀ (id : DriverId) (answers : List Bool) (s' : Store),
      Claims id s answers s' → answers.count true ≤ 1 :=
  ⟨hs.assignRide_eq, fun _ _ _ hclaims => hclaims.count_le_one⟩

namespace Example

/-- Dana is available, and rides wait for two riders. -/
def store : Store where
  drivers :=
    [DriverRow.ofDriver { Driver.register "d" "Dana" ⟨0⟩ with
      status := .available, location := some ⟨40.5, -70.25⟩ }]
  rides :=
    [RideRow.ofRide (Ride.request ⟨1⟩ "a" ⟨40.5, -70.25⟩ none ⟨3⟩),
      RideRow.ofRide (Ride.request ⟨2⟩ "b" ⟨40.5, -70.25⟩ none ⟨4⟩)]

/-- One of the rides as Dana accepts it. -/
def accepted (id : RideId) (rider : RiderId) : Ride :=
  { Ride.request id rider ⟨40.5, -70.25⟩ none ⟨4⟩ with
    driver := some "d", status := .accepted, acceptedAt := some ⟨5⟩,
    updatedAt := ⟨5⟩ }

/-- Dana on a ride. -/
def busy : Driver :=
  (Driver.register "d" "Dana" ⟨0⟩).withStatus .busy ⟨5⟩

theorem lawful_store : store.Lawful :=
  ⟨by decide, by decide, by decide, by decide⟩

end Example

/-- In the example either ride can be given to Dana, but not one after the
other. -/
theorem assignRide_exact_example :
    Example.store.Lawful ∧
      Example.store.assignRide (Example.accepted ⟨1⟩ "a") Example.busy =
        .ok (true,
          Example.store.assigned (Example.accepted ⟨1⟩ "a") Example.busy) ∧
      ∀ answers s', Claims "d" Example.store answers s' →
        answers.count true ≤ 1 := by
  obtain ⟨hruns, honce⟩ := assignRide_exact Example.store Example.lawful_store
  obtain ⟨applied, hrun, happlied⟩ :=
    hruns (Example.accepted ⟨1⟩ "a") Example.busy
  have hassignable : Example.store.Assignable (Example.accepted ⟨1⟩ "a")
      Example.busy :=
    ⟨⟨_, List.mem_cons_self .., rfl, rfl⟩,
      ⟨_, List.mem_cons_self .., rfl, rfl⟩, by decide⟩
  rw [happlied.2 hassignable, if_pos rfl] at hrun
  exact ⟨Example.lawful_store, hrun, honce "d"⟩

end Store

end Ridehail
