import Ridehail.Proofs.Store.Places
import Ridehail.Proofs.Store.Session
import Mathlib.Logic.Relation

/-!
# The store of the service

The service writes the store in a few ways only, each with arguments of its own
making: `Store.ServiceWrite`.  Whatever it does comes to a sequence of such
writes, so a property of the store that each of them keeps holds whenever the
service is between two calls.

The property of this module is `Store.Sound`, which says that the service can go
on: no record of a driver is unreadable, the status of a ride tells which
columns are filled, and the driver of a ride has a place, without which the
driver could not be made available again.

Bringing a driver online is left out of `Store.ServiceWrite`.  It keeps the
store sound like all others, but not what the next module proves.

## Main results

* `Store.Sound.serviceWrite`, `Store.Sound.served` — the writes of the service
  keep the store sound.
-/

namespace Ridehail

/-! ## The writes of the service -/

namespace Store

/-- The driver is on a ride. -/
def Engaged (s : Store) (driver : DriverId) : Prop :=
  ∃ ride ∈ s.rides, ride.holdsDriver driver = true

/-- A write that the service makes and that applied, other than bringing a
driver online. -/
inductive ServiceWrite (s s' : Store) : Prop
  | register (d : Driver) (hstatus : d.status = .offline)
      (hlocation : d.location = none) (h : s.insertDriver d = .ok (true, s'))
  | locate (id : DriverId) (p : GeoPoint) (at_ : Instant)
      (hp : p.inRange = true) (h : s.locateDriver id p at_ = .ok (true, s'))
  | sideline (d : Driver) (expected : List DriverStatus)
      (hstatus : d.status ≠ .available)
      (h : s.setDriverStatus d expected = .ok (true, s'))
  | sweep (d : Driver) (expected : DriverStatus) (cutoff : Instant)
      (h : s.markOfflineIfStale d expected cutoff = .ok (true, s'))
  | free (d : Driver) (expected : List DriverStatus) (hfree : ¬s.Engaged d.id)
      (h : s.setDriverStatus d expected = .ok (true, s'))
  | request (r : Ride) (hr : r.Fresh) (h : s.insertRide r = .ok (true, s'))
  | assign (old r : Ride) (d : Driver) (at_ : Instant)
      (hr : old.accept d.id at_ = .ok r) (hd : d.status = .busy)
      (h : s.assignRide r d = .ok (true, s'))
  | advance (old r : Ride) (hold : s.findRide old.id = .ok (some old))
      (hstep : old.StepsTo r) (h : s.advanceRide r old.status = .ok (true, s'))

/-- Any number of writes of the service. -/
abbrev Served : Store → Store → Prop := Relation.ReflTransGen ServiceWrite

/-! ## Sound stores -/

/-- The service can work on the store. -/
structure Sound (s : Store) : Prop where
  lawful : s.Lawful
  /-- The status of a ride tells which columns are filled. -/
  shaped : ∀ ride ∈ s.rides, ride.Shaped
  readable : ∀ row ∈ s.drivers, row.Readable
  /-- The driver of a ride has a place. -/
  placed : ∀ ride ∈ s.rides, ∀ id, ride.driver = some id →
    ∃ row p, s.driver? id = some row ∧ row.PlacedAt p

theorem sound_empty : Store.empty.Sound where
  lawful := lawful_empty
  shaped := fun _ h => by cases h
  readable := fun _ h => by cases h
  placed := fun _ h => by cases h

variable {s s' : Store}

/-- A ride that a driver is on has that driver, and one of two statuses. -/
theorem holdsDriver_iff {ride : RideRow} {id : DriverId} :
    ride.holdsDriver id = true ↔
      ride.driver = some id ∧ (ride.status = .accepted ∨
        ride.status = .inProgress) := by
  rw [RideRow.holdsDriver, Bool.and_eq_true, decide_eq_true_iff]
  cases ride.status <;> simp [RideStatus.occupiesDriver]

theorem id_eq_of_findDriver {id : DriverId} {d : Driver}
    (h : s.findDriver id = .ok (some d)) : d.id = id := by
  obtain ⟨row, hrow, hread⟩ := findDriver_eq_some.1 h
  obtain ⟨location, -, rfl⟩ := DriverRow.read_eq_ok.1 hread
  exact (mem_of_driver? hrow).2

theorem id_eq_of_findRide {id : RideId} {r : Ride}
    (h : s.findRide id = .ok (some r)) :
    r.id = id := by
  obtain ⟨row, hrow, hread⟩ := findRide_eq_some.1 h
  exact (RideRow.read_eq_ok hread).1.trans (mem_of_ride? hrow).2

/-- A ride that was found is found under its own identifier. -/
theorem findRide_self {id : RideId} {r : Ride}
    (h : s.findRide id = .ok (some r)) :
    s.findRide r.id = .ok (some r) := by
  rwa [id_eq_of_findRide h]

private theorem readable_ofDriver {d : Driver} (h : d.location = none) :
    (DriverRow.ofDriver d).Readable := by
  refine ⟨none, ?_⟩
  simp [DriverRow.ofDriver, h, pointOfColumns]

/-- A driver who is known stays known under new ones. -/
private theorem driver?_append_of_some {id : DriverId} {row : DriverRow}
    {more : List DriverRow} (h : s.driver? id = some row) :
    ({ s with
      drivers := s.drivers ++ more } : Store).driver? id = some row := by
  rw [driver?] at h ⊢
  rw [List.find?_append, h]
  rfl

namespace Sound

/-- Putting the row of a driver who keeps their place keeps the store sound. -/
theorem putDriver (h : s.Sound) {row old : DriverRow}
    (hold : s.driver? row.id = some old) (hlawful : (s.putDriver row).Lawful)
    (hreadable : row.Readable)
    (hplace : ∀ p, old.PlacedAt p → ∃ q, row.PlacedAt q) :
    (s.putDriver row).Sound where
  lawful := hlawful
  shaped := h.shaped
  readable := by
    intro x hx
    rcases mem_putDriver.1 hx with ⟨rfl, -⟩ | ⟨hx, -⟩
    · exact hreadable
    · exact h.readable x hx
  placed := by
    intro ride hride id hid
    obtain ⟨found, p, hfound, hp⟩ := h.placed ride hride id hid
    by_cases hsame : id = row.id
    · rw [hsame, hold] at hfound
      cases hfound
      obtain ⟨q, hq⟩ := hplace p hp
      exact ⟨row, q, hsame ▸ driver?_putDriver_self hold, hq⟩
    · exact ⟨found, p, (driver?_putDriver_ne hsame).trans hfound, hp⟩

/-- Changing the status of a driver keeps the store sound. -/
theorem withStatus (h : s.Sound) {row : DriverRow} {id : DriverId}
    (hrow : s.driver? id = some row) (status : DriverStatus) (at_ : Instant)
    (hpermitted : (row.withStatus status at_).permitted = true) :
    (s.putDriver (row.withStatus status at_)).Sound := by
  obtain ⟨hmem, rfl⟩ := mem_of_driver? hrow
  exact h.putDriver hrow (h.lawful.putDriver hpermitted) (h.readable row hmem)
    fun p hp => ⟨p, hp⟩

/-- Putting the row of a ride whose driver has a place keeps the store sound. -/
theorem putRide (h : s.Sound) {later : RideRow}
    (hlawful : (s.putRide later).Lawful) (hshaped : later.Shaped)
    (hplace : ∀ id, later.driver = some id →
      ∃ row p, s.driver? id = some row ∧ row.PlacedAt p) :
    (s.putRide later).Sound where
  lawful := hlawful
  shaped := by
    intro x hx
    rcases mem_putRide.1 hx with ⟨rfl, -⟩ | ⟨hx, -⟩
    · exact hshaped
    · exact h.shaped x hx
  readable := h.readable
  placed := by
    intro x hx
    rcases mem_putRide.1 hx with ⟨rfl, -⟩ | ⟨hx, -⟩
    · exact hplace
    · exact h.placed x hx

/-- What a step of a ride that was just read finds: its row, from which the
record was read and which the step moves. -/
theorem advance_inv (h : s.Sound) {old r : Ride}
    (hold : s.findRide old.id = .ok (some old)) (hstep : old.StepsTo r)
    (hwrite : s.advanceRide r old.status = .ok (true, s')) :
    ∃ row, s.ride? row.id = some row ∧ row.read = .ok old ∧
      row.MovesTo r.updatedAt (row.advanced r) ∧
      s' = s.putRide (row.advanced r) := by
  obtain ⟨row, hrow, hread⟩ := findRide_eq_some.1 hold
  obtain ⟨found, hfound, -, -, rfl⟩ := changeRide_applied hwrite
  rw [hstep.id_eq, hrow] at hfound
  cases hfound
  obtain ⟨hmem, hid⟩ := mem_of_ride? hrow
  have hstatus : row.status = old.status :=
    (RideRow.read_eq_ok hread).2.2.2.1.symm
  have hfare := (h.shaped row hmem).fare_eq_none (hstatus ▸ hstep.status_ne)
  exact ⟨row, hid ▸ hrow, hread,
    RideRow.movesTo_advanced hread hfare hstep, rfl⟩

/-- A driver is on no ride once the ride that they were on has ended.  It was
their only one, and a ride that has a driver has been accepted before. -/
theorem not_engaged_of_ended (h : s.Sound) {old r : Ride} {id : DriverId}
    (hold : s.findRide old.id = .ok (some old)) (hstep : old.StepsTo r)
    (hwrite : s.advanceRide r old.status = .ok (true, s'))
    (hended : r.status.occupiesDriver = false)
    (hdriver : old.driver = some id) :
    ¬s'.Engaged id := by
  obtain ⟨row, hrow, hread, -, rfl⟩ := h.advance_inv hold hstep hwrite
  obtain ⟨-, -, hrowDriver, hrowStatus, -⟩ := RideRow.read_eq_ok hread
  have hmem := (mem_of_ride? hrow).1
  have hholds : row.holdsDriver id = true := by
    have hshaped := h.shaped row hmem
    rw [hdriver] at hrowDriver
    have haccepted : row.acceptedAt.isSome = true := by
      rw [← hshaped.driver_iff, ← hrowDriver]
      rfl
    refine holdsDriver_iff.2 ⟨hrowDriver.symm, ?_⟩
    cases hstatus : row.status with
    | requested =>
        rw [hshaped.requested hstatus] at haccepted
        cases haccepted
    | accepted => exact .inl rfl
    | inProgress => exact .inr rfl
    | completed => exact absurd (hrowStatus.trans hstatus) hstep.status_ne
    | cancelled =>
        have hactive := hstep.isActive
        rw [hrowStatus, hstatus] at hactive
        cases hactive
  rintro ⟨x, hx, hx'⟩
  rcases mem_putRide.1 hx with ⟨rfl, -⟩ | ⟨hx, hne⟩
  · rw [RideRow.holdsDriver, show (row.advanced r).status = r.status from rfl,
      hended, Bool.and_false] at hx'
    cases hx'
  · have hsame := h.lawful.holdsDriver_unique hx hmem hx' hholds
    exact hne (by rw [hsame]; rfl)

/-- A write of the service keeps the store sound. -/
theorem serviceWrite (h : s.Sound) (hwrite : s.ServiceWrite s') : s'.Sound := by
  cases hwrite with
  | register d hstatus hlocation hwrite =>
      have hlawful := h.lawful.insertDriver hwrite
      obtain ⟨-, -, rfl⟩ := insertDriver_applied hwrite
      refine ⟨hlawful, h.shaped, fun row hrow => ?_,
        fun ride hride id hid => ?_⟩
      · rcases List.mem_append.1 hrow with hrow | hrow
        · exact h.readable row hrow
        · rw [List.mem_singleton.1 hrow]
          exact readable_ofDriver hlocation
      · obtain ⟨row, p, hrow, hp⟩ := h.placed ride hride id hid
        exact ⟨row, p, driver?_append_of_some hrow, hp⟩
  | locate id p at_ hp hwrite =>
      have hlawful := h.lawful.changeDriver hwrite
      obtain ⟨row, hrow, -, -, rfl⟩ := changeDriver_applied hwrite
      obtain ⟨-, rfl⟩ := mem_of_driver? hrow
      have hplaced := row.placedAt_located hp at_
      exact h.putDriver hrow hlawful hplaced.readable fun _ _ => ⟨_, hplaced⟩
  | sideline d expected hstatus hwrite =>
      obtain ⟨row, hrow, -, hpermitted, rfl⟩ := changeDriver_applied hwrite
      exact h.withStatus hrow _ _ hpermitted
  | sweep d expected cutoff hwrite =>
      obtain ⟨row, hrow, -, hpermitted, rfl⟩ := changeDriver_applied hwrite
      exact h.withStatus hrow _ _ hpermitted
  | free d expected hfree hwrite =>
      obtain ⟨row, hrow, -, hpermitted, rfl⟩ := changeDriver_applied hwrite
      exact h.withStatus hrow _ _ hpermitted
  | request r hr hwrite =>
      have hlawful := h.lawful.insertRide hwrite
      obtain ⟨-, -, -, rfl⟩ := insertRide_applied hwrite
      refine ⟨hlawful, fun ride hride => ?_, h.readable,
        fun ride hride id hid => ?_⟩
      · rcases List.mem_append.1 hride with hride | hride
        · exact h.shaped ride hride
        · rw [List.mem_singleton.1 hride]
          exact hr.shaped
      · rcases List.mem_append.1 hride with hride | hride
        · exact h.placed ride hride id hid
        · rw [List.mem_singleton.1 hride] at hid
          rw [show (RideRow.ofRide r).driver = none from hr.driver_eq] at hid
          cases hid
  | assign old r d at_ hr hd hwrite =>
      have hlawful := h.lawful.assignRide hwrite
      obtain ⟨driver, ride, hdriver, havailable, hpermitted, hride,
          hrequested, -, rfl⟩ :=
        assignRide_applied hwrite
      obtain ⟨hmem, hid⟩ := mem_of_driver? hdriver
      have hmid := h.withStatus hdriver d.status d.updatedAt hpermitted
      have hmove := RideRow.movesTo_assigned hrequested hr
      apply hmid.putRide hlawful
        (hmove.shaped (h.shaped ride (mem_of_ride? hride).1))
      intro id hid'
      cases hid'
      obtain ⟨p, hp⟩ := DriverRow.placedAt_of_available (h.readable driver hmem)
        (h.lawful.permitted driver hmem) havailable
      refine ⟨driver.withStatus d.status d.updatedAt, p, ?_, hp⟩
      rw [← hid] at hdriver ⊢
      exact @driver?_putDriver_self s (driver.withStatus d.status d.updatedAt)
        driver hdriver
  | advance old r hold hstep hwrite =>
      have hlawful := h.lawful.changeRide hwrite
      obtain ⟨row, hrow, hread, hmove, rfl⟩ := h.advance_inv hold hstep hwrite
      have hmem := (mem_of_ride? hrow).1
      apply h.putRide hlawful (hmove.shaped (h.shaped row hmem))
      intro id hid
      have hdriver : row.driver = some id := by
        rw [← (RideRow.read_eq_ok hread).2.2.1, ← hstep.driver_eq]
        exact hid
      exact h.placed row hmem id hdriver

theorem served (h : s.Sound) (hserved : s.Served s') : s'.Sound := by
  induction hserved with
  | refl => exact h
  | tail _ hwrite ih => exact ih.serviceWrite hwrite

end Sound

end Store

end Ridehail
