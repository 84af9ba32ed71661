import Ridehail.Proofs.Dispatch.Runs
import Ridehail.Proofs.Store.Exclusive

/-!
# Busy drivers are on a ride

A driver becomes busy by being assigned to a ride and in no other way.  The
converse is the more delicate half: whatever ends the ride also has to end that
status, and freeing the driver is a step of its own, after the ride is stored,
whose failure nobody is told.  It cannot fail, because the driver of a ride
always has a place, so that no busy driver is left behind without a ride.

A driver may stop being busy during the ride, by going offline or on the way;
that is why the statement has only one direction.

## Main results

* `World.Commit.busyEngaged` — a commit leaves no busy driver without a ride.
* `World.busy_on_one_ride` — in every state that the service can have brought
  about, a busy driver is on exactly one ride.
-/

namespace Ridehail

namespace Store

variable {s : Store}

/-- Every busy driver is on a ride. -/
def BusyEngaged (s : Store) : Prop :=
  ∀ row ∈ s.drivers, row.status = .busy → s.Engaged row.id

theorem busyEngaged_empty : Store.empty.BusyEngaged := fun _ h => by cases h

theorem BusyEngaged.putDriver (h : s.BusyEngaged) {row : DriverRow}
    (hrow : row.status = .busy → s.Engaged row.id) :
    (s.putDriver row).BusyEngaged := by
  intro x hx hstatus
  rw [engaged_putDriver]
  rcases mem_putDriver.1 hx with ⟨rfl, -⟩ | ⟨hx, -⟩
  · exact hrow hstatus
  · exact h x hx hstatus

/-- Who was on a ride is still on it once another ride's row was put. -/
theorem Engaged.putRide {later : RideRow} {id : DriverId} (h : s.Engaged id)
    (hlater : ∀ ride ∈ s.rides,
      ride.id = later.id → ride.holdsDriver id = true →
      later.holdsDriver id = true) : (s.putRide later).Engaged id := by
  obtain ⟨ride, hride, hholds⟩ := h
  by_cases hid : ride.id = later.id
  · exact ⟨later, mem_putRide.2 (.inl ⟨rfl, ride, hride, hid⟩),
      hlater ride hride hid hholds⟩
  · exact ⟨ride, mem_putRide.2 (.inr ⟨hride, hid⟩), hholds⟩

/-- A requested ride is assigned to the one driver who becomes busy by it. -/
theorem BusyEngaged.assignRide {s' : Store} (h : s.BusyEngaged) (hs : s.Sound)
    {old r : Ride} {d : Driver} {at_ : Instant}
    (haccept : old.accept d.id at_ = .ok r)
    (hwrite : s.assignRide r d = .ok (true, s')) : s'.BusyEngaged := by
  obtain ⟨driver, ride, hdriver, -, -, hride, hrequested, -, rfl⟩ :=
    assignRide_applied hwrite
  obtain ⟨hmem, hid⟩ := mem_of_driver? hdriver
  obtain ⟨hmemRide, -⟩ := mem_of_ride? hride
  have hassigned : (ride.assigned r d.id).holdsDriver d.id = true := by
    obtain ⟨-, rfl⟩ := Ride.accept_eq_ok.1 haccept
    exact holdsDriver_iff.2 ⟨rfl, .inl rfl⟩
  intro x hx hstatus
  rcases mem_putDriver.1 hx with ⟨rfl, -⟩ | ⟨hx, -⟩
  · have hnew : (driver.withStatus d.status d.updatedAt).id = d.id := hid
    rw [hnew]
    exact ⟨ride.assigned r d.id,
      mem_putRide.2 (.inl ⟨rfl, ride, hmemRide, rfl⟩), hassigned⟩
  · -- Nobody was on the ride before, because it was only requested.
    refine Engaged.putRide (s := s.putDriver _) (h x hx hstatus)
      fun other hother hsame hholds => ?_
    have hother : other = ride := hs.lawful.eq_of_id_eq hother hmemRide hsame
    rw [hother, holdsDriver_iff, hrequested] at hholds
    rcases hholds.2 with h | h <;> cases h

end Store

namespace World

variable {σ : Type} [DriverIndex σ] {setup : Setup} {w next : World σ}

/-- The driver of a ride that ends is not left busy. -/
theorem Released.busyEngaged {old r : Ride} {s' : Store} (hs : w.store.Sound)
    (hbusy : w.store.BusyEngaged)
    (hold : w.store.findRide old.id = .ok (some old)) (hstep : old.StepsTo r)
    (hwrite : w.store.advanceRide r old.status = .ok (true, s'))
    (h : Released { w with store := s' } r next) : next.store.BusyEngaged := by
  obtain ⟨row, hrow, hread, hmove, rfl⟩ := hs.advance_inv hold hstep hwrite
  obtain ⟨hmem, -⟩ := Store.mem_of_ride? hrow
  have hdriver : row.driver = r.driver :=
    (RideRow.read_eq_ok hread).2.2.1.symm.trans hstep.driver_eq.symm
  -- All busy drivers but the one of this ride are on other rides.
  have hothers (x : DriverRow) (hx : x ∈ w.store.drivers)
      (hstatus : x.status = .busy)
      (hne : r.status.occupiesDriver = true ∨ r.driver ≠ some x.id) :
      (w.store.putRide (row.advanced r)).Engaged x.id := by
    refine (hbusy x hx hstatus).putRide fun ride hride hsame hholds => ?_
    obtain rfl := hs.lawful.eq_of_id_eq hride hmem hsame
    obtain ⟨hx, -⟩ := Store.holdsDriver_iff.1 hholds
    rw [hdriver] at hx
    rw [RideRow.holdsDriver, Bool.and_eq_true, decide_eq_true_iff]
    exact ⟨hx, hne.resolve_right fun hne => hne hx⟩
  cases h with
  | nobody h =>
      intro x hx hstatus
      apply hothers x hx hstatus
      rcases h with hstarted | hnone
      · left
        rw [hstarted]
        rfl
      · right
        rw [hnone]
        exact fun h => by cases h
  | kept found hfound hfoundDriver hidle =>
      intro x hx hstatus
      refine hothers x hx hstatus (.inr fun hsame => hidle ?_)
      have hid : found.id = x.id :=
        Option.some.inj (hfoundDriver.symm.trans hsame)
      have hx' : w.store.driver? found.id = some x :=
        hid ▸ hs.lawful.driver?_eq hx
      have hsameRow : found = x := Option.some.inj (hfound.symm.trans hx')
      rwa [hsameRow]
  | freed found p hfound hfoundDriver hp hended =>
      intro x hx hstatus
      rcases Store.mem_putDriver.1 hx with ⟨rfl, -⟩ | ⟨hx, hne⟩
      · cases hstatus
      · refine hothers x hx hstatus (.inr fun hsame => hne ?_)
        exact Option.some.inj (hsame.symm.trans hfoundDriver)

/-- A commit leaves no busy driver without a ride. -/
theorem Commit.busyEngaged {c : ServiceCall} (h : w.Commit setup c next)
    (hs : w.store.Sound) (hbusy : w.store.BusyEngaged) :
    next.store.BusyEngaged := by
  cases h with
  | still h =>
      rw [h.store_eq]
      exact hbusy
  | register d s' hstatus hlocation h =>
      obtain ⟨-, -, rfl⟩ := Store.insertDriver_applied h
      intro x hx hx'
      rcases List.mem_append.1 hx with hx | hx
      · exact hbusy x hx hx'
      · rw [List.mem_singleton.1 hx] at hx'
        exact absurd (hstatus.symm.trans hx') (by decide)
  | report row later d pings hrow hlater hd =>
      apply hbusy.putDriver
      intro hstatus
      rw [hlater.id_eq]
      exact hbusy row (Store.mem_of_driver? hrow).1 (hlater.busy hstatus)
  | retire row at_ hrow =>
      apply hbusy.putDriver
      intro hstatus
      cases hstatus
  | request r s' hr hat hestimate hplace h =>
      obtain ⟨-, -, -, rfl⟩ := Store.insertRide_applied h
      intro x hx hstatus
      obtain ⟨ride, hride, hholds⟩ := hbusy x hx hstatus
      exact ⟨ride, List.mem_append_left _ hride, hholds⟩
  | assign copy accepted d s' hcopy hd haccept h =>
      exact hbusy.assignRide hs (d := d.withStatus .busy w.now) haccept h
  | advance old r kind initiatedBy s' mid hold hstep hkind hat hcause h hmid =>
      show mid.store.BusyEngaged
      exact hmid.busyEngaged hs hbusy hold hstep h

/-- In every state that the service can have brought about, whatever the index
did, a driver who is busy is the driver of exactly one ride that is accepted or
in progress. -/
theorem busy_on_one_ride (hw : w.Reachable setup) :
    ∀ row ∈ w.store.drivers, row.status = .busy →
      (w.store.rides.filter fun ride =>
        ride.driver = some row.id ∧
          ride.status ∈ [.accepted, .inProgress]).length = 1 := by
  intro row hrow hstatus
  have hmost := hw.sound.lawful.length_holdsDriver_le row.id
  have hbusy : w.store.BusyEngaged := by
    obtain ⟨w₀, turns, hempty, hstore⟩ := hw
    rw [hstore]
    refine run_keeps (P := fun v => v.store.BusyEngaged)
      (hempty ▸ Store.sound_empty)
      (fun _ _ _ h => h) (fun c v next hv h hcommit =>
        hcommit.busyEngaged hv h) ?_
    exact hempty ▸ Store.busyEngaged_empty
  obtain ⟨ride, hride, hholds⟩ := hbusy row hrow hstatus
  have hleast : 0 < (w.store.rides.filter (·.holdsDriver row.id)).length :=
    List.length_pos_of_mem (List.mem_filter.2 ⟨hride, hholds⟩)
  simp only [RideRow.holdsDriver_eq] at hmost hleast
  omega

theorem Example.reachable_accepted : (run {} start accepted).Reachable {} :=
  reachable_run (w := start) rfl accepted

/-- In the example the driver who was given the ride is busy. -/
theorem busy_on_one_ride_example :
    (run {} Example.start Example.accepted).Reachable {} ∧
      ∃ row ∈ (run {} Example.start Example.accepted).store.drivers,
        row.id = "d" ∧ row.status = .busy ∧
          ((run {} Example.start Example.accepted).store.rides.filter
            fun ride =>
            ride.driver = some row.id ∧
              ride.status ∈ [.accepted, .inProgress]).length = 1 := by
  have hbusy : ((run {} Example.start Example.accepted).store.driver? "d").map
      (·.status) = some .busy := by
    decide +kernel
  obtain ⟨row, hrow, hstatus⟩ := Option.map_eq_some_iff.1 hbusy
  obtain ⟨hmem, hid⟩ := Store.mem_of_driver? hrow
  exact ⟨Example.reachable_accepted, row, hmem, hid, hstatus,
    busy_on_one_ride Example.reachable_accepted row hmem hstatus⟩

end World

end Ridehail
