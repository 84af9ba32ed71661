import Ridehail.Proofs.Dispatch.Sound

/-!
# Available drivers are idle

A driver is on a ride from its acceptance until it is completed or cancelled,
which is a fact about the rides; whether the driver is available is a fact about
the drivers.  The writes of the service keep the two apart: only the assignment
puts a driver on a ride, and makes them busy by the same write, and a driver is
made available at the end of a ride only when on no ride any more.

## Main results

* `Store.Idle.serviceWrite`, `Store.Idle.served` — the writes of the service,
  but for bringing drivers online, leave no available driver on a ride.
-/

namespace Ridehail.Store

variable {s s' : Store}

/-- No available driver is on a ride. -/
def Idle (s : Store) : Prop :=
  ∀ row ∈ s.drivers, row.status = .available → ¬s.Engaged row.id

theorem idle_empty : Store.empty.Idle := fun _ h => by cases h

/-- One available driver on a ride is enough. -/
theorem not_idle_of_engaged {id : DriverId}
    (havailable : (s.driver? id).map (·.status) = some .available)
    (hengaged : s.Engaged id) :
    ¬s.Idle := by
  obtain ⟨row, hrow, hstatus⟩ := Option.map_eq_some_iff.1 havailable
  obtain ⟨hmem, rfl⟩ := mem_of_driver? hrow
  exact fun hidle => hidle row hmem hstatus hengaged

/-- Who is on a ride depends on the rides only. -/
theorem engaged_putDriver {row : DriverRow} {id : DriverId} :
    (s.putDriver row).Engaged id ↔ s.Engaged id := Iff.rfl

/-- A driver is on no ride that was added as a request. -/
theorem engaged_of_append {ride : RideRow} {id : DriverId}
    (hride : ride.driver = none)
    (h : ({ s with rides := s.rides ++ [ride] } : Store).Engaged id) :
    s.Engaged id := by
  obtain ⟨x, hx, hholds⟩ := h
  rcases List.mem_append.1 hx with hx | hx
  · exact ⟨x, hx, hholds⟩
  · rw [List.mem_singleton.1 hx, holdsDriver_iff, hride] at hholds
    cases hholds.1

/-- Who is on a ride after a row was put was on it before, or is on it through
the new row. -/
theorem engaged_of_putRide {later : RideRow} {id : DriverId}
    (h : (s.putRide later).Engaged id) :
    later.holdsDriver id = true ∨ s.Engaged id := by
  obtain ⟨x, hx, hholds⟩ := h
  rcases mem_putRide.1 hx with ⟨rfl, -⟩ | ⟨hx, -⟩
  · exact .inl hholds
  · exact .inr ⟨x, hx, hholds⟩

namespace Idle

/-- Putting the row of a driver who is not made available on a ride leaves no
available driver on a ride. -/
theorem putDriver (h : s.Idle) {row : DriverRow}
    (hrow : row.status = .available → ¬s.Engaged row.id) :
    (s.putDriver row).Idle := by
  intro x hx hstatus
  rw [engaged_putDriver]
  rcases mem_putDriver.1 hx with ⟨rfl, -⟩ | ⟨hx, -⟩
  · exact hrow hstatus
  · exact h x hx hstatus

theorem advance (h : s.Idle) (hs : s.Sound) {old r : Ride}
    (hold : s.findRide old.id = .ok (some old)) (hstep : old.StepsTo r)
    (hwrite : s.advanceRide r old.status = .ok (true, s')) : s'.Idle := by
  obtain ⟨row, hrow, hread, -, rfl⟩ := hs.advance_inv hold hstep hwrite
  intro x hx hstatus hengaged
  rcases engaged_of_putRide hengaged with hholds | hbefore
  · refine h x hx hstatus ⟨row, (mem_of_ride? hrow).1, ?_⟩
    obtain ⟨-, -, hdriver, hbefore, -⟩ := RideRow.read_eq_ok hread
    rw [RideRow.holdsDriver, Bool.and_eq_true, decide_eq_true_iff] at hholds ⊢
    obtain ⟨hid, hoccupies⟩ := hholds
    exact ⟨hdriver ▸ hstep.driver_eq ▸ hid,
      hbefore ▸ hstep.occupiesDriver hoccupies⟩
  · exact h x hx hstatus hbefore

/-- A write of the service leaves no available driver on a ride. -/
theorem serviceWrite (h : s.Idle) (hs : s.Sound) (hwrite : s.ServiceWrite s') :
    s'.Idle := by
  cases hwrite with
  | register d hstatus hlocation hwrite =>
      obtain ⟨-, -, rfl⟩ := insertDriver_applied hwrite
      intro x hx hx'
      rcases List.mem_append.1 hx with hx | hx
      · exact h x hx hx'
      · rw [List.mem_singleton.1 hx] at hx'
        exact absurd (hstatus.symm.trans hx') (by decide)
  | locate id p at_ hp hwrite =>
      obtain ⟨row, hrow, -, -, rfl⟩ := changeDriver_applied hwrite
      exact h.putDriver fun hstatus => h row (mem_of_driver? hrow).1 hstatus
  | sideline d expected hd hwrite =>
      obtain ⟨row, hrow, -, -, rfl⟩ := changeDriver_applied hwrite
      exact h.putDriver fun hstatus => absurd hstatus hd
  | sweep d expected cutoff hwrite =>
      obtain ⟨row, hrow, -, -, rfl⟩ := changeDriver_applied hwrite
      apply h.putDriver
      intro hstatus
      cases hstatus
  | free d expected hfree hwrite =>
      obtain ⟨row, hrow, -, -, rfl⟩ := changeDriver_applied hwrite
      apply h.putDriver
      intro _
      show ¬s.Engaged row.id
      rw [(mem_of_driver? hrow).2]
      exact hfree
  | request r hr hwrite =>
      obtain ⟨-, -, -, rfl⟩ := insertRide_applied hwrite
      intro x hx hstatus hengaged
      exact h x hx hstatus (engaged_of_append hr.driver_eq hengaged)
  | assign old r d at_ hr hd hwrite =>
      obtain ⟨driver, ride, hdriver, -, -, hride, -, -, rfl⟩ :=
        assignRide_applied hwrite
      intro x hx hstatus hengaged
      -- The driver of the ride is busy now; all others are on the rides they
      -- were on.
      rcases mem_putDriver.1 hx with ⟨rfl, -⟩ | ⟨hx, hne⟩
      · exact absurd (hd.symm.trans hstatus) (by decide)
      · rcases engaged_of_putRide hengaged with hholds | hbefore
        · have hid := (holdsDriver_iff.1 hholds).1
          apply hne
          show x.id = driver.id
          rw [(mem_of_driver? hdriver).2]
          exact (Option.some.inj hid).symm
        · exact h x hx hstatus (engaged_putDriver.1 hbefore)
  | advance old r hold hstep hwrite => exact h.advance hs hold hstep hwrite

theorem served (h : s.Idle) (hs : s.Sound) (hserved : s.Served s') :
    s'.Idle := by
  induction hserved with
  | refl => exact h
  | tail hbefore hwrite ih => exact ih.serviceWrite (hs.served hbefore) hwrite

end Idle

end Ridehail.Store
