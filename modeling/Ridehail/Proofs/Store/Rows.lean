import Ridehail.Store.Drivers
import Ridehail.Store.Rides

/-!
# Rows under writes

Every write but an insertion replaces one row by a changed copy of itself, and
does so only after it has found that row under its identifier.  This module
says once what replacing a row means for looking rows up, and then inverts the
conditional writes: from the fact that a write applied, it recovers the row
that was found, the condition that the row met and the store that was left.

Nothing here depends on what the rows mean.  The rules that the store keeps
are the subject of `Proofs.Store.Rules`.

## Main results

* `driver?_putDriver`, `ride?_putRide` — a put row is found under its own
  identifier, and all other rows are found as before.
* `changeDriver_applied`, `changeRide_applied`, `assignRide_applied` — what an
  applied write has found and what it has left.
* `changeRide_unapplied`, `assignRide_unapplied` — a write that did not apply
  leaves the store as it was.
-/

namespace Ridehail

/-! ## Replacing a row in a table -/

section Table

variable {ρ κ : Type} [DecidableEq κ] (key : ρ → κ)

/-- Looking up a key in a table in which one row was replaced. -/
private theorem find?_replace (rows : List ρ) (row : ρ) (k : κ) :
    (rows.map fun other => if key other = key row then row else other).find?
        (fun x => key x = k) =
      if k = key row then (rows.find? fun x => key x = k).map fun _ => row
      else rows.find? fun x => key x = k := by
  induction rows with
  | nil => simp
  | cons other rest ih =>
      rw [List.map_cons, List.find?_cons, ih]
      by_cases hother : key other = key row
      · by_cases hk : k = key row
        · simp [hother, hk]
        · have hk' : ¬ key row = k := fun h => hk h.symm
          simp [hother, hk, hk']
      · by_cases hk : k = key row
        · subst hk
          simp [hother]
        · by_cases hfound : key other = k
          · simp [hk, hfound]
          · simp [hother, hk, hfound]

/-- Replacing a row changes no key. -/
private theorem map_key_replace (rows : List ρ) (row : ρ) :
    (rows.map fun other => if key other = key row then row else other).map key =
      rows.map key := by
  rw [List.map_map]
  apply List.map_congr_left
  intro other _
  by_cases h : key other = key row
  · simp [h]
  · simp [h]

/-- The rows after a replacement: the new row, if there was one with its key,
and the rows with other keys. -/
private theorem mem_replace {rows : List ρ} {row x : ρ} :
    (x ∈ rows.map fun other => if key other = key row then row else other) ↔
      (x = row ∧ ∃ other ∈ rows, key other = key row) ∨
        (x ∈ rows ∧ key x ≠ key row) := by
  rw [List.mem_map]
  constructor
  · rintro ⟨other, hmem, rfl⟩
    by_cases h : key other = key row
    · rw [if_pos h]
      exact .inl ⟨rfl, other, hmem, h⟩
    · rw [if_neg h]
      exact .inr ⟨hmem, h⟩
  · rintro (⟨rfl, other, hmem, h⟩ | ⟨hmem, h⟩)
    · exact ⟨other, hmem, if_pos h⟩
    · exact ⟨x, hmem, if_neg h⟩

/-- In a table without repeated keys the row of a key is the one that is
found. -/
private theorem find?_eq_some_of_nodup {rows : List ρ}
    (h : (rows.map key).Nodup) {row : ρ} (hmem : row ∈ rows) :
    (rows.find? fun x => key x = key row) = some row := by
  induction rows with
  | nil => cases hmem
  | cons other rest ih =>
      rw [List.map_cons, List.nodup_cons] at h
      rcases List.mem_cons.1 hmem with rfl | hrest
      · simp
      · have hne : key other ≠ key row := fun heq =>
          h.1 (heq ▸ List.mem_map_of_mem hrest)
        simpa [List.find?_cons, hne] using ih h.2 hrest

end Table

namespace Store

variable {s s' : Store}

/-! ## Finding rows -/

/-- A driver's row that was found is a row of the store with that identifier. -/
theorem mem_of_driver? {id : DriverId} {row : DriverRow}
    (h : s.driver? id = some row) :
    row ∈ s.drivers ∧ row.id = id :=
  ⟨List.mem_of_find?_eq_some h, by simpa using List.find?_some h⟩

theorem mem_of_ride? {id : RideId} {row : RideRow} (h : s.ride? id = some row) :
    row ∈ s.rides ∧ row.id = id :=
  ⟨List.mem_of_find?_eq_some h, by simpa using List.find?_some h⟩

/-- Without repeated identifiers every ride is found under its own. -/
theorem ride?_of_mem (h : (s.rides.map (·.id)).Nodup) {row : RideRow}
    (hmem : row ∈ s.rides) :
    s.ride? row.id = some row :=
  find?_eq_some_of_nodup (fun row : RideRow => row.id) h hmem

theorem driver?_of_mem (h : (s.drivers.map (·.id)).Nodup) {row : DriverRow}
    (hmem : row ∈ s.drivers) : s.driver? row.id = some row :=
  find?_eq_some_of_nodup (fun row : DriverRow => row.id) h hmem

theorem ride?_eq_none {id : RideId} :
    s.ride? id = none ↔ ∀ row ∈ s.rides, row.id ≠ id := by
  simp [ride?]

/-- A ride is read from the row that is found. -/
theorem findRide_eq_some {id : RideId} {r : Ride} :
    s.findRide id = .ok (some r) ↔
      ∃ row, s.ride? id = some row ∧ row.read = .ok r := by
  unfold findRide
  cases hrow : s.ride? id with
  | none => simp
  | some row => cases hread : row.read <;> simp [hread, Except.map]

theorem findDriver_eq_some {id : DriverId} {d : Driver} :
    s.findDriver id = .ok (some d) ↔
      ∃ row, s.driver? id = some row ∧ row.read = .ok d := by
  unfold findDriver
  cases hrow : s.driver? id with
  | none => simp
  | some row => cases hread : row.read <;> simp [hread, Except.map]

/-! ## Putting rows -/

theorem driver?_putDriver (s : Store) (row : DriverRow) (id : DriverId) :
    (s.putDriver row).driver? id =
      if id = row.id then (s.driver? id).map fun _ => row else s.driver? id :=
  find?_replace (fun row : DriverRow => row.id) s.drivers row id

theorem ride?_putRide (s : Store) (row : RideRow) (id : RideId) :
    (s.putRide row).ride? id =
      if id = row.id then (s.ride? id).map fun _ => row else s.ride? id :=
  find?_replace (fun row : RideRow => row.id) s.rides row id

/-- A put row is found in the place of the one that was there. -/
theorem ride?_putRide_self {row old : RideRow} (h : s.ride? row.id = some old) :
    (s.putRide row).ride? row.id = some row := by
  rw [ride?_putRide, if_pos rfl, h, Option.map_some]

theorem driver?_putDriver_self {row old : DriverRow}
    (h : s.driver? row.id = some old) :
    (s.putDriver row).driver? row.id = some row := by
  rw [driver?_putDriver, if_pos rfl, h, Option.map_some]

/-- The other rows are found as before. -/
theorem ride?_putRide_ne {row : RideRow} {id : RideId} (h : id ≠ row.id) :
    (s.putRide row).ride? id = s.ride? id := by
  rw [ride?_putRide, if_neg h]

theorem driver?_putDriver_ne {row : DriverRow} {id : DriverId}
    (h : id ≠ row.id) :
    (s.putDriver row).driver? id = s.driver? id := by
  rw [driver?_putDriver, if_neg h]

/-- Putting a driver's row makes no driver known or unknown. -/
@[simp] theorem isSome_driver?_putDriver (s : Store) (row : DriverRow)
    (id : DriverId) :
    ((s.putDriver row).driver? id).isSome = (s.driver? id).isSome := by
  rw [driver?_putDriver]
  split <;> simp

theorem map_id_putRide (s : Store) (row : RideRow) :
    (s.putRide row).rides.map (·.id) = s.rides.map (·.id) :=
  map_key_replace (fun row : RideRow => row.id) s.rides row

theorem map_id_putDriver (s : Store) (row : DriverRow) :
    (s.putDriver row).drivers.map (·.id) = s.drivers.map (·.id) :=
  map_key_replace (fun row : DriverRow => row.id) s.drivers row

theorem mem_putRide {row x : RideRow} :
    x ∈ (s.putRide row).rides ↔
      (x = row ∧ ∃ other ∈ s.rides, other.id = row.id) ∨
        (x ∈ s.rides ∧ x.id ≠ row.id) :=
  mem_replace fun row : RideRow => row.id

theorem mem_putDriver {row x : DriverRow} :
    x ∈ (s.putDriver row).drivers ↔
      (x = row ∧ ∃ other ∈ s.drivers, other.id = row.id) ∨
        (x ∈ s.drivers ∧ x.id ≠ row.id) :=
  mem_replace fun row : DriverRow => row.id

/-! ## Conditional writes -/

/-- A change of a driver that applied has found a row that meets the
condition. -/
theorem changeDriver_applied {id : DriverId} {applies : DriverRow → Bool}
    {change : DriverRow → DriverRow}
    (h : s.changeDriver id applies change = .ok (true, s')) :
    ∃ row, s.driver? id = some row ∧ applies row = true ∧
      (change row).permitted = true ∧
      s' = s.putDriver (change row) := by
  unfold changeDriver at h
  cases hfound : (s.driver? id).filter applies with
  | none => simp [hfound] at h
  | some row =>
      obtain ⟨hrow, happlies⟩ := Option.filter_eq_some_iff.1 hfound
      simp only [hfound] at h
      split at h
      · rename_i hpermitted
        cases h
        exact ⟨row, hrow, happlies, hpermitted, rfl⟩
      · cases h

/-- A change of a driver that failed has found a row whose change may not be
stored. -/
theorem changeDriver_failed {id : DriverId} {applies : DriverRow → Bool}
    {change : DriverRow → DriverRow} {fault : StoreFault}
    (h : s.changeDriver id applies change = .error fault) :
    ∃ row, s.driver? id = some row ∧ applies row = true ∧
      ¬(change row).permitted = true := by
  unfold changeDriver at h
  cases hfound : (s.driver? id).filter applies with
  | none => simp [hfound] at h
  | some row =>
      obtain ⟨hrow, happlies⟩ := Option.filter_eq_some_iff.1 hfound
      simp only [hfound] at h
      split at h
      · cases h
      · rename_i hpermitted
        exact ⟨row, hrow, happlies, hpermitted⟩

theorem changeDriver_unapplied {id : DriverId} {applies : DriverRow → Bool}
    {change : DriverRow → DriverRow}
    (h : s.changeDriver id applies change = .ok (false, s')) :
    s' = s := by
  unfold changeDriver at h
  split at h
  · cases h; rfl
  · split at h <;> cases h

/-- A change applies to the row that meets its condition, if the changed row may
be stored. -/
theorem changeDriver_of_found {id : DriverId} {applies : DriverRow → Bool}
    {change : DriverRow → DriverRow} {row : DriverRow}
    (hrow : s.driver? id = some row) (happlies : applies row = true)
    (hpermitted : (change row).permitted = true) :
    s.changeDriver id applies change =
      .ok (true, s.putDriver (change row)) := by
  simp [changeDriver, hrow, Option.filter, happlies, hpermitted]

/-- A change of a ride that applied has found a row that meets the condition. -/
theorem changeRide_applied {id : RideId} {applies : RideRow → Bool}
    {change : RideRow → RideRow}
    (h : s.changeRide id applies change = .ok (true, s')) :
    ∃ row, s.ride? id = some row ∧ applies row = true ∧
      s.brokenRule? (change row) = none ∧
      s' = s.putRide (change row) := by
  unfold changeRide at h
  cases hfound : (s.ride? id).filter applies with
  | none => simp [hfound] at h
  | some row =>
      obtain ⟨hrow, happlies⟩ := Option.filter_eq_some_iff.1 hfound
      simp only [hfound] at h
      split at h
      · rename_i hrule
        cases h
        exact ⟨row, hrow, happlies, hrule, rfl⟩
      · cases h

/-- A change applies to the row that meets its condition, if the changed row
breaks no rule. -/
theorem changeRide_of_found {id : RideId} {applies : RideRow → Bool}
    {change : RideRow → RideRow} {row : RideRow} (hrow : s.ride? id = some row)
    (happlies : applies row = true)
    (hrule : s.brokenRule? (change row) = none) :
    s.changeRide id applies change = .ok (true, s.putRide (change row)) := by
  simp [changeRide, hrow, Option.filter, happlies, hrule]

theorem changeRide_unapplied {id : RideId} {applies : RideRow → Bool}
    {change : RideRow → RideRow}
    (h : s.changeRide id applies change = .ok (false, s')) :
    s' = s := by
  unfold changeRide at h
  split at h
  · cases h; rfl
  · split at h <;> cases h

/-- A change of a ride that did not apply has found no row that meets the
condition. -/
theorem changeRide_missed {id : RideId} {applies : RideRow → Bool}
    {change : RideRow → RideRow}
    (h : s.changeRide id applies change = .ok (false, s')) {row : RideRow}
    (hrow : s.ride? id = some row) : ¬applies row = true := by
  intro happlies
  simp only [changeRide, hrow, Option.filter, happlies, if_true] at h
  split at h <;> cases h

/-- A change of a ride that failed has found a row whose change would break a
rule. -/
theorem changeRide_failed {id : RideId} {applies : RideRow → Bool}
    {change : RideRow → RideRow} {fault : StoreFault}
    (h : s.changeRide id applies change = .error fault) :
    ∃ row rule, s.ride? id = some row ∧ applies row = true ∧
      s.brokenRule? (change row) = some rule ∧ fault = .broken rule := by
  unfold changeRide at h
  cases hfound : (s.ride? id).filter applies with
  | none => simp [hfound] at h
  | some row =>
      obtain ⟨hrow, happlies⟩ := Option.filter_eq_some_iff.1 hfound
      simp only [hfound] at h
      split at h
      · cases h
      · rename_i rule hrule
        cases h
        exact ⟨row, rule, hrow, happlies, hrule, rfl⟩

/-! ## Insertions -/

/-- A row that was added is found if its identifier was free. -/
theorem driver?_of_added {row : DriverRow} {id : DriverId} (hid : row.id = id)
    (hnew : s.driver? id = none) (h : s'.drivers = s.drivers ++ [row]) :
    s'.driver? id = some row := by
  unfold driver? at hnew ⊢
  rw [h, List.find?_append, hnew]
  simp [hid]

theorem ride?_of_added {row : RideRow} {id : RideId} (hid : row.id = id)
    (hnew : s.ride? id = none) (h : s'.rides = s.rides ++ [row]) :
    s'.ride? id = some row := by
  unfold ride? at hnew ⊢
  rw [h, List.find?_append, hnew]
  simp [hid]

/-- An inserted driver's row is added behind the others, none of which has its
identifier. -/
theorem insertDriver_applied {d : Driver}
    (h : s.insertDriver d = .ok (true, s')) :
    (DriverRow.ofDriver d).permitted = true ∧ s.driver? d.id = none ∧
      s' = { s with drivers := s.drivers ++ [DriverRow.ofDriver d] } := by
  simp only [insertDriver] at h
  split at h
  · cases h
  · rename_i hpermitted
    split at h
    · cases h
    · rename_i hfree
      cases h
      exact ⟨by simpa using hpermitted, by simpa using hfree, rfl⟩

theorem insertDriver_unapplied {d : Driver}
    (h : s.insertDriver d = .ok (false, s')) :
    s' = s := by
  simp only [insertDriver] at h
  split at h
  · cases h
  · split at h <;> cases h
    rfl

/-- An inserted ride's row is added behind the others.  Its rider was idle, its
identifier was free, and it breaks no rule. -/
theorem insertRide_applied {r : Ride} (h : s.insertRide r = .ok (true, s')) :
    s.riderActive r.rider = false ∧ s.ride? r.id = none ∧
      s.brokenRule? (RideRow.ofRide r) = none ∧
      s' = { s with rides := s.rides ++ [RideRow.ofRide r] } := by
  simp only [insertRide] at h
  split at h
  · cases h
  · rename_i hidle
    split at h
    · cases h
    · split at h
      · cases h
      · rename_i hfree
        split at h
        · rename_i hrule
          cases h
          exact ⟨by simpa using hidle, by simpa using hfree, hrule, rfl⟩
        · cases h
        · cases h

theorem insertRide_unapplied {r : Ride} (h : s.insertRide r = .ok (false, s')) :
    s' = s := by
  simp only [insertRide] at h
  split at h
  · cases h; rfl
  · split at h
    · cases h
    · split at h
      · cases h; rfl
      · split at h <;> cases h
        rfl

/-! ## The assignment -/

/-- An assignment that applied has found an available driver and a requested
ride, and has changed both rows. -/
theorem assignRide_applied {r : Ride} {d : Driver}
    (h : s.assignRide r d = .ok (true, s')) :
    ∃ driver ride, s.driver? d.id = some driver ∧ driver.status = .available ∧
      (driver.withStatus d.status d.updatedAt).permitted = true ∧
      s.ride? r.id = some ride ∧ ride.status = .requested ∧
      (s.putDriver (driver.withStatus d.status d.updatedAt)).brokenRule?
        (ride.assigned r d.id) = none ∧
      s' = (s.putDriver (driver.withStatus d.status d.updatedAt)).putRide
        (ride.assigned r d.id) := by
  unfold assignRide at h
  cases hclaim : s.changeDriver d.id
      (fun row => row.status = .available) (fun row =>
      row.withStatus d.status d.updatedAt) with
  | error fault => simp [hclaim, bind, Except.bind] at h
  | ok claim =>
      obtain ⟨claimed, next⟩ := claim
      simp only [hclaim, bind, Except.bind] at h
      cases claimed with
      | false => simp [pure, Except.pure] at h
      | true =>
          obtain ⟨driver, hdriver, hstatus, hpermitted, rfl⟩ :=
            changeDriver_applied hclaim
          simp only [Bool.not_true, Bool.false_eq_true, if_false] at h
          split at h
          · rename_i last hride
            simp only [pure, Except.pure, Except.ok.injEq,
              Prod.mk.injEq, true_and] at h
            subst h
            obtain ⟨ride, hfound, hrequested, hrule, hlast⟩ :=
              changeRide_applied hride
            exact ⟨driver, ride, hdriver, by simpa using hstatus,
              hpermitted, hfound, by simpa using hrequested, hrule, hlast⟩
          · simp [pure, Except.pure] at h
          · simp [pure, Except.pure] at h
          · cases h

/-- An assignment that did not apply leaves the store as it was, also if it had
claimed the driver already. -/
theorem assignRide_unapplied {r : Ride} {d : Driver}
    (h : s.assignRide r d = .ok (false, s')) :
    s' = s := by
  unfold assignRide at h
  cases hclaim : s.changeDriver d.id
      (fun row => row.status = .available) (fun row =>
      row.withStatus d.status d.updatedAt) with
  | error fault => simp [hclaim, bind, Except.bind] at h
  | ok claim =>
      obtain ⟨claimed, next⟩ := claim
      simp only [hclaim, bind, Except.bind] at h
      cases claimed with
      | false => simpa [pure, Except.pure, eq_comm] using h
      | true =>
          simp only [Bool.not_true, Bool.false_eq_true, if_false] at h
          split at h
          · simp [pure, Except.pure] at h
          · simpa [pure, Except.pure, eq_comm] using h
          · simpa [pure, Except.pure, eq_comm] using h
          · cases h

end Store

end Ridehail
