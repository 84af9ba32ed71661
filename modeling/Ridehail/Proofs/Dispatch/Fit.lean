import Ridehail.Proofs.Dispatch.Runs
import Ridehail.Proofs.Store.Exclusive

/-!
# Stores that never refuse

Reading a row checks what its columns do not, so a store may hold a ride that no
one can read any more.  The service does not bring such a store about as long as
the points that it is given are points.  Then every look into the store
succeeds, and a write that is decided on a record just read finds its row as it
was and breaks no rule.

## Main results

* `World.fit_run` — calls with points leave every row readable.
* `Store.Fit.exists_findRide`, `exists_ridesWhere`, … — looks into the store
  succeed.
* `Store.Fit.exists_advanceRide` — a step of a ride that was just read is
  stored.
-/

namespace Ridehail

/-- The service can work on the store, and the rides in it can be read. -/
structure Store.Fit (s : Store) : Prop extends s.Sound where
  legible : ∀ row ∈ s.rides, ∃ r, row.read = .ok r

/-- An assignment leaves everything alone that reading checks. -/
theorem RideRow.exists_read_assigned {row : RideRow} {old : Ride}
    (h : row.read = .ok old) (r : Ride) (driver : DriverId) :
    ∃ later, (row.assigned r driver).read = .ok later := by
  obtain ⟨pickup, destination, fare, hpickup, hdestination, hfare, -⟩ :=
    read_eq_ok_iff.1 h
  exact ⟨_, read_eq_ok_iff.2 ⟨pickup, destination, fare, hpickup,
    hdestination, hfare, rfl⟩⟩

/-! ## Looking into the store -/

/-- Reading all rows of a list succeeds if each of them can be read. -/
theorem exists_mapM_ok {ε ρ α : Type} {read : ρ → Except ε α} {rows : List ρ}
    (h : ∀ row ∈ rows, ∃ a, read row = .ok a) :
    ∃ records, rows.mapM read = .ok records := by
  induction rows with
  | nil => exact ⟨[], rfl⟩
  | cons row rest ih =>
      obtain ⟨a, ha⟩ := h row List.mem_cons_self
      obtain ⟨records, hrecords⟩ :=
        ih fun x hx => h x (List.mem_cons_of_mem row hx)
      refine ⟨a :: records, ?_⟩
      rw [List.mapM_cons, ha, hrecords]
      rfl

/-- What is read from the rows of a list is read from one after the other. -/
theorem forall₂_of_mapM {ε ρ α : Type} {read : ρ → Except ε α} {rows : List ρ}
    {records : List α} (h : rows.mapM read = .ok records) :
    List.Forall₂ (fun row a => read row = .ok a) rows records := by
  induction rows generalizing records with
  | nil =>
      cases h
      exact .nil
  | cons row rest ih =>
      rw [List.mapM_cons] at h
      cases hread : read row with
      | error e =>
          rw [hread] at h
          cases h
      | ok a =>
          rw [hread] at h
          cases hrest : rest.mapM read with
          | error e =>
              rw [hrest] at h
              cases h
          | ok others =>
              rw [hrest] at h
              cases h
              exact .cons hread (ih hrest)

/-- Each record that is read from some rows is read from one of them. -/
theorem exists_row_of_forall₂ {ε ρ α : Type} {read : ρ → Except ε α}
    {rows : List ρ} {records : List α}
    (h : List.Forall₂ (fun row a => read row = .ok a) rows records) {a : α}
    (ha : a ∈ records) : ∃ row ∈ rows, read row = .ok a := by
  induction h with
  | nil => cases ha
  | @cons row first rows records hread _ ih =>
      rcases List.mem_cons.1 ha with rfl | ha
      · exact ⟨row, List.mem_cons_self, hread⟩
      · obtain ⟨other, hother, hreads⟩ := ih ha
        exact ⟨other, List.mem_cons_of_mem row hother, hreads⟩

namespace Store

variable {s s' : Store}

/-- What a limit leaves of some rows are rows. -/
theorem mem_of_mem_limited {α : Type} {limit : Int} {rows : List α} {row : α}
    (h : row ∈ limited limit rows) : row ∈ rows := by
  unfold limited at h
  split at h
  · exact h
  · exact List.mem_of_mem_take h

theorem fit_empty : Store.empty.Fit where
  toSound := sound_empty
  legible := fun _ h => by cases h

/-- A sound store without new rides is as fit as the one before. -/
theorem Fit.of_rides_eq (h : s.Fit) (hs : s'.Sound)
    (hrides : s'.rides = s.rides) : s'.Fit where
  toSound := hs
  legible := hrides ▸ h.legible

namespace Fit

theorem exists_findRide (h : s.Fit) (id : RideId) :
    ∃ found, s.findRide id = .ok found := by
  unfold findRide
  cases hrow : s.ride? id with
  | none => exact ⟨none, rfl⟩
  | some row =>
      obtain ⟨r, hr⟩ := h.legible row (mem_of_ride? hrow).1
      exact ⟨some r, by simp [hr, Except.map]⟩

theorem exists_read_driver (h : s.Fit) {row : DriverRow}
    (hrow : row ∈ s.drivers) :
    ∃ d, row.read = .ok d := by
  obtain ⟨location, hlocation⟩ := h.readable row hrow
  exact ⟨_, DriverRow.read_eq_ok.2 ⟨location, hlocation, rfl⟩⟩

theorem exists_findDriver (h : s.Fit) (id : DriverId) :
    ∃ found, s.findDriver id = .ok found := by
  unfold findDriver
  cases hrow : s.driver? id with
  | none => exact ⟨none, rfl⟩
  | some row =>
      obtain ⟨d, hd⟩ := h.exists_read_driver (mem_of_driver? hrow).1
      exact ⟨some d, by simp [hd, Except.map]⟩

theorem exists_ridesWhere (h : s.Fit) (meets : RideRow → Bool) (limit : Int) :
    ∃ rides, s.ridesWhere meets limit = .ok rides := by
  refine exists_mapM_ok fun row hrow => h.legible row ?_
  have hsorted := List.mem_mergeSort.1 (mem_of_mem_limited hrow)
  exact (List.mem_filter.1 hsorted).1

theorem exists_availableDrivers (h : s.Fit) (box : GeoBox) (since : Instant)
    (limit : Int) :
    ∃ drivers, s.availableDrivers box since limit = .ok drivers := by
  refine exists_mapM_ok fun row hrow => h.exists_read_driver ?_
  have hsorted := List.mem_mergeSort.1 (mem_of_mem_limited hrow)
  exact (List.mem_filter.1 hsorted).1

theorem exists_staleDrivers (h : s.Fit) (cutoff : Instant) :
    ∃ drivers, s.staleDrivers cutoff = .ok drivers := by
  refine exists_mapM_ok fun row hrow => h.exists_read_driver ?_
  exact (List.mem_filter.1 (List.mem_mergeSort.1 hrow)).1

/-! ## Writing -/

/-- A step that is decided on a ride just read is stored. -/
theorem exists_advanceRide (h : s.Fit) {old r : Ride}
    (hold : s.findRide old.id = .ok (some old)) (hstep : old.StepsTo r) :
    ∃ s', s.advanceRide r old.status = .ok (true, s') := by
  obtain ⟨row, hrow, hread⟩ := findRide_eq_some.1 hold
  obtain ⟨-, -, hdriver, hstatus, -⟩ := RideRow.read_eq_ok hread
  have happlies : decide (row.status = old.status) = true :=
    decide_eq_true hstatus.symm
  have hrule : s.brokenRule? (row.advanced r) = none := by
    refine brokenRule?_of_le h.lawful (mem_of_ride? hrow).1 rfl rfl ?_ ?_ ?_
    · exact hstep.driver_eq.trans hdriver
    · exact fun _ => hstatus ▸ hstep.isActive
    · exact fun hoccupies => hstatus ▸ hstep.occupiesDriver hoccupies
  exact ⟨_, changeRide_of_found (hstep.id_eq ▸ hrow) happlies hrule⟩

end Fit

end Store

/-! ## What keeps a store fit -/

namespace World

variable {σ : Type} [DriverIndex σ] {setup : Setup} {c : ServiceCall}
  {w next : World σ}

/-- A commit on a call with points keeps the store fit. -/
theorem Commit.fit (h : w.Commit setup c next) (hc : c.Located)
    (hw : w.store.Fit) :
    next.store.Fit := by
  have hsound := h.sound hw.toSound
  cases h with
  | still h => exact hw.of_rides_eq hsound (congrArg Store.rides h.store_eq)
  | register d s' hstatus hlocation h =>
      obtain ⟨-, -, rfl⟩ := Store.insertDriver_applied h
      exact hw.of_rides_eq hsound rfl
  | report row later d pings hrow hlater hd => exact hw.of_rides_eq hsound rfl
  | retire row at_ hrow => exact hw.of_rides_eq hsound rfl
  | request r s' hr hat hestimate hplace h =>
      refine ⟨hsound, fun row hrow => ?_⟩
      obtain ⟨found, hfound, stored, hread, -⟩ := hplace hc
      obtain ⟨-, -, -, rfl⟩ := Store.insertRide_applied h
      rcases List.mem_append.1 hrow with hold | hnew
      · exact hw.legible row hold
      · obtain rfl := List.mem_singleton.1 hnew
        have hself := hsound.lawful.ride?_eq hrow
        cases hfound.symm.trans hself
        exact ⟨stored, hread⟩
  | assign copy accepted d s' hcopy hd haccept h =>
      refine ⟨hsound, fun row hrow => ?_⟩
      obtain ⟨driver, ride, -, -, -, hride, -, -, rfl⟩ :=
        Store.assignRide_applied h
      rcases Store.mem_putRide.1 hrow with ⟨rfl, -⟩ | ⟨hold, -⟩
      · obtain ⟨r, hread⟩ := hw.legible ride (Store.mem_of_ride? hride).1
        exact RideRow.exists_read_assigned hread accepted d.id
      · exact hw.legible row hold
  | advance old r kind initiatedBy s' mid hold hstep hkind hat hcause h hmid =>
      refine ⟨hsound, fun row hrow => ?_⟩
      obtain ⟨before, -, hread, -, rfl⟩ := hw.advance_inv hold hstep h
      have hrides : mid.store.rides =
          (w.store.putRide (before.advanced r)).rides := by
        cases hmid <;> rfl
      rcases Store.mem_putRide.1 (hrides ▸ hrow) with ⟨rfl, -⟩ | ⟨hother, -⟩
      · obtain ⟨stored, hstored, -⟩ :=
          (RideRow.shows_of_read hread).advanced hstep
        exact ⟨stored, hstored⟩
      · exact hw.legible row hother

/-- A call with points keeps the store fit, whether it succeeds or not. -/
theorem fit_after (setup : Setup) (hw : w.store.Fit) (hc : c.Located) :
    (w.after setup c).store.Fit :=
  (commits_after hw.toSound c).keep (P := fun v => v.store.Fit) hw.toSound
    (fun _ _ _ hfit hcommit => hcommit.fit hc hfit) hw

/-- After any run of calls with points the store is fit. -/
theorem fit_run (hw : w.store.Fit) {turns : List (Turn σ)}
    (hturns : ∀ t ∈ turns, t.call.Located) :
    (run setup w turns).store.Fit := by
  induction turns generalizing w with
  | nil => exact hw
  | cons t rest ih =>
      have hnext : (w.turn setup t).store.Fit :=
        fit_after (w := t.begin w) setup hw (hturns t List.mem_cons_self)
      exact ih hnext fun u hu => hturns u (List.mem_cons_of_mem t hu)

/-- A world whose store the service can have brought about on calls with points,
starting from an empty one. -/
def Located (setup : Setup) (w : World σ) : Prop :=
  ∃ (w₀ : World σ) (turns : List (Turn σ)), w₀.store = .empty ∧
    (∀ t ∈ turns, t.call.Located) ∧ w.store = (run setup w₀ turns).store

theorem Located.fit (h : w.Located setup) : w.store.Fit := by
  obtain ⟨w₀, turns, hempty, hturns, hstore⟩ := h
  rw [hstore]
  exact fit_run (hempty ▸ Store.fit_empty) hturns

end World

end Ridehail
