import Ridehail.Proofs.Store.Rows

/-!
# The rules of the store

The store checks its rules on the row that is about to be written, against the
rows that are there.  What that comes to for the store as a whole is the
predicate `Store.Lawful`: identifiers are not repeated, every driver's row is
permitted, and no ride's row breaks a rule in the presence of all others.
Every write keeps it, whatever its arguments are, so that it holds of every
store that was ever empty.

The check of a single row is enough because a clash of two rides is symmetric
(`RideRow.Clashes.symm`): a row that clashes with none of the others also gives
none of the others a clash.

## Main results

* `Store.Lawful.insertDriver`, …, `Store.Lawful.assignRide` — every write keeps
  the rules.
* `Store.Lawful.holdsRider_unique`, `Store.Lawful.holdsDriver_unique` — a rider
  has one active ride at most, and a driver occupies one ride at most.
-/

namespace Ridehail

/-! ## Clashes -/

/-- Two different rides that cannot both be stored: each would be the one active
ride of the same rider, or the one ride that the same driver is on. -/
def RideRow.Clashes (a b : RideRow) : Prop :=
  a.id ≠ b.id ∧
    ((a.status.isActive = true ∧ b.status.isActive = true ∧ a.rider = b.rider) ∨
      (a.status.occupiesDriver = true ∧ b.status.occupiesDriver = true ∧
        ∃ driver, a.driver = some driver ∧ b.driver = some driver))

theorem RideRow.Clashes.symm {a b : RideRow} (h : a.Clashes b) :
    b.Clashes a := by
  obtain ⟨hne, ⟨ha, hb, hrider⟩ | ⟨ha, hb, driver, hda, hdb⟩⟩ := h
  · exact ⟨hne.symm, .inl ⟨hb, ha, hrider.symm⟩⟩
  · exact ⟨hne.symm, .inr ⟨hb, ha, driver, hdb, hda⟩⟩

namespace Store

variable {s s' : Store}

/-- The place of a row is taken exactly if the row clashes with a stored one. -/
theorem occupied_iff {row : RideRow} :
    s.occupied row = true ↔ ∃ other ∈ s.rides, row.Clashes other := by
  rw [occupied, List.any_eq_true]
  apply exists_congr
  intro other
  apply and_congr_right
  intro _
  have hdriver : row.driver.any other.holdsDriver = true ↔
      other.status.occupiesDriver = true ∧
        ∃ driver, row.driver = some driver ∧ other.driver = some driver := by
    cases row.driver with
    | none => simp
    | some driver => simp [RideRow.holdsDriver, and_comm]
  simp only [Bool.and_eq_true, Bool.or_eq_true, decide_eq_true_eq, hdriver,
    RideRow.Clashes, RideRow.holdsRider, ne_eq]
  constructor
  · rintro ⟨hne, ⟨ha, hr, hb⟩ | h⟩
    · exact ⟨fun heq => hne heq.symm, .inl ⟨ha, hb, hr.symm⟩⟩
    · exact ⟨fun heq => hne heq.symm, .inr h⟩
  · rintro ⟨hne, ⟨ha, hb, hr⟩ | h⟩
    · exact ⟨fun heq => hne heq.symm, .inl ⟨ha, hr.symm, hb⟩⟩
    · exact ⟨fun heq => hne heq.symm, .inr h⟩

/-- A row breaks no rule if it clashes with no stored row and its driver is
known. -/
theorem brokenRule?_eq_none {row : RideRow} :
    s.brokenRule? row = none ↔
      (∀ other ∈ s.rides, ¬row.Clashes other) ∧
        ∀ driver, row.driver = some driver →
          (s.driver? driver).isSome = true := by
  have hknown : s.driverKnown row = true ↔
      ∀ driver, row.driver = some driver →
        (s.driver? driver).isSome = true := by
    rw [driverKnown]
    cases row.driver <;> simp
  rw [← hknown, brokenRule?]
  by_cases hocc : s.occupied row = true
  · obtain ⟨other, hmem, hclash⟩ := occupied_iff.1 hocc
    simp only [hocc, if_true, reduceCtorEq, false_iff]
    exact fun h => h.1 other hmem hclash
  · have hfree : ∀ other ∈ s.rides, ¬row.Clashes other :=
      fun other hmem hclash => hocc (occupied_iff.2 ⟨other, hmem, hclash⟩)
    rw [if_neg hocc]
    by_cases hk : s.driverKnown row = true
    · simpa [hk] using hfree
    · simp [hk]

/-- The two rules that the row of a ride can break. -/
theorem brokenRule?_eq_some {row : RideRow} {rule : StoreRule}
    (h : s.brokenRule? row = some rule) :
    rule = .unique ∨ ∃ driver, row.driver = some driver ∧
      s.driver? driver = none := by
  unfold brokenRule? at h
  split at h
  · exact .inl (Option.some.inj h).symm
  · split at h
    · cases h
    · rename_i hknown
      right
      rw [driverKnown] at hknown
      cases hdriver : row.driver with
      | none => exact absurd (by simp [hdriver]) hknown
      | some driver => exact ⟨driver, rfl, by simpa [hdriver] using hknown⟩

/-! ## Lawful stores -/

/-- What the rules say of the store as a whole. -/
structure Lawful (s : Store) : Prop where
  /-- No driver has two rows. -/
  driverIds : (s.drivers.map (·.id)).Nodup
  /-- No ride has two rows. -/
  rideIds : (s.rides.map (·.id)).Nodup
  /-- An available driver has a location. -/
  permitted : ∀ row ∈ s.drivers, row.permitted = true
  /-- No two rides clash, and the driver of a ride is known. -/
  unbroken : ∀ row ∈ s.rides, s.brokenRule? row = none

theorem lawful_empty : Store.empty.Lawful where
  driverIds := List.nodup_nil
  rideIds := List.nodup_nil
  permitted := fun _ h => by cases h
  unbroken := fun _ h => by cases h

namespace Lawful

theorem not_clashes (h : s.Lawful) {a b : RideRow} (ha : a ∈ s.rides)
    (hb : b ∈ s.rides) :
    ¬a.Clashes b :=
  (brokenRule?_eq_none.1 (h.unbroken a ha)).1 b hb

theorem driver_known (h : s.Lawful) {row : RideRow} (hrow : row ∈ s.rides)
    {driver : DriverId} (hdriver : row.driver = some driver) :
    (s.driver? driver).isSome = true :=
  (brokenRule?_eq_none.1 (h.unbroken row hrow)).2 driver hdriver

/-- In a lawful store a row of a ride is the one found under its identifier. -/
theorem ride?_eq (h : s.Lawful) {row : RideRow} (hrow : row ∈ s.rides) :
    s.ride? row.id = some row :=
  ride?_of_mem h.rideIds hrow

theorem driver?_eq (h : s.Lawful) {row : DriverRow} (hrow : row ∈ s.drivers) :
    s.driver? row.id = some row :=
  driver?_of_mem h.driverIds hrow

/-- In a lawful store rides with one identifier are one. -/
theorem eq_of_id_eq (h : s.Lawful) {a b : RideRow} (ha : a ∈ s.rides)
    (hb : b ∈ s.rides) (hid : a.id = b.id) : a = b := by
  have hfound := h.ride?_eq ha
  rw [hid, h.ride?_eq hb] at hfound
  exact (Option.some.inj hfound).symm

/-! ### What every write keeps -/

/-- Putting a permitted row in the place of a driver keeps the rules. -/
theorem putDriver (h : s.Lawful) {row : DriverRow}
    (hrow : row.permitted = true) :
    (s.putDriver row).Lawful where
  driverIds := by
    rw [map_id_putDriver]
    exact h.driverIds
  rideIds := h.rideIds
  permitted := by
    intro x hx
    rcases mem_putDriver.1 hx with ⟨rfl, -⟩ | ⟨hx, -⟩
    · exact hrow
    · exact h.permitted x hx
  unbroken := by
    intro x hx
    obtain ⟨hfree, hknown⟩ := brokenRule?_eq_none.1 (h.unbroken x hx)
    refine brokenRule?_eq_none.2 ⟨hfree, fun driver hdriver => ?_⟩
    rw [isSome_driver?_putDriver]
    exact hknown driver hdriver

/-- Putting a row that breaks no rule in the place of a ride keeps the rules. -/
theorem putRide (h : s.Lawful) {row : RideRow}
    (hrow : s.brokenRule? row = none) :
    (s.putRide row).Lawful where
  driverIds := h.driverIds
  rideIds := by
    rw [map_id_putRide]
    exact h.rideIds
  permitted := h.permitted
  unbroken := by
    obtain ⟨hfree, hknown⟩ := brokenRule?_eq_none.1 hrow
    intro x hx
    -- Either of the two rows may be the new one, so the clash is turned around
    -- when the new row is the second.
    rw [brokenRule?_eq_none]
    rcases mem_putRide.1 hx with ⟨rfl, -⟩ | ⟨hold, -⟩
    · refine ⟨fun other hother => ?_, hknown⟩
      rcases mem_putRide.1 hother with ⟨rfl, -⟩ | ⟨hother, -⟩
      · exact fun hclash => hclash.1 rfl
      · exact hfree other hother
    · refine ⟨fun other hother => ?_, fun driver => h.driver_known hold⟩
      rcases mem_putRide.1 hother with ⟨rfl, -⟩ | ⟨hother, -⟩
      · exact fun hclash => hfree x hold hclash.symm
      · exact h.not_clashes hold hother

theorem changeDriver (h : s.Lawful) {id : DriverId} {applies : DriverRow → Bool}
    {change : DriverRow → DriverRow} {applied : Bool}
    (hwrite : s.changeDriver id applies change = .ok (applied, s')) :
    s'.Lawful := by
  cases applied with
  | false => rwa [changeDriver_unapplied hwrite]
  | true =>
      obtain ⟨row, -, -, hpermitted, rfl⟩ := changeDriver_applied hwrite
      exact h.putDriver hpermitted

theorem changeRide (h : s.Lawful) {id : RideId} {applies : RideRow → Bool}
    {change : RideRow → RideRow} {applied : Bool}
    (hwrite : s.changeRide id applies change = .ok (applied, s')) :
    s'.Lawful := by
  cases applied with
  | false => rwa [changeRide_unapplied hwrite]
  | true =>
      obtain ⟨row, -, -, hrule, rfl⟩ := changeRide_applied hwrite
      exact h.putRide hrule

theorem insertDriver (h : s.Lawful) {d : Driver} {applied : Bool}
    (hwrite : s.insertDriver d = .ok (applied, s')) : s'.Lawful := by
  cases applied with
  | false => rwa [insertDriver_unapplied hwrite]
  | true =>
      obtain ⟨hpermitted, hfree, rfl⟩ := insertDriver_applied hwrite
      have hnew : ∀ row ∈ s.drivers, row.id ≠ d.id := by
        simpa [driver?] using hfree
      refine ⟨?_, h.rideIds, ?_, ?_⟩
      · rw [List.map_append, List.map_singleton, List.nodup_append]
        refine ⟨h.driverIds, by simp, ?_⟩
        intro a ha b hb
        obtain ⟨row, hrow, rfl⟩ := List.mem_map.1 ha
        rw [List.mem_singleton.1 hb]
        exact hnew row hrow
      · intro row hrow
        rcases List.mem_append.1 hrow with hrow | hrow
        · exact h.permitted row hrow
        · rwa [List.mem_singleton.1 hrow]
      · intro row hrow
        obtain ⟨hclash, hknown⟩ := brokenRule?_eq_none.1 (h.unbroken row hrow)
        refine brokenRule?_eq_none.2 ⟨hclash, fun driver hdriver => ?_⟩
        have hsome := hknown driver hdriver
        simp only [driver?, List.find?_append, Option.isSome_or] at hsome ⊢
        simp [hsome]

theorem insertRide (h : s.Lawful) {r : Ride} {applied : Bool}
    (hwrite : s.insertRide r = .ok (applied, s')) : s'.Lawful := by
  cases applied with
  | false => rwa [insertRide_unapplied hwrite]
  | true =>
      obtain ⟨-, hfree, hrule, rfl⟩ := insertRide_applied hwrite
      have hnew : ∀ row ∈ s.rides, row.id ≠ r.id := ride?_eq_none.1 hfree
      obtain ⟨hclash, hknown⟩ := brokenRule?_eq_none.1 hrule
      refine ⟨h.driverIds, ?_, h.permitted, ?_⟩
      · rw [List.map_append, List.map_singleton, List.nodup_append]
        refine ⟨h.rideIds, by simp, ?_⟩
        intro a ha b hb
        obtain ⟨row, hrow, rfl⟩ := List.mem_map.1 ha
        rw [List.mem_singleton.1 hb]
        exact hnew row hrow
      · intro row hrow
        rw [brokenRule?_eq_none]
        rcases List.mem_append.1 hrow with hrow | hrow
        · refine ⟨fun other hother => ?_, fun driver => h.driver_known hrow⟩
          rcases List.mem_append.1 hother with hother | hother
          · exact h.not_clashes hrow hother
          · rw [List.mem_singleton.1 hother]
            exact fun hc => hclash row hrow hc.symm
        · rw [List.mem_singleton.1 hrow]
          refine ⟨fun other hother => ?_, hknown⟩
          rcases List.mem_append.1 hother with hother | hother
          · exact hclash other hother
          · rw [List.mem_singleton.1 hother]
            exact fun hc => hc.1 rfl

theorem assignRide (h : s.Lawful) {r : Ride} {d : Driver} {applied : Bool}
    (hwrite : s.assignRide r d = .ok (applied, s')) : s'.Lawful := by
  cases applied with
  | false => rwa [assignRide_unapplied hwrite]
  | true =>
      obtain ⟨driver, ride, -, -, hpermitted, -, -, hrule, rfl⟩ :=
        assignRide_applied hwrite
      exact (h.putDriver hpermitted).putRide hrule

/-! ### What the rules say -/

/-- A rider has one active ride at most. -/
theorem holdsRider_unique (h : s.Lawful) {rider : RiderId} {a b : RideRow}
    (ha : a ∈ s.rides) (hb : b ∈ s.rides) (hra : a.holdsRider rider = true)
    (hrb : b.holdsRider rider = true) :
    a = b := by
  simp only [RideRow.holdsRider, Bool.and_eq_true, decide_eq_true_eq] at hra hrb
  by_cases hid : a.id = b.id
  · exact h.eq_of_id_eq ha hb hid
  · exact absurd ⟨hid, .inl ⟨hra.2, hrb.2, hra.1.trans hrb.1.symm⟩⟩
      (h.not_clashes ha hb)

/-- A driver occupies one ride at most. -/
theorem holdsDriver_unique (h : s.Lawful) {driver : DriverId} {a b : RideRow}
    (ha : a ∈ s.rides) (hb : b ∈ s.rides) (hda : a.holdsDriver driver = true)
    (hdb : b.holdsDriver driver = true) :
    a = b := by
  simp only [RideRow.holdsDriver, Bool.and_eq_true,
    decide_eq_true_eq] at hda hdb
  by_cases hid : a.id = b.id
  · exact h.eq_of_id_eq ha hb hid
  · exact absurd ⟨hid, .inr ⟨hda.2, hdb.2, driver, hda.1, hdb.1⟩⟩
      (h.not_clashes ha hb)

end Lawful

end Store

end Ridehail
