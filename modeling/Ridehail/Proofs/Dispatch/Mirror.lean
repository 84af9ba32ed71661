import Ridehail.Index.Memory
import Ridehail.Proofs.Dispatch.Runs
import Mathlib.Data.List.Nodup

/-!
# The index mirrors the store

The index is told of every change of a driver by hand, after the change is
stored and from the record that the operation has worked on.  If the index is in
memory and never fails, nothing is lost on the way: it knows of exactly what the
store has, but for drivers without a place, whom it cannot know, and drivers who
are offline, whom it need not know.

A driver who pings while offline is entered as offline, so an entry may well be
that of an offline driver; going offline again removes it.

## Main results

* `MemoryIndex.Mirrors.told`, `Mirrors.removed` — telling the index what was
  stored, and having it forget a driver who went offline, restores the
  agreement.
* `World.Commit.mirrors` — every commit keeps it.
* `World.index_agrees` — after every call of a run, index and store agree.
-/

namespace Ridehail

/-- The entry is what the row says of its driver. -/
def IndexedDriver.Reflects (e : IndexedDriver) (row : DriverRow) : Prop :=
  e.driver = row.id ∧ e.status = row.status ∧
    ∃ p, row.PlacedAt p ∧ e.location.Same p

namespace MemoryIndex

/-- The index works, and agrees with the store on all drivers that it knows or
needs to know. -/
structure Mirrors (i : MemoryIndex) (s : Store) : Prop where
  working : i.failing = false
  nodup : (i.entries.map (·.1)).Nodup
  /-- An entry is that of a driver as the store has them. -/
  reflects : ∀ pair ∈ i.entries,
    ∃ row, s.driver? pair.1 = some row ∧ pair.2.Reflects row
  /-- A driver who has a place and is not offline has an entry. -/
  complete : ∀ row ∈ s.drivers, row.status ≠ .offline → (∃ p, row.PlacedAt p) →
    ∃ e, (row.id, e) ∈ i.entries

theorem mirrors_empty : Mirrors {} .empty where
  working := rfl
  nodup := List.nodup_nil
  reflects := fun _ h => by cases h
  complete := fun _ h => by cases h

variable {i : MemoryIndex} {s : Store} {row later : DriverRow}

/-- An agreement is about drivers only. -/
theorem Mirrors.of_drivers_eq {s' : Store} (h : i.Mirrors s)
    (hsame : s'.drivers = s.drivers) :
    i.Mirrors s' where
  working := h.working
  nodup := h.nodup
  reflects := by
    intro pair hpair
    obtain ⟨row, hrow, he⟩ := h.reflects pair hpair
    exact ⟨row, by rwa [Store.driver?, hsame], he⟩
  complete := by
    rw [hsame]
    exact h.complete

/-- A driver without a place has no entry. -/
theorem Mirrors.not_mem (h : i.Mirrors s) (hrow : s.driver? row.id = some row)
    (hplace : ∀ p, ¬row.PlacedAt p) (e : IndexedDriver) :
    (row.id, e) ∉ i.entries := by
  intro hmem
  obtain ⟨found, hfound, -, -, p, hp, -⟩ := h.reflects _ hmem
  rw [hrow] at hfound
  cases hfound
  exact hplace p hp

/-- Entries of other drivers are as good after a driver's row was put. -/
theorem Mirrors.reflects_other (h : i.Mirrors s)
    {pair : DriverId × IndexedDriver} (hpair : pair ∈ i.entries)
    (hne : pair.1 ≠ later.id) :
    ∃ row, (s.putDriver later).driver? pair.1 = some row ∧
      pair.2.Reflects row := by
  obtain ⟨row, hrow, he⟩ := h.reflects pair hpair
  exact ⟨row, by rwa [Store.driver?_putDriver_ne hne], he⟩

/-- Having the index forget a driver who is offline keeps the agreement. -/
theorem Mirrors.removed (h : i.Mirrors s) (hlater : later.status = .offline) :
    Mirrors { i with
      entries := Keyed.erase later.id i.entries } (s.putDriver later) where
  working := h.working
  nodup := Keyed.nodup_erase h.nodup later.id
  reflects := by
    intro pair hpair
    obtain ⟨hpair, hne⟩ := Keyed.mem_erase.1 hpair
    exact h.reflects_other hpair hne
  complete := by
    intro x hx hstatus hplaced
    rcases Store.mem_putDriver.1 hx with ⟨rfl, -⟩ | ⟨hx, hne⟩
    · exact absurd hlater hstatus
    · obtain ⟨e, he⟩ := h.complete x hx hstatus hplaced
      exact ⟨e, Keyed.mem_erase.2 ⟨he, hne⟩⟩

/-- Telling the index where a driver is keeps the agreement. -/
theorem Mirrors.entered (h : i.Mirrors s) (hrow : s.driver? later.id = some row)
    {e : IndexedDriver} (he : e.Reflects later) :
    Mirrors { i with
      entries := Keyed.put later.id e i.entries } (s.putDriver later) where
  working := h.working
  nodup := Keyed.nodup_put h.nodup later.id e
  reflects := by
    intro pair hpair
    rcases (Keyed.mem_put h.nodup).1 hpair with rfl | ⟨hpair, hne⟩
    · exact ⟨later, Store.driver?_putDriver_self hrow, he⟩
    · exact h.reflects_other hpair hne
  complete := by
    intro x hx hstatus hplaced
    rcases Store.mem_putDriver.1 hx with ⟨rfl, -⟩ | ⟨hx, hne⟩
    · exact ⟨e, (Keyed.mem_put h.nodup).2 (.inl rfl)⟩
    · obtain ⟨e', he'⟩ := h.complete x hx hstatus hplaced
      exact ⟨e', (Keyed.mem_put h.nodup).2 (.inr ⟨he', hne⟩)⟩

/-- Nothing needs to be told of a driver who has no place. -/
theorem Mirrors.unplaced (h : i.Mirrors s) (hrow : s.driver? row.id = some row)
    (hid : later.id = row.id) (hplace : ∀ p, ¬row.PlacedAt p)
    (hlater : ∀ p, ¬later.PlacedAt p) :
    i.Mirrors (s.putDriver later) where
  working := h.working
  nodup := h.nodup
  reflects := by
    intro pair hpair
    apply h.reflects_other hpair
    intro hsame
    have hmem : (row.id, pair.2) ∈ i.entries := by rwa [← hid, ← hsame]
    exact h.not_mem hrow hplace pair.2 hmem
  complete := by
    intro x hx hstatus hplaced
    rcases Store.mem_putDriver.1 hx with ⟨rfl, -⟩ | ⟨hx, -⟩
    · obtain ⟨p, hp⟩ := hplaced
      exact absurd hp (hlater p)
    · exact h.complete x hx hstatus hplaced

/-- Telling the index of a driver what their row shows keeps the agreement,
provided that a driver who had a place still has one. -/
theorem Mirrors.told {w : World MemoryIndex} (h : w.index.Mirrors w.store)
    (hrow : w.store.driver? row.id = some row) (hid : later.id = row.id)
    (hplaced : ∀ p, row.PlacedAt p → ∃ q, later.PlacedAt q) {d : Driver}
    (hd : later.Shows d) :
    (w.indexTold d).Mirrors (w.store.putDriver later) := by
  obtain ⟨location, hlocation, hsame⟩ := DriverRow.shows_iff.1 hd
  cases hd' : d.location with
  | none =>
      have hnone : location = none := by
        have hrel := hsame.location
        rw [hd'] at hrel
        cases hrel
        rfl
      have hlater (p : GeoPoint) : ¬later.PlacedAt p := by
        intro hp
        rw [DriverRow.PlacedAt, hlocation, hnone] at hp
        cases hp
      have hold (p : GeoPoint) : ¬row.PlacedAt p := by
        intro hp
        obtain ⟨q, hq⟩ := hplaced p hp
        exact hlater q hq
      rw [World.indexTold, hd']
      exact h.unplaced hrow hid hold hlater
  | some p =>
      obtain ⟨q, hq, hpq⟩ : ∃ q, later.PlacedAt q ∧ p.Same q := by
        have hrel := hsame.location
        rw [hd'] at hrel
        cases hrel with
        | some hpq => exact ⟨_, hlocation, hpq⟩
      let e : IndexedDriver := ⟨d.id, p, d.status, w.now⟩
      have hput : w.indexTold d =
          { w.index with entries := Keyed.put later.id e w.index.entries } := by
        rw [World.indexTold, hd']
        simp [DriverIndex.put, guarded, h.working, hd.id_eq, e]
      have he : e.Reflects later := ⟨hsame.id, hsame.status, q, hq, hpq⟩
      rw [hput]
      exact h.entered (hid ▸ hrow) he

/-- A driver who was just added is offline, and needs no entry. -/
theorem Mirrors.registered (h : i.Mirrors s) {s' : Store} {d : Driver}
    (hstatus : d.status = .offline)
    (hwrite : s.insertDriver d = .ok (true, s')) :
    i.Mirrors s' := by
  obtain ⟨-, hfree, rfl⟩ := Store.insertDriver_applied hwrite
  refine ⟨h.working, h.nodup, fun pair hpair => ?_, fun x hx hon hplaced => ?_⟩
  · obtain ⟨row, hrow, he⟩ := h.reflects pair hpair
    refine ⟨row, ?_, he⟩
    show (s.drivers ++ [DriverRow.ofDriver d]).find? _ = _
    rw [List.find?_append,
      show s.drivers.find? (·.id = pair.1) = some row from hrow]
    rfl
  · rcases List.mem_append.1 hx with hx | hx
    · exact h.complete x hx hon hplaced
    · rw [List.mem_singleton.1 hx] at hon
      exact absurd hstatus hon

/-- The available entries are those of the available drivers. -/
theorem Mirrors.available_perm (h : i.Mirrors s) (hs : s.Sound) :
    ((i.entries.filter (·.2.status = .available)).map (·.1)).Perm
      ((s.drivers.filter (·.status = .available)).map (·.id)) := by
  have hentries :
      ((i.entries.filter (·.2.status = .available)).map (·.1)).Nodup :=
    h.nodup.sublist (List.filter_sublist.map _)
  have hdrivers :
      ((s.drivers.filter (·.status = .available)).map (·.id)).Nodup :=
    hs.lawful.driverIds.sublist (List.filter_sublist.map _)
  refine (List.perm_ext_iff_of_nodup hentries hdrivers).2 fun id =>
    ⟨fun hid => ?_, fun hid => ?_⟩
  · obtain ⟨pair, hpair, rfl⟩ := List.mem_map.1 hid
    obtain ⟨hpair, hstatus⟩ := List.mem_filter.1 hpair
    obtain ⟨row, hrow, -, hsame, -⟩ := h.reflects pair hpair
    obtain ⟨hmem, hid⟩ := Store.mem_of_driver? hrow
    refine List.mem_map.2 ⟨row, List.mem_filter.2 ⟨hmem, ?_⟩, hid⟩
    rwa [← hsame]
  · obtain ⟨row, hrow, rfl⟩ := List.mem_map.1 hid
    obtain ⟨hmem, hstatus⟩ := List.mem_filter.1 hrow
    have havailable : row.status = .available := of_decide_eq_true hstatus
    have hon : row.status ≠ .offline := by rw [havailable]; decide
    -- An available driver has a place, so there is an entry, and it says what
    -- the row says.
    have hplaced := DriverRow.placedAt_of_available (hs.readable row hmem)
      (hs.lawful.permitted row hmem) havailable
    obtain ⟨e, he⟩ := h.complete row hmem hon hplaced
    obtain ⟨found, hfound, -, hsame, -⟩ := h.reflects _ he
    have hrow : s.driver? row.id = some row := hs.lawful.driver?_eq hmem
    have hfound : found = row := Option.some.inj (hfound.symm.trans hrow)
    refine List.mem_map.2 ⟨(row.id, e), List.mem_filter.2 ⟨he, ?_⟩, rfl⟩
    rw [hsame, hfound, havailable]
    rfl

/-- Asking who is near changes nothing. -/
theorem nearest_index (p : GeoPoint) (count : Nat) (radiusKm : Float)
    (i : MemoryIndex) :
    (DriverIndex.nearest p count radiusKm i).2 = i := by
  simp only [DriverIndex.nearest, guarded]
  split <;> rfl

/-- A driver who is forgotten is erased. -/
theorem remove_index (h : i.failing = false) (id : DriverId) :
    (DriverIndex.remove id i).2 = { i with
      entries := Keyed.erase id i.entries } := by
  simp [DriverIndex.remove, guarded, h]

end MemoryIndex

namespace World

variable {setup : Setup} {c : ServiceCall} {w next : World MemoryIndex}

open MemoryIndex

theorem Released.mirrors {r : Ride} (h : w.Released r next)
    (hm : w.index.Mirrors w.store) :
    next.index.Mirrors next.store := by
  cases h with
  | nobody h => exact hm
  | kept row hrow hdriver hstatus => exact hm
  | freed row p hrow hdriver hp hended =>
      have hshows :=
        (DriverRow.shows_of_read hp.read_eq).withStatus .available w.now
      have hid : (row.withStatus .available w.now).id = row.id := rfl
      have hplaced (q : GeoPoint) (hq : row.PlacedAt q) :
          ∃ q, (row.withStatus .available w.now).PlacedAt q := ⟨q, hq⟩
      exact hm.told hrow hid hplaced hshows

/-- A commit keeps the agreement of index and store. -/
theorem Commit.mirrors (h : w.Commit setup c next)
    (hm : w.index.Mirrors w.store) :
    next.index.Mirrors next.store := by
  cases h with
  | still h =>
      obtain ⟨index, drawn, rfl, hindex⟩ := h
      have hsame : index = w.index := by
        rcases hindex with h | ⟨p, count, radiusKm, h⟩
        · exact h
        · rw [h, nearest_index]
      rw [hsame]
      exact hm
  | register d s' hstatus hlocation h => exact hm.registered hstatus h
  | report row later d pings hrow hlater hd =>
      exact hm.told hrow hlater.id_eq (fun p hp => hlater.placed hp) hd
  | retire row at_ hrow =>
      show (DriverIndex.remove row.id w.index).2.Mirrors _
      rw [remove_index hm.working]
      have hoffline : (row.withStatus .offline at_).status = .offline := rfl
      exact hm.removed hoffline
  | request r s' hr hat hestimate hplace h =>
      obtain ⟨-, -, -, rfl⟩ := Store.insertRide_applied h
      exact hm.of_drivers_eq rfl
  | assign copy accepted d s' hcopy hd haccept h =>
      obtain ⟨row, hrow, hread⟩ := Store.findDriver_eq_some.1 hd
      obtain ⟨driver, ride, hdriver, -, -, -, -, -, rfl⟩ :=
        Store.assignRide_applied h
      have hsame : row = driver := Option.some.inj (hrow.symm.trans hdriver)
      subst hsame
      obtain ⟨-, hid⟩ := Store.mem_of_driver? hrow
      have hshows := (DriverRow.shows_of_read hread).withStatus .busy w.now
      have hfound : w.store.driver? row.id = some row := hid.symm ▸ hrow
      have hlater : (row.withStatus .busy w.now).id = row.id := rfl
      have hplaced (p : GeoPoint) (hp : row.PlacedAt p) :
          ∃ q, (row.withStatus .busy w.now).PlacedAt q := ⟨p, hp⟩
      exact (hm.told hfound hlater hplaced hshows).of_drivers_eq rfl
  | advance old r kind initiatedBy s' mid hold hstep hkind hat hcause h hmid =>
      obtain ⟨row, -, -, -, rfl⟩ := Store.changeRide_applied h
      show mid.index.Mirrors mid.store
      exact hmid.mirrors (hm.of_drivers_eq rfl)

/-- In a run in which nobody else touches the index, it keeps agreeing with the
store. -/
theorem mirrors_run (hs : w.store.Sound) (hm : w.index.Mirrors w.store)
    {turns : List (Turn MemoryIndex)} (hturns : ∀ t ∈ turns, t.index = id) :
    (run setup w turns).index.Mirrors (run setup w turns).store := by
  refine run_keeps (P := fun v => v.index.Mirrors v.store) hs
    (fun t ht v h => ?_) (fun c v next _ h hcommit => hcommit.mirrors h) hm
  show (t.index v.index).Mirrors v.store
  rw [hturns t ht]
  exact h

/-- In every run that starts with nothing stored and nothing in the index, and
in which nobody else touches the index, which never fails: an entry of the index
is that of a registered driver and says their stored status and place; a driver
who has a place and is not offline has an entry; and so the available drivers
are those that the index has as available.  This holds after any number of
calls, whether they succeeded or not. -/
theorem index_agrees (hstore : w.store = .empty) (hindex : w.index = {})
    {turns : List (Turn MemoryIndex)} (hturns : ∀ t ∈ turns, t.index = id) :
    let last := run setup w turns
    (∀ pair ∈ last.index.entries, ∃ row ∈ last.store.drivers,
      row.id = pair.1 ∧ pair.2.Reflects row) ∧
    (∀ row ∈ last.store.drivers, (∃ p, row.PlacedAt p) → row.status ≠ .offline →
      ∃ e, (row.id, e) ∈ last.index.entries) ∧
    ((last.index.entries.filter (·.2.status = .available)).map (·.1)).Perm
      ((last.store.drivers.filter (·.status = .available)).map (·.id)) := by
  intro last
  have hs : w.store.Sound := hstore ▸ Store.sound_empty
  have hm : w.index.Mirrors w.store := hstore ▸ hindex ▸ mirrors_empty
  have hlast : last.index.Mirrors last.store := mirrors_run hs hm hturns
  refine ⟨fun pair hpair => ?_, fun row hrow hplaced hon => ?_, ?_⟩
  · obtain ⟨row, hrow, he⟩ := hlast.reflects pair hpair
    obtain ⟨hmem, hid⟩ := Store.mem_of_driver? hrow
    exact ⟨row, hmem, hid, he⟩
  · exact hlast.complete row hrow hon hplaced
  · exact hlast.available_perm (sound_run hs turns)

namespace Example

/-- The same start with an index in memory. -/
def fresh : World MemoryIndex := { index := {}, now := ⟨0⟩ }

/-- A ride is requested before anybody is online, and assigned to the driver
later, who then sets out. -/
def assigned : List (Turn MemoryIndex) :=
  [{ now := ⟨1⟩, call := .registerDriver dana },
    { now := ⟨2⟩, call := .createRide "a" place none inRange_place },
    { now := ⟨3⟩, call := .goOnline "d" (some place) inRange_some_place },
    { now := ⟨4⟩,
      call := .assignRide (Ride.request trip "a" place none ⟨2⟩) "d" },
    { now := ⟨5⟩, call := .setEnRoute "d" }]

end Example

/-- In the example the driver is in the index, as one who is on the way. -/
theorem index_agrees_example :
    Example.fresh.store = .empty ∧ Example.fresh.index = {} ∧
      (∀ t ∈ Example.assigned, t.index = id) ∧
      ∃ e, ("d", e) ∈ (run {} Example.fresh Example.assigned).index.entries ∧
        e.status = .enRoute ∧
        ∃ row ∈ (run {} Example.fresh Example.assigned).store.drivers,
          row.id = "d" ∧ e.Reflects row := by
  have hturns : ∀ t ∈ Example.assigned, t.index = id := by
    simp [Example.assigned]
  obtain ⟨hreflects, -, -⟩ :=
    @index_agrees {} Example.fresh rfl rfl Example.assigned hturns
  have hentries : ("d", .enRoute) ∈
      (run {} Example.fresh Example.assigned).index.entries.map
      (fun pair => (pair.1, pair.2.status)) := by
    decide +kernel
  obtain ⟨⟨id, e⟩, hmem, hpair⟩ := List.mem_map.1 hentries
  obtain ⟨rfl, hstatus⟩ := Prod.mk.inj hpair
  obtain ⟨row, hrow, hid, he⟩ := hreflects _ hmem
  exact ⟨rfl, rfl, hturns, e, hmem, hstatus, row, hrow, hid, he⟩

end World

end Ridehail
