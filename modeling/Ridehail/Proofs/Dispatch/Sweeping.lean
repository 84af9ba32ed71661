import Ridehail.Dispatch.Sweep
import Ridehail.Proofs.Dispatch.Fit
import Ridehail.Proofs.Dispatch.Mirror
import Ridehail.Proofs.Store.Session

/-!
# Sweeps

A sweep lists the stale drivers first and takes them offline one by one, so a
driver may have pinged or changed status before it is their turn.  The write
that takes a driver offline asks again: it applies if the status is still the
listed one and the last ping is still too old, in whatever store it comes upon,
and it changes nothing else.

If nothing happens in between, the writes of a sweep do not touch each other's
drivers, and the sweep as a whole is one change of the store: every stale driver
is offline, as if each of them had been taken offline on their own.  Nobody is
stale then.

## Main results

* `DriverRow.isStale_iff` — who is stale, in milliseconds.
* `Store.markOfflineIfStale_eq` — what a mark comes to in any store.
* `Dispatch.sweepAt_runOn` — what a sweep leaves.
* `Dispatch.goOffline_runOn` — what taking one driver offline leaves.
* `Dispatch.exists_swept`, `exists_swept_of_reachable` — a sweep on its own.
* `Dispatch.Swept.offline_iff` — whom it takes offline.
* `Dispatch.sweep_exact` — a sweep among other writes, and on its own.
-/

namespace Ridehail

/-! ## Stale rows -/

/-- Whether the driver of a row is not offline and has last pinged before an
instant. -/
def DriverRow.isStale (row : DriverRow) (cutoff : Instant) : Bool :=
  row.status ≠ .offline && row.pingedBefore cutoff

theorem DriverRow.pingedBefore_eq_false {row : DriverRow} {t : Instant}
    (h : row.pingedSince t = true) : row.pingedBefore t = false := by
  unfold pingedSince at h
  unfold pingedBefore
  cases hping : row.lastPing with
  | none => rfl
  | some ping =>
      rw [hping] at h
      have hle : t ≤ ping := of_decide_eq_true h
      exact decide_eq_false (Int.not_lt.2 hle)

/-- A time some seconds earlier, if neither the seconds nor that time are out of
range. -/
theorem Instant.ms_minusSeconds {t : Instant} {seconds : Nat}
    (hseconds : (seconds : Int) * 1000 ≤ Double.int64Max)
    (hrange : IsInt64 (t.ms - seconds * 1000)) :
    (t.minusSeconds seconds).ms = t.ms - seconds * 1000 := by
  obtain ⟨hlow, hhigh⟩ := hrange
  show max Double.int64Min
    (min (t.ms - min ((seconds : Int) * 1000) Double.int64Max)
    Double.int64Max) = _
  rw [Int.min_eq_left hseconds, Int.min_eq_left hhigh, Int.max_eq_right hlow]

/-- A driver is stale who is not offline and whose last ping is longer ago than
some seconds. -/
theorem DriverRow.isStale_iff {row : DriverRow} {at_ : Instant} {seconds : Nat}
    (hseconds : (seconds : Int) * 1000 ≤ Double.int64Max)
    (hrange : IsInt64 (at_.ms - seconds * 1000)) :
    row.isStale (at_.minusSeconds seconds) = true ↔
      row.status ≠ .offline ∧ ∃ ping, row.lastPing = some ping ∧
        seconds * 1000 < at_.ms - ping.ms := by
  have hbefore (ping : Instant) :
      ping < at_.minusSeconds seconds ↔ seconds * 1000 < at_.ms - ping.ms := by
    show ping.ms < (at_.minusSeconds seconds).ms ↔ _
    rw [Instant.ms_minusSeconds hseconds hrange]
    omega
  simp only [isStale, pingedBefore, Bool.and_eq_true, decide_eq_true_eq,
    Option.any_eq_true, hbefore]

namespace Store

variable {s : Store} {cutoff at_ : Instant}

/-- The store in which some drivers went offline. -/
def retire (s : Store) (at_ : Instant) (gone : DriverRow → Bool) : Store :=
  { s with
    drivers := s.drivers.map fun row =>
      if gone row then row.withStatus .offline at_ else row }

theorem retire_congr {gone gone' : DriverRow → Bool}
    (h : ∀ row ∈ s.drivers, gone row = gone' row) :
    s.retire at_ gone = s.retire at_ gone' := by
  unfold retire
  congr 1
  apply List.map_congr_left
  intro row hrow
  rw [h row hrow]

theorem retire_none {gone : DriverRow → Bool}
    (h : ∀ row ∈ s.drivers, gone row = false) :
    s.retire at_ gone = s := by
  rw [retire_congr h]
  unfold retire
  simp

/-- One driver who goes offline is one row that is put. -/
theorem putDriver_eq_retire (hs : s.Lawful) {row : DriverRow}
    (hrow : row ∈ s.drivers) :
    s.putDriver (row.withStatus .offline at_) =
      s.retire at_ (·.id = row.id) := by
  unfold putDriver retire
  congr 1
  apply List.map_congr_left
  intro other hother
  by_cases hid : other.id = row.id
  · have hfound := hs.driver?_eq hother
    rw [hid, hs.driver?_eq hrow] at hfound
    cases hfound
    exact (if_pos rfl).trans (if_pos (decide_eq_true rfl)).symm
  · have hne : ¬other.id = (row.withStatus .offline at_).id := hid
    rw [if_neg hne, if_neg (by simpa using hid)]

/-- One driver goes offline and then some others. -/
theorem retire_retire (s : Store) (at_ : Instant) (id : DriverId)
    (ids : List DriverId) :
    (s.retire at_ (·.id = id)).retire at_ (ids.contains ·.id) =
      s.retire at_ ((id :: ids).contains ·.id) := by
  unfold retire
  simp only [List.map_map, mk.injEq, and_true]
  apply List.map_congr_left
  intro row _
  show (if ids.contains
    (if decide (row.id = id) = true then row.withStatus .offline at_
      else row).id
    then _ else _) = _
  by_cases hid : row.id = id
  · simp [hid, DriverRow.withStatus]
  · simp [hid]

theorem driver?_retire (s : Store) (at_ : Instant) (gone : DriverRow → Bool)
    (id : DriverId) :
    (s.retire at_ gone).driver? id =
      (s.driver? id).map fun row =>
        if gone row then row.withStatus .offline at_ else row := by
  have hids : ((fun row : DriverRow => decide (row.id = id)) ∘ fun row =>
      if gone row then row.withStatus .offline at_ else row) = fun row =>
        decide (row.id = id) := by
    funext row
    show decide ((if gone row then row.withStatus .offline at_ else row).id =
      id) = _
    split <;> rfl
  rw [driver?, retire, List.find?_map, hids, driver?]

theorem Lawful.retire (hs : s.Lawful) (at_ : Instant)
    (gone : DriverRow → Bool) :
    (s.retire at_ gone).Lawful where
  driverIds := by
    have hids : (s.retire at_ gone).drivers.map (·.id) =
        s.drivers.map (·.id) := by
      unfold Store.retire
      rw [List.map_map]
      apply List.map_congr_left
      intro row _
      show (if gone row then row.withStatus .offline at_ else row).id = row.id
      split <;> rfl
    rw [hids]
    exact hs.driverIds
  rideIds := hs.rideIds
  permitted := by
    intro x hx
    obtain ⟨row, hrow, rfl⟩ := List.mem_map.1 hx
    split
    · rfl
    · exact hs.permitted row hrow
  unbroken := by
    intro ride hride
    obtain ⟨hfree, hknown⟩ := brokenRule?_eq_none.1 (hs.unbroken ride hride)
    refine brokenRule?_eq_none.2 ⟨hfree, fun driver hdriver => ?_⟩
    rw [driver?_retire, Option.isSome_map]
    exact hknown driver hdriver

/-! ## Marking a driver -/

/-- What taking a listed driver offline comes to, whatever has become of the
store since: the write applies if the status is the listed one and the last ping
is too old. -/
theorem markOfflineIfStale_eq (hs : s.Lawful) (d : Driver)
    (cutoff at_ : Instant) :
    ∃ applied, s.markOfflineIfStale (d.goOffline at_) d.status cutoff =
        .ok (applied, if applied then s.retire at_ (·.id = d.id) else s) ∧
      (applied = true ↔ ∃ row, s.driver? d.id = some row ∧
        row.status = d.status ∧
        row.pingedBefore cutoff = true) := by
  by_cases hmeets : ∃ row, s.driver? d.id = some row ∧ row.status = d.status ∧
      row.pingedBefore cutoff = true
  · obtain ⟨row, hrow, hstatus, hping⟩ := hmeets
    obtain ⟨hmem, hid⟩ := mem_of_driver? hrow
    have happlies :
        (decide (row.status = d.status) && row.pingedBefore cutoff) = true := by
      rw [hstatus, hping, decide_eq_true rfl]
      rfl
    refine ⟨true, ?_, iff_of_true rfl ⟨row, hrow, hstatus, hping⟩⟩
    rw [if_pos rfl, ← hid, ← putDriver_eq_retire hs hmem]
    exact changeDriver_of_found hrow happlies rfl
  · refine ⟨false, ?_, iff_of_false Bool.false_ne_true hmeets⟩
    rw [if_neg Bool.false_ne_true]
    have hnone : (s.driver? d.id).filter (fun row =>
      decide (row.status = d.status) &&
        row.pingedBefore cutoff) = none := by
      refine Option.filter_eq_none_iff.2 fun row hrow => ?_
      intro happlies
      rw [Bool.and_eq_true, decide_eq_true_eq] at happlies
      exact hmeets ⟨row, hrow, happlies⟩
    show s.changeDriver d.id _ _ = _
    unfold changeDriver
    rw [hnone]

/-! ## Listing -/

/-- The listed drivers are read from the stale rows, in some order. -/
theorem exists_listed
    (hread : ∀ row ∈ s.drivers, row.isStale cutoff = true → row.Readable) :
    ∃ rows listed, s.staleDrivers cutoff = .ok listed ∧
      rows.Perm (s.drivers.filter (·.isStale cutoff)) ∧
      List.Forall₂ (fun row d => row.read = .ok d) rows listed := by
  let rows := (s.drivers.filter (·.isStale cutoff)).mergeSort earliestPingFirst
  have hall : ∀ row ∈ rows, ∃ d, row.read = .ok d := by
    intro row hrow
    obtain ⟨hmem, hstale⟩ := List.mem_filter.1 (List.mem_mergeSort.1 hrow)
    obtain ⟨location, hlocation⟩ := hread row hmem hstale
    exact ⟨_, DriverRow.read_eq_ok.2 ⟨location, hlocation, rfl⟩⟩
  obtain ⟨listed, hlisted⟩ := exists_mapM_ok hall
  exact ⟨rows, listed, hlisted, List.mergeSort_perm _ _,
    forall₂_of_mapM hlisted⟩

/-- Each listed driver is read from a stale row. -/
theorem exists_row_of_listed {listed : List Driver}
    (h : s.staleDrivers cutoff = .ok listed) {d : Driver} (hd : d ∈ listed) :
    ∃ row ∈ s.drivers, row.isStale cutoff = true ∧ row.read = .ok d := by
  obtain ⟨row, hrow, hread⟩ := exists_row_of_forall₂ (forall₂_of_mapM h) hd
  obtain ⟨hmem, hstale⟩ := List.mem_filter.1 (List.mem_mergeSort.1 hrow)
  exact ⟨row, hmem, hstale, hread⟩

theorem map_id_of_read {rows : List DriverRow} {listed : List Driver}
    (h : List.Forall₂ (fun row d => row.read = .ok d) rows listed) :
    rows.map (·.id) = listed.map (·.id) := by
  induction h with
  | nil => rfl
  | cons hread _ ih =>
      obtain ⟨location, -, rfl⟩ := DriverRow.read_eq_ok.1 hread
      rw [List.map_cons, List.map_cons, ih]
      rfl

/-- Nobody is stale once the stale drivers went offline. -/
theorem isStale_retire {row : DriverRow}
    (hrow : row ∈ (s.retire at_ (·.isStale cutoff)).drivers) :
    row.isStale cutoff = false := by
  obtain ⟨before, -, rfl⟩ := List.mem_map.1 hrow
  split
  · rfl
  · rename_i hfresh
    exact Bool.eq_false_iff.2 hfresh

end Store

/-- Whatever calls are made, the store keeps its rules. -/
theorem Session.lawful_run {s : Session} (hs : s.store.Lawful)
    (calls : List StoreCall) :
    (s.run calls).store.Lawful := by
  induction calls generalizing s with
  | nil => exact hs
  | cons c rest ih => exact ih (lawful_next hs)

/-- A driver who was listed is taken offline after any calls, or has moved on or
pinged. -/
theorem Session.markOfflineIfStale_run {s : Session} (hs : s.store.Lawful)
    (calls : List StoreCall) (d : Driver) (cutoff at_ : Instant) :
    let t := (s.run calls).store
    ∃ applied, t.markOfflineIfStale (d.goOffline at_) d.status cutoff =
        .ok (applied, if applied then t.retire at_ (·.id = d.id) else t) ∧
      (applied = true ↔ ∃ row, t.driver? d.id = some row ∧
        row.status = d.status ∧
        row.pingedBefore cutoff = true) ∧
      ∀ row, t.driver? d.id = some row → row.pingedSince cutoff = true →
        applied = false := by
  obtain ⟨applied, hwrite, happlied⟩ :=
    Store.markOfflineIfStale_eq (lawful_run hs calls) d cutoff at_
  refine ⟨applied, hwrite, happlied, fun row hrow hping => ?_⟩
  rw [← Bool.not_eq_true, happlied]
  rintro ⟨found, hfound, -, hbefore⟩
  cases hrow.symm.trans hfound
  rw [DriverRow.pingedBefore_eq_false hping] at hbefore
  cases hbefore

/-! ## One driver -/

namespace Dispatch

variable {σ : Type} [DriverIndex σ] {w : World σ} {row : DriverRow} {d : Driver}
  {cutoff at_ : Instant}

/-- Taking a known driver offline changes the driver's row and has the index
forget the driver. -/
theorem goOffline_runOn (hs : w.store.Lawful) (hrow : row ∈ w.store.drivers)
    (hread : row.read = .ok d) :
    (goOffline row.id).runOn w = (.ok (d.goOffline w.now), { w with
      store := w.store.retire w.now (·.id = row.id)
      index := (DriverIndex.remove row.id w.index).2 }) := by
  have hfound := hs.driver?_eq hrow
  have hfind := Store.findDriver_eq_some.2 ⟨row, hfound, hread⟩
  have hid : (d.goOffline w.now).id = row.id := by
    obtain ⟨location, -, rfl⟩ := DriverRow.read_eq_ok.1 hread
    rfl
  have hset := setDriverStatus_runOn hfound (d.goOffline w.now) hid
    (DriverStatus.mem_all row.status) rfl
  unfold goOffline
  rw [runOn_bind_ok (driver_eq_ok.2 ⟨hfind, rfl⟩), runOn_bind_ok (runOn_now w)]
  rw [runOn_bind_ok hset]
  rw [← Store.putDriver_eq_retire hs hrow]
  rfl

/-- A stale driver who is still as they were listed is taken offline. -/
theorem forceOffline_runOn (hs : w.store.Lawful) (hrow : row ∈ w.store.drivers)
    (hread : row.read = .ok d) (hstale : row.isStale cutoff = true)
    (at_ : Instant) :
    (forceOffline d cutoff at_).runOn w = (.ok true, { w with
      store := w.store.retire at_ (·.id = row.id)
      index := (DriverIndex.remove row.id w.index).2 }) := by
  have hid : d.id = row.id ∧ d.status = row.status := by
    obtain ⟨location, -, rfl⟩ := DriverRow.read_eq_ok.1 hread
    exact ⟨rfl, rfl⟩
  obtain ⟨applied, hwrite, happlied⟩ :=
    Store.markOfflineIfStale_eq hs d cutoff at_
  have hping : row.pingedBefore cutoff = true :=
    (Bool.and_eq_true_iff.1 hstale).2
  have happlied :=
    happlied.2 ⟨row, hid.1 ▸ hs.driver?_eq hrow, hid.2.symm, hping⟩
  rw [happlied, if_pos rfl, hid.1] at hwrite
  unfold forceOffline
  rw [runOn_bind_ok (write_eq_ok.2 ⟨_, hwrite, rfl⟩), if_pos rfl, hid.1]
  rfl

/-! ## All of them -/

/-- The index once it was told to forget some drivers. -/
def forgotten (index : σ) (ids : List DriverId) : σ :=
  ids.foldl (fun i id => (DriverIndex.remove id i).2) index

/-- Stale drivers who are as they were listed are taken offline one by one.
None of them changes the row of another, so each is found as listed. -/
theorem forceAllOffline_runOn {rows : List DriverRow} {listed : List Driver}
    (hlisted : List.Forall₂ (fun row d => row.read = .ok d) rows listed)
    (hs : w.store.Lawful)
    (hrows : ∀ row ∈ rows, row ∈ w.store.drivers ∧ row.isStale cutoff = true)
    (hids : (rows.map (·.id)).Nodup) (report : SweepReport) :
    (forceAllOffline cutoff at_ listed report).runOn w =
      (.ok { report with offlined := report.offlined + listed.length }, { w with
        store := w.store.retire at_ ((rows.map (·.id)).contains ·.id)
        index := forgotten w.index (rows.map (·.id)) }) := by
  induction hlisted generalizing w report with
  | nil =>
      have hsame : w.store.retire at_
          ((([] : List DriverRow).map (·.id)).contains ·.id) = w.store :=
        Store.retire_none fun _ _ => rfl
      rw [hsame]
      rfl
  | @cons row d rest listed hread _ ih =>
      obtain ⟨⟨hrow, hstale⟩, hothers⟩ := List.forall_mem_cons.1 hrows
      rw [List.map_cons, List.nodup_cons] at hids
      have hforce := forceOffline_runOn hs hrow hread hstale at_
      let next : World σ := { w with
        store := w.store.retire at_ (·.id = row.id)
        index := (DriverIndex.remove row.id w.index).2 }
      have hkept : ∀ other ∈ rest, other ∈ next.store.drivers ∧
          other.isStale cutoff = true := by
        intro other hother
        obtain ⟨hmem, hstale⟩ := hothers other hother
        have hne : other.id ≠ row.id :=
          fun hid => hids.1 (hid ▸ List.mem_map_of_mem hother)
        exact ⟨List.mem_map.2 ⟨other, hmem, if_neg (by simpa using hne)⟩,
          hstale⟩
      have hrest :=
        ih (w := next) (hs.retire at_ _) hkept hids.2 (report.count (.ok true))
      show (do
        let result ← outcome (forceOffline d cutoff at_)
        forceAllOffline cutoff at_ listed (report.count result)).runOn w = _
      rw [runOn_bind, runOn_outcome, hforce]
      refine hrest.trans ?_
      rw [List.map_cons, ← Store.retire_retire]
      have hcount : report.offlined + 1 + listed.length =
          report.offlined + (listed.length + 1) := by
        omega
      simp only [SweepReport.count, List.length_cons, hcount]
      rfl

/-- A sweep takes all stale drivers offline, and has the index forget them in
some order. -/
theorem sweepAt_runOn (policy : TrackingPolicy)
    (hcutoff : at_.minusSeconds policy.staleAfterSeconds = cutoff)
    (hs : w.store.Lawful)
    (hread : ∀ row ∈ w.store.drivers,
      row.isStale cutoff = true → row.Readable) :
    ∃ ids : List DriverId,
      ids.Perm ((w.store.drivers.filter (·.isStale cutoff)).map (·.id)) ∧
      (sweepAt policy at_).runOn w =
        (.ok { examined := ids.length, offlined := ids.length, failed := 0 },
          { w with
          store := w.store.retire at_ (·.isStale cutoff)
          index := forgotten w.index ids }) := by
  obtain ⟨rows, listed, hlist, hperm, hlisted⟩ := Store.exists_listed hread
  have hrows : ∀ row ∈ rows, row ∈ w.store.drivers ∧
      row.isStale cutoff = true :=
    fun row hrow => List.mem_filter.1 (hperm.mem_iff.1 hrow)
  have hidsPerm := hperm.map (·.id)
  have hids : (rows.map (·.id)).Nodup :=
    hidsPerm.nodup_iff.2 (hs.driverIds.sublist (List.filter_sublist.map _))
  -- A row whose identifier is that of a stale one is that row.
  have hgone : ∀ row ∈ w.store.drivers,
      (rows.map (·.id)).contains row.id = row.isStale cutoff := by
    intro row hrow
    rw [Bool.eq_iff_iff, List.contains_iff_mem, List.mem_map]
    constructor
    · rintro ⟨other, hother, hid⟩
      obtain ⟨hmem, hstale⟩ := hrows other hother
      have hfound := hs.driver?_eq hmem
      rw [hid, hs.driver?_eq hrow] at hfound
      cases hfound
      exact hstale
    · intro hstale
      exact ⟨row, hperm.mem_iff.2 (List.mem_filter.2 ⟨hrow, hstale⟩), rfl⟩
  refine ⟨rows.map (·.id), hidsPerm, ?_⟩
  have hlength : (rows.map (·.id)).length = listed.length := by
    rw [List.length_map, hlisted.length_eq]
  rw [hlength, ← Store.retire_congr hgone]
  unfold sweepAt
  rw [hcutoff, runOn_bind_ok (query_eq_ok.2 ⟨hlist, rfl⟩)]
  rw [forceAllOffline_runOn hlisted hs hrows hids]
  simp

/-! ## An index that works -/

/-- What an index that works does when it is told to forget a driver: it goes on
working, and has no entry of that driver and the same entries of all others. -/
structure Forgets (σ : Type) [DriverIndex σ] (works : σ → Prop)
    (entry : σ → DriverId → Option IndexedDriver) : Prop where
  works_remove : ∀ i id, works i → works (DriverIndex.remove id i).2
  entry_remove : ∀ i id other, works i →
    entry (DriverIndex.remove id i).2 other =
      if other = id then none else entry i other

/-- An index in memory works as long as it was not made to fail. -/
theorem forgets_memoryIndex :
    Forgets MemoryIndex (fun i => i.failing = false) fun i id =>
      i.entries.lookup id where
  works_remove := by
    intro i id h
    rw [MemoryIndex.remove_index h]
    exact h
  entry_remove := by
    intro i id other h
    rw [MemoryIndex.remove_index h]
    show (Keyed.erase id i.entries).lookup other = _
    split
    · rename_i hsame
      rw [hsame, Keyed.lookup_erase_self]
    · rename_i hother
      rw [Keyed.lookup_erase_ne hother]

variable {works : σ → Prop} {entry : σ → DriverId → Option IndexedDriver}

/-- An index that was told to forget some drivers has no entry of theirs. -/
theorem Forgets.entry_forgotten (h : Forgets σ works entry) {index : σ}
    (hworks : works index) (ids : List DriverId) (id : DriverId) :
    works (forgotten index ids) ∧
      entry (forgotten index ids) id =
        if id ∈ ids then none else entry index id := by
  induction ids generalizing index with
  | nil => exact ⟨hworks, by simp [forgotten]⟩
  | cons first ids ih =>
      obtain ⟨hworks', hentry⟩ := ih (h.works_remove index first hworks)
      refine ⟨hworks', hentry.trans ?_⟩
      rw [h.entry_remove index first id hworks]
      by_cases hfirst : id = first <;> simp [hfirst]

/-! ## Sweeps -/

/-- What a sweep makes of a world in which nothing else happens meanwhile. -/
structure Swept (policy : TrackingPolicy) (at_ : Instant)
    (w next : World σ) : Prop where
  /-- The report counts the stale drivers. -/
  report :
    let stale :=
      w.store.drivers.filter
        (·.isStale (at_.minusSeconds policy.staleAfterSeconds))
    (sweepAt policy at_).runOn w =
      (.ok { examined := stale.length, offlined := stale.length, failed := 0 },
        next)
  /-- They are offline, and the index was told. -/
  next_eq : next = { w with
    store :=
      w.store.retire at_ (·.isStale (at_.minusSeconds policy.staleAfterSeconds))
    index := next.index }
  /-- Each of them is as if that driver alone had been taken offline. -/
  as_alone : ∀ row ∈ w.store.drivers,
    row.isStale (at_.minusSeconds policy.staleAfterSeconds) = true →
    ∃ (d : Driver) (gone : World σ),
      (goOffline row.id).runOn { w with now := at_ } = (.ok d, gone) ∧
      next.store.driver? row.id = gone.store.driver? row.id ∧
      ∀ works entry, Forgets σ works entry → works w.index →
        entry next.index row.id = entry gone.index row.id
  /-- A second sweep has nothing to do. -/
  again : (sweepAt policy at_).runOn next =
    (.ok { examined := 0, offlined := 0, failed := 0 }, next)

theorem exists_swept (policy : TrackingPolicy) (at_ : Instant)
    (hs : w.store.Lawful) (hread : ∀ row ∈ w.store.drivers,
      row.isStale (at_.minusSeconds policy.staleAfterSeconds) = true →
        row.Readable) :
    ∃ next, Swept policy at_ w next := by
  obtain ⟨ids, hids, hsweep⟩ := sweepAt_runOn policy rfl hs hread
  let cutoff := at_.minusSeconds policy.staleAfterSeconds
  let next : World σ := { w with
    store := w.store.retire at_ (·.isStale cutoff),
    index := forgotten w.index ids }
  refine ⟨next, ?_, rfl, ?_, ?_⟩
  · have hlength : ids.length =
        (w.store.drivers.filter (·.isStale cutoff)).length := by
      rw [hids.length_eq, List.length_map]
    rw [hlength] at hsweep
    exact hsweep
  · intro row hrow hstale
    obtain ⟨location, hlocation⟩ := hread row hrow hstale
    have hgone := goOffline_runOn (w := { w with now := at_ }) hs hrow
      (DriverRow.read_eq_ok.2 ⟨location, hlocation, rfl⟩)
    refine ⟨_, _, hgone, ?_, ?_⟩
    · dsimp only [next, cutoff]
      rw [Store.driver?_retire, Store.driver?_retire, hs.driver?_eq hrow]
      simp [hstale]
    · intro works entry hworks hindex
      have hmem : row.id ∈ ids :=
        hids.mem_iff.2 (List.mem_map_of_mem (List.mem_filter.2 ⟨hrow, hstale⟩))
      dsimp only [next]
      rw [(hworks.entry_forgotten hindex ids row.id).2, if_pos hmem,
        hworks.entry_remove _ _ _ hindex, if_pos rfl]
  · have hfresh : ∀ row ∈ next.store.drivers, row.isStale cutoff = false :=
      fun row hrow => Store.isStale_retire hrow
    obtain ⟨nobody, hnobody, hagain⟩ :=
      sweepAt_runOn (w := next) policy rfl (hs.retire at_ _)
        fun row hrow hstale => by
        rw [hfresh row hrow] at hstale
        cases hstale
    have hempty : next.store.drivers.filter (·.isStale cutoff) = [] :=
      List.filter_eq_nil_iff.2 fun row hrow => by simp [hfresh row hrow]
    rw [hempty, List.map_nil, List.perm_nil] at hnobody
    rw [hnobody, Store.retire_none hfresh] at hagain
    exact hagain

/-- The drivers after a sweep. -/
theorem Swept.driver?_eq {policy : TrackingPolicy} {next : World σ}
    (h : Swept policy at_ w next) (hs : w.store.Lawful)
    (hrow : row ∈ w.store.drivers) :
    next.store.driver? row.id = some
      (if row.isStale (at_.minusSeconds policy.staleAfterSeconds) then
        row.withStatus .offline at_ else row) := by
  rw [h.next_eq, Store.driver?_retire, hs.driver?_eq hrow]
  rfl

/-- Who is not offline goes offline exactly if the last ping is longer ago than
the policy allows.  Without a ping nobody does. -/
theorem Swept.offline_iff {policy : TrackingPolicy} {next : World σ}
    (h : Swept policy at_ w next) (hs : w.store.Lawful)
    (hseconds : (policy.staleAfterSeconds : Int) * 1000 ≤ Double.int64Max)
    (hrange : IsInt64 (at_.ms - policy.staleAfterSeconds * 1000))
    (hrow : row ∈ w.store.drivers) (hon : row.status ≠ .offline) :
    (next.store.driver? row.id).map (·.status) = some .offline ↔
      ∃ ping, row.lastPing = some ping ∧
        policy.staleAfterSeconds * 1000 < at_.ms - ping.ms := by
  have hstale : row.isStale (at_.minusSeconds policy.staleAfterSeconds) = true ↔
      _ :=
    DriverRow.isStale_iff hseconds hrange
  rw [h.driver?_eq hs hrow, Option.map_some, Option.some_inj]
  split
  · rename_i hgone
    exact iff_of_true rfl (hstale.1 hgone).2
  · rename_i hkept
    exact iff_of_false hon fun hping => hkept (hstale.2 ⟨hon, hping⟩)

/-- A sweep.  It lists the stale drivers exactly.  Whatever is written to the
store before it is the turn of a listed driver, taking that driver offline
succeeds or does not apply.  It applies if the status is still the listed one
and the last ping is still too old, and so never to a driver who has pinged
since; and it changes nothing but that driver's status and the time of the
change.

If nothing is written in between, the stale drivers are taken offline whatever
the index does, and each of them is left as going offline on their own would
leave them, in an index that works too.  Another sweep at the same time has
nothing to do. -/
theorem sweep_exact {s : Store} (hs : s.Lawful)
    (hread : ∀ row ∈ s.drivers, row.isStale cutoff = true → row.Readable)
    (at_ : Instant) :
    ∃ listed, s.staleDrivers cutoff = .ok listed ∧
      (listed.map (·.id)).Perm
        ((s.drivers.filter (·.isStale cutoff)).map (·.id)) ∧
      (∀ d ∈ listed, ∀ calls : List StoreCall,
        let t := (Session.run { store := s } calls).store
        ∃ applied, t.markOfflineIfStale (d.goOffline at_) d.status cutoff =
            .ok (applied, if applied then t.retire at_ (·.id = d.id) else t) ∧
          (applied = true ↔ ∃ row, t.driver? d.id = some row ∧
            row.status = d.status ∧
            row.pingedBefore cutoff = true) ∧
          ∀ row, t.driver? d.id = some row → row.pingedSince cutoff = true →
            applied = false) ∧
      ∀ (w : World σ) (policy : TrackingPolicy), w.store = s →
        at_.minusSeconds policy.staleAfterSeconds = cutoff →
        ∃ next : World σ, (sweepAt policy at_).runOn w =
            (.ok { examined := (s.drivers.filter (·.isStale cutoff)).length
                   offlined := (s.drivers.filter (·.isStale cutoff)).length
                   failed := 0 }, next) ∧
          next = { w with
            store := s.retire at_ (·.isStale cutoff), index := next.index } ∧
          (∀ row ∈ s.drivers, row.isStale cutoff = true →
            ∃ (d : Driver) (gone : World σ),
              (goOffline row.id).runOn { w with now := at_ } = (.ok d, gone) ∧
              next.store.driver? row.id = gone.store.driver? row.id ∧
              ∀ works entry, Forgets σ works entry → works w.index →
                entry next.index row.id = entry gone.index row.id) ∧
          (sweepAt policy at_).runOn next =
            (.ok { examined := 0, offlined := 0, failed := 0 }, next) := by
  obtain ⟨rows, listed, hlist, hperm, hlisted⟩ := Store.exists_listed hread
  refine ⟨listed, hlist,
    Store.map_id_of_read hlisted ▸ hperm.map (·.id), ?_, ?_⟩
  · intro d _ calls
    exact Session.markOfflineIfStale_run hs calls d cutoff at_
  · rintro w policy rfl rfl
    obtain ⟨next, hnext⟩ := exists_swept policy at_ hs hread
    exact ⟨next, hnext.report, hnext.next_eq, hnext.as_alone, hnext.again⟩

/-- In a world that the service has brought about nothing is in the way of a
sweep.  The stale drivers can be listed, those go offline whose last ping is
longer ago than the policy allows, and the rest stay as they are. -/
theorem exists_swept_of_reachable {setup : Setup} (hw : w.Reachable setup)
    (policy : TrackingPolicy) (at_ : Instant) :
    let cutoff := at_.minusSeconds policy.staleAfterSeconds
    (∃ listed, w.store.staleDrivers cutoff = .ok listed ∧
      (listed.map (·.id)).Perm
        ((w.store.drivers.filter (·.isStale cutoff)).map (·.id))) ∧
    ∃ next, Swept policy at_ w next ∧ ∀ row ∈ w.store.drivers,
      next.store.driver? row.id =
        some (if row.isStale cutoff then row.withStatus .offline at_
          else row) := by
  intro cutoff
  have hs := hw.sound.lawful
  have hread : ∀ row ∈ w.store.drivers,
      row.isStale cutoff = true → row.Readable :=
    fun row hrow _ => hw.sound.readable row hrow
  obtain ⟨rows, listed, hlist, hperm, hlisted⟩ := Store.exists_listed hread
  obtain ⟨next, hnext⟩ := exists_swept policy at_ hs hread
  exact ⟨⟨listed, hlist, Store.map_id_of_read hlisted ▸ hperm.map (·.id)⟩,
    next, hnext, fun row hrow => hnext.driver?_eq hs hrow⟩

namespace Example

open World.Example

/-- Dana is on the way to a ride and "e" waits.  Ten minutes after the last ping
of "f" these two are stale; "g" is offline by then, and "h" is on the way and
has never pinged. -/
def shift : List (Turn MemoryIndex) :=
  assigned ++ arrival "e" place inRange_place ⟨6⟩ ++
    arrival "f" place inRange_place ⟨10⟩ ++
    arrival "g" place inRange_place ⟨7⟩ ++
    [{ now := ⟨11⟩, call := .goOffline "g" }] ++
    [{ now := ⟨12⟩, call := .registerDriver { dana with id := "h" } },
      { now := ⟨13⟩, call := .setEnRoute "h" }]

/-- The drivers after the shift. -/
def working : World MemoryIndex := World.run {} fresh shift

/-- The store of the shift once "e" has pinged, just before the sweep. -/
def pinged : Store :=
  (Session.run { store := working.store }
    [.locateDriver "e" place ⟨600009⟩]).store

theorem sound_working : working.store.Sound :=
  World.sound_run Store.sound_empty _

theorem stale_working :
    working.store.drivers.map (fun row => (row.id, row.isStale ⟨10⟩)) =
    [("d", true), ("e", true), ("f", false), ("g", false), ("h", false)] := by
  decide +kernel

theorem listed_working :
    (working.store.drivers.filter (·.isStale ⟨10⟩)).map (·.id) =
      ["d", "e"] := by
  decide +kernel

/-- Dana's row is the same before and after the ping of "e". -/
theorem dana_working :
    (∀ row ∈ working.store.drivers, row.id = "d" → row.status = .enRoute) ∧
    ∃ row, pinged.driver? "d" = some row ∧ row.status = .enRoute ∧
      row.pingedBefore ⟨10⟩ = true := by
  have hrow : (pinged.driver? "d").map
      (fun row => (row.status, row.pingedBefore ⟨10⟩)) =
      some (.enRoute, true) := by
    decide +kernel
  obtain ⟨row, hfound, hsame⟩ := Option.map_eq_some_iff.1 hrow
  exact ⟨by decide +kernel, row, hfound, Prod.mk.inj hsame⟩

theorem late_pinged :
    ∃ row, pinged.driver? "e" = some row ∧ row.pingedSince ⟨10⟩ = true := by
  have hrow : (pinged.driver? "e").map (·.pingedSince ⟨10⟩) = some true := by
    decide +kernel
  exact Option.map_eq_some_iff.1 hrow

end Example

open Example in
/-- Of the five drivers of the shift two are stale.  Should "e" ping before
being marked, only Dana is marked; otherwise both go offline. -/
theorem sweep_exact_example :
    (⟨600010⟩ : Instant).ms - 600 * 1000 = 10 ∧
    working.store.drivers.map (fun row => (row.id, row.isStale ⟨10⟩)) =
      [("d", true), ("e", true), ("f", false), ("g", false), ("h", false)] ∧
    (∃ listed, working.store.staleDrivers ⟨10⟩ = .ok listed ∧
      (∃ d ∈ listed, d.id = "d" ∧
        pinged.markOfflineIfStale (d.goOffline ⟨600010⟩) d.status ⟨10⟩ =
        .ok (true, pinged.retire ⟨600010⟩ (·.id = "d"))) ∧
      ∃ e ∈ listed, e.id = "e" ∧
        pinged.markOfflineIfStale (e.goOffline ⟨600010⟩) e.status ⟨10⟩ =
        .ok (false, pinged)) ∧
    ∃ next : World MemoryIndex,
      (sweepAt {} ⟨600010⟩).runOn working =
        (.ok { examined := 2, offlined := 2, failed := 0 }, next) ∧
      next.store.drivers.map (fun row => (row.id, row.status)) =
        [("d", .offline), ("e", .offline), ("f", .available), ("g", .offline),
          ("h", .enRoute)] ∧
      (∃ (d : Driver) (gone : World MemoryIndex),
        (goOffline "d").runOn { working with now := ⟨600010⟩ } = (.ok d, gone) ∧
        next.store.driver? "d" = gone.store.driver? "d" ∧
        next.index.entries.lookup "d" = gone.index.entries.lookup "d") ∧
      (sweepAt {} ⟨600010⟩).runOn next =
        (.ok { examined := 0, offlined := 0, failed := 0 }, next) := by
  have hreadable : ∀ row ∈ working.store.drivers,
      row.isStale ⟨10⟩ = true → row.Readable :=
    fun row hrow _ => sound_working.readable row hrow
  obtain ⟨listed, hlist, hperm, hmarks, halone⟩ :=
    sweep_exact (σ := MemoryIndex) sound_working.lawful hreadable ⟨600010⟩
  rw [listed_working] at hperm
  obtain ⟨next, hsweep, hnext, hgone, hagain⟩ :=
    halone working {} rfl (by decide)
  have hcount : (working.store.drivers.filter (·.isStale ⟨10⟩)).length = 2 := by
    rw [← List.length_map (f := (·.id)), listed_working]
    rfl
  rw [hcount] at hsweep
  refine ⟨rfl, stale_working, ⟨listed, hlist, ?_, ?_⟩, next,
    hsweep, ?_, ?_, hagain⟩
  · obtain ⟨d, hd, hid⟩ :=
      List.mem_map.1 (hperm.mem_iff.2 (by simp : "d" ∈ ["d", "e"]))
    obtain ⟨row, hrow, -, hread⟩ := Store.exists_row_of_listed hlist hd
    obtain ⟨location, -, rfl⟩ := DriverRow.read_eq_ok.1 hread
    obtain ⟨hway, later, hlater, hstatus, hping⟩ := dana_working
    rw [← hid] at hlater
    obtain ⟨applied, hwrite, happlied, -⟩ :=
      hmarks _ hd [.locateDriver "e" World.Example.place ⟨600009⟩]
    rw [happlied.2 ⟨later, hlater, hstatus.trans (hway row hrow hid).symm,
      hping⟩, if_pos rfl, hid] at hwrite
    exact ⟨_, hd, hid, hwrite⟩
  · obtain ⟨e, he, hid⟩ :=
      List.mem_map.1 (hperm.mem_iff.2 (by simp : "e" ∈ ["d", "e"]))
    obtain ⟨later, hlater, hping⟩ := late_pinged
    rw [← hid] at hlater
    obtain ⟨applied, hwrite, -, hfresh⟩ :=
      hmarks e he [.locateDriver "e" World.Example.place ⟨600009⟩]
    rw [hfresh later hlater hping, if_neg Bool.false_ne_true] at hwrite
    exact ⟨e, he, hid, hwrite⟩
  · have hstore : next.store =
        working.store.retire ⟨600010⟩ (·.isStale ⟨10⟩) := by rw [hnext]
    rw [hstore]
    decide +kernel
  · have hworks : working.index.failing = false := by decide +kernel
    obtain ⟨row, hrow, hid⟩ :=
      List.mem_map.1 (listed_working ▸ List.mem_cons_self :
      "d" ∈ (working.store.drivers.filter (·.isStale ⟨10⟩)).map (·.id))
    obtain ⟨hmem, hold⟩ := List.mem_filter.1 hrow
    obtain ⟨d, gone, hrun, hstore, hindex⟩ := hgone row hmem hold
    have hentry := hindex _ _ forgets_memoryIndex hworks
    rw [hid] at hrun hstore hentry
    exact ⟨d, gone, hrun, hstore, hentry⟩

end Dispatch

end Ridehail
