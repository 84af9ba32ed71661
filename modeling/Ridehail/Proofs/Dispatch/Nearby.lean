import Mathlib.Data.List.Perm.Basic
import Ridehail.Dispatch.Tracking
import Ridehail.Proofs.Dispatch.Fit
import Ridehail.Proofs.Dispatch.Mirror
import Ridehail.Proofs.Double.Order

/-!
# Who is found near a point

A search asks the store for the available drivers in a box who pinged lately,
and keeps those within the radius, nearest first.  The store answers with fifty
drivers at most, and it takes those who pinged last, wherever in the box they
are.  The box has corners that the circle does not reach, and so drivers whom
nobody asked for may take the places of drivers who are near.

What is found is therefore nearest among those whom the store has answered with.
It is nearest among all exactly if nobody within the radius was left out by the
store but for drivers who are no nearer than the fifty that are found.  A row
that fifty others have pinged after is left out, and this is how a crowd in a
corner hides a driver in the middle.

A search never fails, whatever the store holds: the box reaches no farther than
coordinates do, and a row in it can be read.

## Main results

* `GeoBox.inRange_of_holds` — what lies in a box has coordinates in range.
* `Store.exists_availableDrivers_around` — the drivers in a box can be read.
* `Store.not_mem_take_latest` — who is left out by the store.
* `Dispatch.nearbyDrivers_nearest` — what is found, and when it is nearest.
* `Dispatch.nearbyDrivers_misses_nearest` — a search that misses the nearest
  driver.
-/

namespace Ridehail

/-! ## Boxes -/

namespace GeoBox

variable {center : GeoPoint} {radiusKm lat lng : Float}

theorem holds_eq_true {box : GeoBox} : box.holds lat lng = true ↔
    ((box.minLat ≤ lat ∧ lat ≤ box.maxLat) ∧ box.minLng ≤ lng) ∧
      lng ≤ box.maxLng := by
  simp only [holds, Bool.and_eq_true, decide_eq_true_eq]

/-- No box reaches beyond the poles or the antimeridian. -/
theorem bounds_of_holds (h : (around center radiusKm).holds lat lng = true) :
    (-90.0 ≤ lat ∧ lat ≤ 90.0) ∧ (-180.0 ≤ lng ∧ lng ≤ 180.0) := by
  have hlow : (-90.0 : Float) ≤ -90.0 := by decide
  have hhigh : (90.0 : Float) ≤ 90.0 := by decide
  unfold around at h
  dsimp only at h
  split at h
  · obtain ⟨⟨⟨hminLat, hmaxLat⟩, hminLng⟩, hmaxLng⟩ := holds_eq_true.1 h
    exact ⟨⟨Double.le_trans (Double.le_larger hlow) hminLat,
      Double.le_trans hmaxLat (Double.smaller_le hhigh)⟩, hminLng, hmaxLng⟩
  · rename_i hinside
    obtain ⟨⟨⟨hminLat, hmaxLat⟩, hminLng⟩, hmaxLng⟩ := holds_eq_true.1 h
    simp only [Bool.or_eq_true, decide_eq_true_eq, not_or] at hinside
    obtain ⟨⟨⟨hwest, heast⟩, -⟩, -⟩ := hinside
    refine ⟨⟨Double.le_trans (Double.le_larger hlow) hminLat,
      Double.le_trans hmaxLat (Double.smaller_le hhigh)⟩, ?_, ?_⟩
    · exact Double.le_trans
        (Double.le_of_not_lt (Double.isNaN_of_le hminLng).1 (by decide) hwest)
        hminLng
    · exact Double.le_trans hmaxLng
        (Double.le_of_not_lt (by decide) (Double.isNaN_of_le hmaxLng).2 heast)

/-- What lies in a box is a point. -/
theorem inRange_of_holds (h : (around center radiusKm).holds lat lng = true) :
    (⟨lat, lng⟩ : GeoPoint).inRange = true := by
  obtain ⟨⟨hsouth, hnorth⟩, hwest, heast⟩ := bounds_of_holds h
  have hlat := Double.isFinite_of_between (by decide) (by decide) hsouth hnorth
  have hlng := Double.isFinite_of_between (by decide) (by decide) hwest heast
  simp only [GeoPoint.inRange, GeoPoint.within, Bool.and_eq_true,
    decide_eq_true_eq]
  exact ⟨⟨⟨hlat, hsouth⟩, hnorth⟩, ⟨hlng, hwest⟩, heast⟩

end GeoBox

/-- A row in a box has a place there. -/
theorem DriverRow.exists_placedAt_of_inside {row : DriverRow}
    {center : GeoPoint} {radiusKm : Float}
    (h : row.inside (GeoBox.around center radiusKm) = true) :
    ∃ p, row.PlacedAt p := by
  unfold inside at h
  split at h
  · rename_i lat lng hlat hlng
    have hmake :=
      (GeoPoint.make_eq_ok_iff lat lng ⟨lat, lng⟩).2
        ⟨rfl, GeoBox.inRange_of_holds h⟩
    refine ⟨⟨lat, lng⟩, ?_⟩
    rw [PlacedAt, hlat, hlng, pointOfColumns, hmake]
    rfl
  · cases h

/-! ## What the store answers with -/

namespace Store

variable {s : Store}

/-- A ping is later than another one, or as late and of no greater
identifier. -/
def laterPing (a b : Instant × DriverId) : Bool :=
  b.1 < a.1 || (a.1 = b.1 && !(b.2 < a.2))

theorem laterPing_iff {a b : Instant × DriverId} :
    laterPing a b = true ↔ b.1.ms < a.1.ms ∨ a.1.ms = b.1.ms ∧ a.2 ≤ b.2 := by
  have hequal : a.1 = b.1 ↔ a.1.ms = b.1.ms :=
    ⟨congrArg Instant.ms, fun h => congrArg Instant.mk h⟩
  simp only [laterPing, Bool.or_eq_true, Bool.and_eq_true, Bool.not_eq_true',
    decide_eq_true_eq, decide_eq_false_iff_not, String.not_lt, hequal]
  rfl

theorem laterPing_trans (a b c : Instant × DriverId)
    (hab : laterPing a b = true) (hbc : laterPing b c = true) :
    laterPing a c = true := by
  rw [laterPing_iff] at hab hbc ⊢
  rcases hab with hab | ⟨hab, hid⟩
  · rcases hbc with hbc | ⟨hbc, -⟩ <;> left <;> omega
  · rcases hbc with hbc | ⟨hbc, hid'⟩
    · left
      omega
    · exact .inr ⟨hab.trans hbc, String.le_trans hid hid'⟩

theorem laterPing_total (a b : Instant × DriverId) :
    (laterPing a b || laterPing b a) = true := by
  rw [Bool.or_eq_true, laterPing_iff, laterPing_iff]
  rcases Int.lt_trichotomy a.1.ms b.1.ms with h | h | h
  · exact .inr (.inl h)
  · exact (String.le_total a.2 b.2).imp (fun hle => .inr ⟨h, hle⟩)
      fun hle => .inr ⟨h.symm, hle⟩
  · exact .inl (.inl h)

/-- Rows with pings are sorted by them.  A row without one would fit in
anywhere. -/
theorem pairwise_latestPingFirst {rows : List DriverRow}
    (hpings : ∀ row ∈ rows, row.lastPing.isSome = true) :
    (rows.mergeSort latestPingFirst).Pairwise fun a b =>
      latestPingFirst a b = true := by
  have hsame : ∀ a ∈ rows, ∀ b ∈ rows, latestPingFirst a b =
      laterPing (a.lastPing.getD ⟨0⟩, a.id) (b.lastPing.getD ⟨0⟩, b.id) := by
    intro a ha b hb
    obtain ⟨s, hs⟩ := Option.isSome_iff_exists.1 (hpings a ha)
    obtain ⟨t, ht⟩ := Option.isSome_iff_exists.1 (hpings b hb)
    rw [latestPingFirst, hs, ht]
    rfl
  have hsorted := List.pairwise_mergeSort laterPing_trans laterPing_total
    (rows.map fun row => (row.lastPing.getD ⟨0⟩, row.id))
  rw [← List.map_mergeSort hsame, List.pairwise_map] at hsorted
  refine hsorted.imp_of_mem fun {a b} ha hb h => ?_
  rw [hsame a (List.mem_mergeSort.1 ha) b (List.mem_mergeSort.1 hb)]
  exact h

/-- A row that others have pinged after is not among the latest if there are
enough of them. -/
theorem not_mem_take_latest {rows : List DriverRow}
    (hpings : ∀ row ∈ rows, row.lastPing.isSome = true) {row : DriverRow}
    (hself : latestPingFirst row row = true) {count : Nat}
    (henough : count ≤ rows.countP fun other => !latestPingFirst row other) :
    row ∉ (rows.mergeSort latestPingFirst).take count := by
  intro hmem
  let after (other : DriverRow) : Bool := !latestPingFirst row other
  let latest := rows.mergeSort latestPingFirst
  have hsorted : (latest.take count ++ latest.drop count).Pairwise fun a b =>
      latestPingFirst a b = true := by
    rw [List.take_append_drop]
    exact pairwise_latestPingFirst hpings
  have hdropped : (latest.drop count).countP after = 0 := by
    rw [List.countP_eq_zero]
    intro other hother hafter
    have hrow := (List.pairwise_append.1 hsorted).2.2 row hmem other hother
    simp only [after, hrow] at hafter
    cases hafter
  have htaken : (latest.take count).countP after <
      (latest.take count).length := by
    refine Nat.lt_of_le_of_ne List.countP_le_length fun hall => ?_
    have hafter := List.countP_eq_length.1 hall row hmem
    simp only [after, hself] at hafter
    cases hafter
  have hcount : rows.countP after =
      (latest.take count).countP after + (latest.drop count).countP after := by
    rw [← List.countP_append, List.take_append_drop]
    exact ((List.mergeSort_perm rows latestPingFirst).countP_eq after).symm
  have hlength := List.length_take_le count latest
  have henough' : count ≤ rows.countP after := henough
  omega

/-- The rows of the available drivers in a box who pinged at or after an
instant. -/
def around (s : Store) (box : GeoBox) (since : Instant) : List DriverRow :=
  s.drivers.filter fun row =>
    row.status = .available && row.inside box && row.pingedSince since

/-- The drivers of a box around a point can be read, up to any limit. -/
theorem exists_availableDrivers_around (s : Store) (center : GeoPoint)
    (radiusKm : Float) (since : Instant) (limit : Int) :
    ∃ drivers, s.availableDrivers (GeoBox.around center radiusKm) since limit =
      .ok drivers ∧ List.Forall₂ (fun row d => row.read = .ok d)
        (limited limit
          ((s.around (GeoBox.around center radiusKm) since).mergeSort
            latestPingFirst))
        drivers := by
  have hread : ∀ row ∈ limited limit
      ((s.around (GeoBox.around center radiusKm) since).mergeSort
        latestPingFirst),
      ∃ d, row.read = .ok d := by
    intro row hrow
    have hmem := List.mem_mergeSort.1 (mem_of_mem_limited hrow)
    have hmeets := (List.mem_filter.1 hmem).2
    simp only [Bool.and_eq_true] at hmeets
    obtain ⟨p, hp⟩ := DriverRow.exists_placedAt_of_inside hmeets.1.2
    exact ⟨_, hp.read_eq⟩
  obtain ⟨drivers, hdrivers⟩ := exists_mapM_ok hread
  exact ⟨drivers, hdrivers, forall₂_of_mapM hdrivers⟩

end Store

/-! ## What is found -/

/-- One driver is no farther than another. -/
def NearbyDriver.NoFarther (a b : NearbyDriver) : Prop :=
  Double.totalLe a.distanceKm b.distanceKm = true

/-- Some of the drivers who are near: `count` of them, or everyone if there are
no more, sorted by distance and no farther than the others. -/
structure Nearest (count : Nat)
    (found everyone : List NearbyDriver) : Prop where
  sorted : found.Pairwise NearbyDriver.NoFarther
  length_eq : found.length = min count everyone.length
  others : ∃ rest, (found ++ rest).Perm everyone ∧
    ∀ a ∈ found, ∀ b ∈ rest, a.NoFarther b

/-- Some of the drivers who are near are nearest exactly if leaving out the
others needs the reason that there are enough without them and that they are no
nearer. -/
theorem nearest_iff {count : Nat} {found missed everyone : List NearbyDriver}
    (hsorted : found.Pairwise NearbyDriver.NoFarther)
    (hcount : found.length ≤ count) (hperm : (found ++ missed).Perm everyone) :
    Nearest count found everyone ↔
      ∀ b ∈ missed, found.length = count ∧ ∀ a ∈ found, a.NoFarther b := by
  have hlength := hperm.length_eq
  rw [List.length_append] at hlength
  constructor
  · rintro ⟨-, hmost, rest, hrest, hfarther⟩ b hb
    have hsame : rest.Perm missed :=
      (List.perm_append_left_iff found).1 (hrest.trans hperm.symm)
    have hpos := List.length_pos_of_mem hb
    exact ⟨by omega, fun a ha => hfarther a ha b (hsame.mem_iff.2 hb)⟩
  · intro hmissed
    refine ⟨hsorted, ?_, missed, hperm, fun a ha b hb => (hmissed b hb).2 a ha⟩
    cases missed with
    | nil =>
        rw [List.length_nil] at hlength
        omega
    | cons b rest =>
        have henough := (hmissed b List.mem_cons_self).1
        omega

/-- The nearest of two drivers, of whom the second is nearer. -/
theorem Nearest.eq_pair {count : Nat} {a b : NearbyDriver}
    {found : List NearbyDriver} (h : Nearest count found [a, b])
    (hcount : 2 ≤ count) (hnearer : ¬a.NoFarther b) :
    found = [b, a] := by
  obtain ⟨rest, hperm, -⟩ := h.others
  have hlength : found.length = 2 := h.length_eq.trans (Nat.min_eq_right hcount)
  have hnobody : rest = [] := by
    have hall := hperm.length_eq
    rw [List.length_append, hlength] at hall
    exact List.length_eq_zero_iff.1 (Nat.add_left_cancel hall)
  rw [hnobody, List.append_nil] at hperm
  have hle : b.NoFarther a := by
    have htotal := Double.totalLe_total a.distanceKm b.distanceKm
    rw [Bool.or_eq_true] at htotal
    exact htotal.resolve_left hnearer
  refine List.Perm.eq_of_pairwise ?_ h.sorted (List.pairwise_pair.2 hle)
    (hperm.trans (.swap b a []))
  intro c d hc hd hcd hdc
  have hc := hperm.mem_iff.1 hc
  simp only [List.mem_cons, List.not_mem_nil, or_false] at hc hd
  rcases hc with rfl | rfl <;> rcases hd with rfl | rfl
  · exact absurd hcd hnearer
  · rfl
  · rfl
  · exact absurd hdc hnearer

namespace Dispatch

variable {σ : Type} {p : GeoPoint} {radiusKm : Float}

/-- What the row of a driver says to a search: the driver, if within the
radius. -/
def nearbyOf (p : GeoPoint) (radiusKm : Float) (row : DriverRow) :
    Option NearbyDriver :=
  row.read.toOption.bind (nearbyTo p radiusKm)

theorem filterMap_nearbyTo {rows : List DriverRow} {drivers : List Driver}
    (h : List.Forall₂ (fun row d => row.read = .ok d) rows drivers) :
    drivers.filterMap (nearbyTo p radiusKm) =
      rows.filterMap (nearbyOf p radiusKm) := by
  induction h with
  | nil => rfl
  | cons hread _ ih =>
      rw [List.filterMap_cons, List.filterMap_cons, nearbyOf, hread, ih]
      rfl

theorem pairwise_nearestOf (p : GeoPoint) (radiusKm : Float)
    (drivers : List Driver) :
    (nearestOf p radiusKm drivers).Pairwise NearbyDriver.NoFarther := by
  have htrans (a b c : NearbyDriver)
      (hab : Double.totalLe a.distanceKm b.distanceKm = true)
      (hbc : Double.totalLe b.distanceKm c.distanceKm = true) :
      Double.totalLe a.distanceKm c.distanceKm = true :=
        Double.totalLe_trans hab hbc
  have htotal (a b : NearbyDriver) :
      (Double.totalLe a.distanceKm b.distanceKm ||
      Double.totalLe b.distanceKm a.distanceKm) = true :=
        Double.totalLe_total _ _
  exact List.pairwise_mergeSort htrans htotal _

/-- A search succeeds, and finds those within the radius among the fifty who
pinged last. -/
theorem nearbyDrivers_runOn (w : World σ) (p : GeoPoint)
    (hfinite : radiusKm.isFinite = true) (hpositive : ¬radiusKm ≤ 0.0) :
    let around := w.store.around (GeoBox.around p radiusKm)
      (w.now.minusSeconds nearbyRecency)
    ∃ found, (nearbyDrivers p radiusKm).runOn w = (.ok found, w) ∧
      found.Pairwise NearbyDriver.NoFarther ∧
      found.Perm (((around.mergeSort Store.latestPingFirst).take 50).filterMap
        (nearbyOf p radiusKm)) := by
  intro around
  obtain ⟨drivers, hdrivers, hread⟩ :=
    w.store.exists_availableDrivers_around p radiusKm
    (w.now.minusSeconds nearbyRecency) nearbyLimit
  refine ⟨nearestOf p radiusKm drivers, ?_,
    pairwise_nearestOf p radiusKm drivers, ?_⟩
  · have hradius : (!radiusKm.isFinite || decide (radiusKm ≤ 0.0)) = false := by
      rw [hfinite, decide_eq_false hpositive]
      rfl
    unfold nearbyDrivers
    rw [hradius, if_neg Bool.false_ne_true]
    rw [runOn_bind_ok (runOn_now w),
      runOn_bind_ok (query_eq_ok.2 ⟨hdrivers, rfl⟩)]
    rfl
  · have hsame : drivers.filterMap (nearbyTo p radiusKm) =
        ((around.mergeSort Store.latestPingFirst).take 50).filterMap
          (nearbyOf p radiusKm) :=
      filterMap_nearbyTo hread
    exact (List.mergeSort_perm _ _).trans (hsame ▸ .refl _)

/-- What is found among the drivers near a point.  The search succeeds and
changes nothing.  It finds the drivers within the radius among the fifty in the
box who pinged last, nearest first.  These are the nearest of all who are
available, in the box, have pinged lately and are within the radius, exactly if
those who were left out leave fifty who are no farther; so they are if there are
no more than fifty in the box. -/
theorem nearbyDrivers_nearest (w : World σ) (p : GeoPoint)
    (hfinite : radiusKm.isFinite = true) (hpositive : ¬radiusKm ≤ 0.0) :
    let around := w.store.around (GeoBox.around p radiusKm)
      (w.now.minusSeconds nearbyRecency)
    let latest := around.mergeSort Store.latestPingFirst
    let everyone := around.filterMap (nearbyOf p radiusKm)
    let missed := (latest.drop 50).filterMap (nearbyOf p radiusKm)
    ∃ found, (nearbyDrivers p radiusKm).runOn w = (.ok found, w) ∧
      found.Pairwise NearbyDriver.NoFarther ∧
      found.Perm ((latest.take 50).filterMap (nearbyOf p radiusKm)) ∧
      (Nearest 50 found everyone ↔
        ∀ b ∈ missed, found.length = 50 ∧ ∀ a ∈ found, a.NoFarther b) ∧
      (around.length ≤ 50 → Nearest 50 found everyone) := by
  intro around latest everyone missed
  obtain ⟨found, hrun, hsorted, hperm⟩ :=
    nearbyDrivers_runOn w p hfinite hpositive
  have hall : (found ++ missed).Perm everyone := by
    refine (hperm.append_right missed).trans ?_
    rw [← List.filterMap_append, List.take_append_drop]
    exact (List.mergeSort_perm around Store.latestPingFirst).filterMap _
  have hcount : found.length ≤ 50 := by
    rw [hperm.length_eq]
    exact (List.length_filterMap_le _ _).trans (List.length_take_le 50 latest)
  have hiff := nearest_iff hsorted hcount hall
  refine ⟨found, hrun, hsorted, hperm, hiff, ?_⟩
  -- With fifty at most nobody is left out.
  intro hfew
  refine hiff.2 fun b hb => ?_
  have hnobody : latest.drop 50 = [] := by
    rw [List.drop_eq_nil_iff,
      (List.mergeSort_perm around Store.latestPingFirst).length_eq]
    exact hfew
  have hnone : missed = [] := by
    show (latest.drop 50).filterMap (nearbyOf p radiusKm) = []
    rw [hnobody, List.filterMap_nil]
  rw [hnone] at hb
  cases hb

/-! ## Two searches

Drivers wait in a square, a block from it, in a corner of the box around it, and
uptown.  Sines and cosines are not evaluated here, so that the places lie as
they do is taken as given: only those uptown are outside the box, and of the
others only those in the corner are outside the circle.
-/

namespace Example

open World.Example (arrival)

/-- Where the searches are made. -/
def square : GeoPoint := ⟨40.7589, -73.9851⟩

/-- A block from the square. -/
def block : GeoPoint := ⟨40.7600, -73.9851⟩

/-- A corner of the box around the square. -/
def corner : GeoPoint := ⟨40.7767, -73.9616⟩

/-- Far to the north of the square. -/
def uptown : GeoPoint := ⟨40.8116, -73.9465⟩

/-- The places lie as on the map. -/
structure Surveyed : Prop where
  inside : ∀ p ∈ [square, block, corner],
    (GeoBox.around square 2.0).contains p = true
  outside : (GeoBox.around square 2.0).contains uptown = false
  square_near : haversineKm square square ≤ 2.0
  block_near : haversineKm square block ≤ 2.0
  block_farther :
    ¬Double.totalLe (haversineKm square block) (haversineKm square square) =
      true
  corner_far : ¬haversineKm square corner ≤ 2.0

/-- The row of a driver who has waited since arriving. -/
def waiting (id : DriverId) (p : GeoPoint) (at_ : Instant) : DriverRow :=
  DriverRow.ofDriver
    (((Driver.register id id at_).locate p at_).withStatus .available at_)

variable (id : DriverId) (at_ : Instant)

theorem columns_waiting (hp : p ∈ [square, block, corner, uptown]) :
    (waiting id p at_).lat = some p.lat ∧ (waiting id p at_).lng = some p.lng ∧
      pointOfColumns (some p.lat) (some p.lng) = .ok (some p) := by
  show coordinateColumn p.lat = _ ∧ coordinateColumn p.lng = _ ∧ _
  revert p
  decide

theorem placedAt_waiting (hp : p ∈ [square, block, corner, uptown]) :
    (waiting id p at_).PlacedAt p := by
  obtain ⟨hlat, hlng, hpoint⟩ := columns_waiting id at_ hp
  rw [DriverRow.PlacedAt, hlat, hlng, hpoint]

theorem inside_waiting (hp : p ∈ [square, block, corner, uptown])
    (box : GeoBox) :
    (waiting id p at_).inside box = box.contains p := by
  obtain ⟨hlat, hlng, -⟩ := columns_waiting id at_ hp
  rw [DriverRow.inside, hlat, hlng]
  rfl

theorem nearbyOf_waiting (hp : p ∈ [square, block, corner, uptown]) :
    nearbyOf square 2.0 (waiting id p at_) =
      if haversineKm square p ≤ 2.0 then
        some { driver := (waiting id p at_).toDriver (some p)
               distanceKm := haversineKm square p }
      else none := by
  rw [nearbyOf, (placedAt_waiting id at_ hp).read_eq]
  rfl

/-- Who waits is answered with by the store if in the box and not there for too
long. -/
theorem meets_waiting (hp : p ∈ [square, block, corner, uptown]) (box : GeoBox)
    (since : Instant) :
    ((waiting id p at_).status = .available && (waiting id p at_).inside box &&
      (waiting id p at_).pingedSince since) =
      (box.contains p && decide (since ≤ at_)) := by
  rw [inside_waiting id at_ hp]
  rfl

/-- Of the drivers in the square one has not pinged lately, one has gone offline
and one is waiting.  Others wait in the other places. -/
def evening : World MemoryIndex :=
  World.run {} World.Example.fresh
    (arrival "late" square (by decide) ⟨0⟩ ++
      arrival "off" square (by decide) ⟨1000⟩ ++
      [{ now := ⟨2000⟩, call := .goOffline "off" }] ++
      arrival "corner" corner (by decide) ⟨3000⟩ ++
      arrival "block" block (by decide) ⟨4000⟩ ++
      arrival "uptown" uptown (by decide) ⟨5000⟩ ++
      arrival "square" square (by decide) ⟨300001⟩)

theorem drivers_evening : evening.store.drivers =
    [waiting "late" square ⟨0⟩,
      (waiting "off" square ⟨1000⟩).withStatus .offline ⟨2000⟩,
      waiting "corner" corner ⟨3000⟩, waiting "block" block ⟨4000⟩,
      waiting "uptown" uptown ⟨5000⟩, waiting "square" square ⟨300001⟩] := by
  decide +kernel

theorem around_evening (survey : Surveyed) :
    evening.store.around (GeoBox.around square 2.0)
      (evening.now.minusSeconds nearbyRecency) =
      [waiting "corner" corner ⟨3000⟩, waiting "block" block ⟨4000⟩,
        waiting "square" square ⟨300001⟩] := by
  have hsince : evening.now.minusSeconds nearbyRecency = ⟨1⟩ := by
    decide +kernel
  let meets (row : DriverRow) : Bool :=
    row.status = .available && row.inside (GeoBox.around square 2.0) &&
      row.pingedSince ⟨1⟩
  have hinside (id : DriverId) {p : GeoPoint} (hp : p ∈ [square, block, corner])
      (at_ : Instant) :
      meets (waiting id p at_) = decide (⟨1⟩ ≤ at_) := by
    refine
      (meets_waiting id at_ (List.mem_append_left [uptown] hp) _ _).trans ?_
    rw [survey.inside p hp, Bool.true_and]
  have hlate : meets (waiting "late" square ⟨0⟩) = false :=
    hinside _ (by simp) _
  have hcorner : meets (waiting "corner" corner ⟨3000⟩) = true :=
    hinside _ (by simp) _
  have hblock : meets (waiting "block" block ⟨4000⟩) = true :=
    hinside _ (by simp) _
  have hsquare : meets (waiting "square" square ⟨300001⟩) = true :=
    hinside _ (by simp) _
  have hoff : meets ((waiting "off" square ⟨1000⟩).withStatus .offline ⟨2000⟩) =
      false := rfl
  have huptown : meets (waiting "uptown" uptown ⟨5000⟩) = false := by
    refine (meets_waiting _ _ (by simp) _ _).trans ?_
    rw [survey.outside, Bool.false_and]
  rw [hsince, Store.around, drivers_evening]
  show List.filter meets _ = _
  simp only [List.filter_cons, hlate, hoff, hcorner, hblock, huptown, hsquare,
    Bool.false_eq_true, if_false, if_true, List.filter_nil]

/-- One driver comes to the square, and a second later fifty come to the
corner. -/
def crowd : List (Turn MemoryIndex) :=
  arrival "d" square (by decide) ⟨0⟩ ++ (List.range' 1 50).flatMap fun n =>
    arrival ("x" ++ toString (n / 10) ++ toString (n % 10)) corner
      (by decide) ⟨1000⟩

/-- The world with fifty drivers in the corner. -/
def crowded : World MemoryIndex := World.run {} World.Example.fresh crowd

/-- The drivers of the world with fifty in the corner. -/
theorem drivers_crowded :
    ∃ ids : List DriverId, ids.length = 50 ∧ crowded.store.drivers =
    waiting "d" square ⟨0⟩ :: ids.map fun id => waiting id corner ⟨1000⟩ := by
  refine ⟨(List.range' 1 50).map fun n =>
    "x" ++ toString (n / 10) ++ toString (n % 10), ?_, ?_⟩
  · rw [List.length_map, List.length_range']
  · decide +kernel

end Example

open Example in
/-- In the evening six drivers are known.  Those in the square and a block from
it are found, in this order. -/
theorem nearbyDrivers_nearest_example :
    let around := evening.store.around (GeoBox.around square 2.0)
      (evening.now.minusSeconds nearbyRecency)
    evening.store.drivers.length = 6 ∧
      ∃ found, (nearbyDrivers square 2.0).runOn evening = (.ok found, evening) ∧
        Nearest 50 found (around.filterMap (nearbyOf square 2.0)) ∧
        (Surveyed → found.map (·.driver.id) = ["square", "block"]) := by
  intro around
  have hcount : evening.store.drivers.length = 6 := by rw [drivers_evening]; rfl
  have hfew : around.length ≤ 50 :=
    (List.length_filter_le _ _).trans (hcount ▸ by decide)
  have hfinite : (2.0 : Float).isFinite = true := by decide
  obtain ⟨found, hrun, -, -, -, hfound⟩ :=
    nearbyDrivers_nearest evening square hfinite (by decide)
  have hnearest : Nearest 50 found (around.filterMap (nearbyOf square 2.0)) :=
    hfound hfew
  refine ⟨hcount, found, hrun, hnearest, fun survey => ?_⟩
  have hcorner := nearbyOf_waiting "corner" ⟨3000⟩ (p := corner) (by simp)
  have hblock := nearbyOf_waiting "block" ⟨4000⟩ (p := block) (by simp)
  have hsquare := nearbyOf_waiting "square" ⟨300001⟩ (p := square) (by simp)
  rw [if_neg survey.corner_far] at hcorner
  rw [if_pos survey.block_near] at hblock
  rw [if_pos survey.square_near] at hsquare
  have haround : around = _ := around_evening survey
  rw [haround, List.filterMap_cons_none hcorner,
    List.filterMap_cons_some hblock, List.filterMap_cons_some hsquare,
    List.filterMap_nil] at hnearest
  rw [hnearest.eq_pair (by decide) survey.block_farther]
  rfl

open Example in
/-- The fifty in the corner take all places, so that nobody is found in the
square. -/
theorem nearbyDrivers_crowded (survey : Surveyed) :
    (nearbyDrivers square 2.0).runOn crowded = (.ok [], crowded) ∧
      ∃ n ∈ (crowded.store.around (GeoBox.around square 2.0)
        (crowded.now.minusSeconds nearbyRecency)).filterMap
        (nearbyOf square 2.0), n.driver.id = "d" := by
  obtain ⟨ids, hcount, hdrivers⟩ := drivers_crowded
  let rows :=
    waiting "d" square ⟨0⟩ :: ids.map fun id => waiting id corner ⟨1000⟩
  have hnow : crowded.now.minusSeconds nearbyRecency = ⟨-299000⟩ := by
    decide +kernel
  have haround : crowded.store.around (GeoBox.around square 2.0) ⟨-299000⟩ =
      rows := by
    rw [Store.around, hdrivers, List.filter_eq_self, List.forall_mem_cons,
      List.forall_mem_map]
    refine ⟨?_, fun id _ => ?_⟩
    · rw [meets_waiting _ _ (by simp), survey.inside square (by simp)]
      rfl
    · rw [meets_waiting _ _ (by simp), survey.inside corner (by simp)]
      rfl
  have hhidden : waiting "d" square ⟨0⟩ ∉
      (rows.mergeSort Store.latestPingFirst).take 50 := by
    apply Store.not_mem_take_latest
    · exact List.forall_mem_cons.2 ⟨rfl, List.forall_mem_map.2 fun _ _ => rfl⟩
    · decide
    · -- All those in the corner pinged later.
      have hlater :
          (ids.map fun id => waiting id corner ⟨1000⟩).countP (fun other =>
          !Store.latestPingFirst (waiting "d" square ⟨0⟩) other) = 50 := by
        rw [← hcount, ← List.length_map (fun id => waiting id corner ⟨1000⟩),
          List.countP_eq_length, List.forall_mem_map]
        exact fun _ _ => rfl
      rw [List.countP_cons, hlater]
      exact Nat.le_add_right _ _
  have hfinite : (2.0 : Float).isFinite = true := by decide
  obtain ⟨found, hrun, -, hperm⟩ :=
    nearbyDrivers_runOn crowded square hfinite (by decide)
  rw [hnow, haround] at hperm ⊢
  refine ⟨?_, ?_⟩
  · have hnobody : ((rows.mergeSort Store.latestPingFirst).take 50).filterMap
        (nearbyOf square 2.0) = [] := by
      refine List.filterMap_eq_nil_iff.2 fun row hrow => ?_
      rcases List.mem_cons.1 (List.mem_mergeSort.1 (List.mem_of_mem_take hrow))
        with rfl | hcorner
      · exact absurd hrow hhidden
      · obtain ⟨id, -, rfl⟩ := List.mem_map.1 hcorner
        rw [nearbyOf_waiting _ _ (by simp), if_neg survey.corner_far]
    rw [hnobody, List.perm_nil] at hperm
    rw [hrun, hperm]
  · have hfound := nearbyOf_waiting "d" ⟨0⟩ (p := square) (by simp)
    rw [if_pos survey.square_near] at hfound
    exact ⟨_, List.mem_filterMap.2 ⟨_, List.mem_cons_self, hfound⟩, rfl⟩

open Example in
/-- A search may miss the driver who is nearest, and does not find what the
drivers who are near would have it find. -/
theorem nearbyDrivers_misses_nearest :
    ¬(Surveyed ∧
      ∃ found, (nearbyDrivers square 2.0).runOn crowded = (.ok found, crowded) ∧
      Nearest 50 found ((crowded.store.around (GeoBox.around square 2.0)
        (crowded.now.minusSeconds nearbyRecency)).filterMap
        (nearbyOf square 2.0))) := by
  rintro ⟨survey, found, hrun, hnearest⟩
  obtain ⟨hnone, n, hn, -⟩ := nearbyDrivers_crowded survey
  obtain rfl : [] = found :=
    Except.ok.inj (Prod.mk.inj (hnone.symm.trans hrun)).1
  have hlength := hnearest.length_eq
  have hpos := List.length_pos_of_mem hn
  rw [List.length_nil] at hlength
  omega

end Dispatch

end Ridehail
