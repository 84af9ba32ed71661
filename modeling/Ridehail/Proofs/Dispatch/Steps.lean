import Ridehail.Dispatch.Matching
import Ridehail.Proofs.Dispatch.Commits

/-!
# Steps that operations share

The parts that several operations are made of: storing a ping, a status or a
step of a ride, and freeing the driver of a ride that is over.

Freeing a driver reports no failure, so it has to be shown that none is lost
there. The driver is known, their record can be read, and it has a place,
without which the store would refuse to make the driver available.

## Main results

* `Dispatch.storePing_runOn`, `setDriverStatus_runOn` — what is left by the
  writes of a known driver.
* `Dispatch.releaseDriver_free`, `releaseDriver_keep` — the two outcomes of
  freeing a driver.
* `Dispatch.releaseDriver_released` — the driver of a ride that is over is
  freed, or was not busy.
-/

namespace Ridehail

namespace World

variable {σ : Type} {w : World σ} {id : DriverId}

/-- The driver of a ride that is about to end is known and has a place, and the
step of the ride leaves their row alone. -/
theorem ended_driver (hs : w.store.Sound) {old r : Ride} {s' : Store}
    (hold : w.store.findRide old.id = .ok (some old))
    (hdriver : old.driver = some id)
    (hwrite : w.store.advanceRide r old.status = .ok (true, s')) :
    ∃ row p, w.store.driver? id = some row ∧ row.PlacedAt p ∧
      s'.driver? = w.store.driver? := by
  obtain ⟨found, hfound, hread⟩ := Store.findRide_eq_some.1 hold
  obtain ⟨-, -, hsame, -⟩ := RideRow.read_eq_ok hread
  obtain ⟨row, p, hrow, hp⟩ :=
    hs.placed found (Store.mem_of_ride? hfound).1 id (hsame ▸ hdriver)
  obtain ⟨moved, -, -, -, rfl⟩ := Store.changeRide_applied hwrite
  exact ⟨row, p, hrow, hp, rfl⟩

end World

namespace Dispatch

variable {σ : Type} {w : World σ} {id : DriverId} {row : DriverRow}

/-! ## Steps of a ride -/

/-- The check of the driver passes for the driver of the ride. -/
theorem checkDriver_eq_ok {r : Ride} {id : DriverId} {next : World σ} :
    (checkDriver r id).runOn w = (.ok (), next) ↔
      r.driver = some id ∧ next = w := by
  unfold checkDriver
  split
  · rename_i hne
    simp [hne]
  · rename_i heq
    simp only [runOn_pure, Prod.mk.injEq, true_and]
    exact ⟨fun h => ⟨by simpa using heq, h.symm⟩, fun h => h.2.symm⟩

/-- A step of a ride is stored exactly if the write applies. -/
theorem storeStep_eq_ok {r : Ride} {previous : RideStatus} {next : World σ} :
    (storeStep r previous).runOn w = (.ok (), next) ↔
      ∃ s', w.store.advanceRide r previous = .ok (true, s') ∧
        next = { w with store := s' } := by
  unfold storeStep
  rw [bind_eq_ok]
  constructor
  · rintro ⟨applied, mid, hwrite, hrest⟩
    obtain ⟨s', h, rfl⟩ := write_eq_ok.1 hwrite
    cases applied with
    | false => cases hrest
    | true =>
        cases hrest
        exact ⟨s', h, rfl⟩
  · rintro ⟨s', h, rfl⟩
    exact ⟨true, _, write_eq_ok.2 ⟨s', h, rfl⟩, rfl⟩

/-! ## Estimates -/

/-- An estimate changes nothing. -/
theorem estimateMinutes_runOn (setup : Setup) (w : World σ)
    (start stop : GeoPoint) :
    ∃ minutes, (estimateMinutes setup start stop).runOn w = (.ok minutes, w) ∧
      setup.Estimates minutes := by
  unfold estimateMinutes
  rw [runOn_bind_ok (runOn_flag w dynamicEta), runOn_bind_ok (runOn_now w)]
  refine ⟨_, rfl, _, w.now, start, stop, ?_, rfl⟩
  split
  · exact .inl rfl
  · exact .inr rfl

/-! ## Writes of a driver -/

/-- A ping of a known driver from a point in range is stored. -/
theorem storePing_runOn (hrow : w.store.driver? id = some row) {p : GeoPoint}
    (hp : p.inRange = true) (at_ : Instant) :
    (storePing id p at_).runOn w =
      (.ok (), { w with store := w.store.putDriver (row.located p at_) }) := by
  have hpermitted := (row.placedAt_located hp at_).permitted
  have hwrite : w.store.locateDriver id p at_ =
      .ok (true, w.store.putDriver (row.located p at_)) :=
    Store.changeDriver_of_found hrow rfl hpermitted
  unfold storePing
  rw [runOn_bind_ok (write_eq_ok.2 ⟨_, hwrite, rfl⟩)]
  rfl

/-- The status of a known driver is stored if the one before is expected. -/
theorem setDriverStatus_runOn (hrow : w.store.driver? id = some row)
    (d : Driver) (hid : d.id = id) {expected : List DriverStatus}
    (hexpected : row.status ∈ expected)
    (hpermitted : (row.withStatus d.status d.updatedAt).permitted = true) :
    (write (·.setDriverStatus d expected)).runOn w =
      (.ok true, { w with
        store :=
          w.store.putDriver (row.withStatus d.status d.updatedAt) }) := by
  subst hid
  have hwrite : w.store.setDriverStatus d expected =
      .ok (true, w.store.putDriver (row.withStatus d.status d.updatedAt)) :=
    Store.changeDriver_of_found hrow
      (List.contains_iff_mem.2 hexpected) hpermitted
  exact write_eq_ok.2 ⟨_, hwrite, rfl⟩

/-- Publishing a ping publishes a movement, or nothing. -/
theorem publishPing_runOn (w : World σ) (d : Driver) (ping : Ping)
    (at_ : Instant) :
    ∃ pings : List LocationEvent, (publishPing d ping at_).runOn w =
      (.ok (), { w with log := w.log ++ pings.map .location }) := by
  unfold publishPing
  rw [runOn_bind_ok (runOn_flag w realTimeTracking)]
  split
  · exact ⟨[_], rfl⟩
  · refine ⟨[], ?_⟩
    rw [List.map_nil, List.append_nil]
    rfl

/-! ## Freeing a driver -/

variable [DriverIndex σ]

/-- A driver who may be freed becomes available, and the index is told so. -/
theorem releaseDriver_free {p : GeoPoint}
    {free : Driver → Except StateError Driver} {expected : List DriverStatus}
    {at_ : Instant} (hrow : w.store.driver? id = some row) (hp : row.PlacedAt p)
    (hfree : free (row.toDriver (some p)) =
      .ok ((row.toDriver (some p)).withStatus .available at_))
    (hexpected : row.status ∈ expected) :
    (releaseDriver id free expected).runOn w =
      (.ok (), { w with
        store := w.store.putDriver (row.withStatus .available at_)
        index := (DriverIndex.put w.now id p .available w.index).2 }) := by
  obtain ⟨hmem, rfl⟩ := Store.mem_of_driver? hrow
  have hfind := Store.findDriver_eq_some.2 ⟨row, hrow, hp.read_eq⟩
  let freed := (row.toDriver (some p)).withStatus .available at_
  have hset :=
    setDriverStatus_runOn hrow freed rfl hexpected
      (DriverRow.PlacedAt.permitted hp)
  unfold releaseDriver
  apply (runOn_bind_ok (runOn_outcome w _)).trans
  rw [runOn_bind_ok (driver_eq_ok.2 ⟨hfind, rfl⟩),
    runOn_bind_ok (transition_eq_ok.2 ⟨hfree, rfl⟩)]
  rw [runOn_bind_ok hset]
  rfl

theorem releaseDriver_keep {d : Driver}
    {free : Driver → Except StateError Driver} {expected : List DriverStatus}
    {cause : StateError} (hfind : w.store.findDriver id = .ok (some d))
    (hfree : free d = .error cause) :
    (releaseDriver id free expected).runOn w = (.ok (), w) := by
  unfold releaseDriver
  apply (runOn_bind_ok (runOn_outcome w _)).trans
  rw [runOn_bind_ok (driver_eq_ok.2 ⟨hfind, rfl⟩), hfree]
  rfl

/-- The driver of a ride that is over is freed, unless they were not busy. -/
theorem releaseDriver_released (hs : w.store.Sound) {old r : Ride} {s' : Store}
    (hold : w.store.findRide old.id = .ok (some old)) (hstep : old.StepsTo r)
    (hdriver : r.driver = some id) (hended : r.status.occupiesDriver = false)
    (hwrite : w.store.advanceRide r old.status = .ok (true, s'))
    {free : Driver → Except StateError Driver} {expected : List DriverStatus}
    (hfree :
      ∀ d, (d.status ∈ expected ∧
        free d = .ok (d.withStatus .available w.now)) ∨
      (d.status ≠ .busy ∧ ∃ cause, free d = .error cause)) :
    ∃ next, (releaseDriver id free expected).runOn { w with store := s' } =
      (.ok (), next) ∧ World.Released { w with store := s' } r next := by
  obtain ⟨row, p, hrow, hp, hsame⟩ :=
    World.ended_driver hs hold (hstep.driver_eq ▸ hdriver) hwrite
  obtain ⟨-, rfl⟩ := Store.mem_of_driver? hrow
  have hrow' : s'.driver? row.id = some row := by rw [hsame, hrow]
  rcases hfree (row.toDriver (some p)) with
    ⟨hexpected, hok⟩ | ⟨hidle, cause, hrefused⟩
  · exact ⟨_, releaseDriver_free (w := { w with
      store := s' }) hrow' hp hok hexpected,
      .freed row p hrow' hdriver hp hended⟩
  · have hfind : s'.findDriver row.id = .ok (some (row.toDriver (some p))) :=
      Store.findDriver_eq_some.2 ⟨row, hrow', hp.read_eq⟩
    exact ⟨_, releaseDriver_keep (w := { w with store := s' }) hfind hrefused,
      .kept row hrow' hdriver hidle⟩

end Dispatch

end Ridehail
