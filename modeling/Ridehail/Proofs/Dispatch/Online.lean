import Ridehail.Proofs.Dispatch.Steps

/-!
# Bringing a driver online

Going online is decided on the driver's own record: the driver needs a location,
the one that is given or one that is known, and a status other than busy or en
route.  If the record allows it, nothing that follows can refuse it, because the
record was read from the row that is written.  Rides are not asked for at all.

## Main results

* `Dispatch.goOnline_runOn` — when a driver is brought online, and what is left
  then.
* `Dispatch.goOnline_refused` — in all other cases nothing is changed.
-/

namespace Ridehail

/-- A driver is free to go online or is on the way. -/
theorem DriverStatus.off_or_on (status : DriverStatus) :
    (status = .offline ∨ status = .available) ∨ status = .busy ∨
      status = .enRoute := by
  cases status <;> decide

theorem DriverStatus.mem_all (status : DriverStatus) : status ∈ all := by
  cases status <;> decide

/-- A second change of a row replaces the first. -/
theorem Store.putDriver_putDriver (s : Store) {a b : DriverRow}
    (h : a.id = b.id) :
    (s.putDriver a).putDriver b = s.putDriver b := by
  unfold putDriver
  simp only [List.map_map, mk.injEq, and_true]
  apply List.map_congr_left
  intro other _
  show (if (if other.id = a.id then a else other).id = b.id then b else
    if other.id = a.id then a else other) = if other.id = b.id then b else other
  by_cases ha : other.id = a.id
  · rw [if_pos ha, if_pos h, if_pos (ha.trans h)]
  · rw [if_neg ha]

namespace Dispatch

variable {σ : Type} [DriverIndex σ] {w : World σ} {id : DriverId}
  {place : Option GeoPoint} {row : DriverRow}

omit [DriverIndex σ] in
/-- A ping and a status are two writes of one row, and the second sees the
first. -/
theorem setDriverStatus_located (hrow : w.store.driver? row.id = some row)
    {p : GeoPoint} (hp : p.inRange = true) (at_ : Instant) (d : Driver)
    (hid : d.id = row.id) :
    (write (·.setDriverStatus d [row.status])).runOn
        { w with store := w.store.putDriver (row.located p at_) } =
      (.ok true, { w with
        store := w.store.putDriver
          ((row.located p at_).withStatus d.status d.updatedAt) }) := by
  let located : World σ :=
    { w with store := w.store.putDriver (row.located p at_) }
  have hlocated : located.store.driver? row.id = some (row.located p at_) :=
    Store.driver?_putDriver_self hrow
  have hwrite := setDriverStatus_runOn (w := located) hlocated d hid
    (List.mem_singleton_self row.status)
    (DriverRow.PlacedAt.permitted (row.placedAt_located hp at_))
  have hput := w.store.putDriver_putDriver
    (show (row.located p at_).id =
      ((row.located p at_).withStatus d.status d.updatedAt).id from rfl)
  rw [hwrite]
  exact congrArg (fun store => (Except.ok true, { w with store := store })) hput

/-- A driver who is offline or available and has a location is brought
online. -/
theorem goOnline_runOn (hs : w.store.Sound)
    (hrow : w.store.driver? id = some row)
    (hplace : ∀ p ∈ place, p.inRange = true)
    (hlocated : place.isSome = true ∨ ∃ p, row.PlacedAt p)
    (hstatus : row.status = .offline ∨ row.status = .available) :
    ∃ (d : Driver) (pings : List LocationEvent), (goOnline id place).runOn w =
        (.ok d, { w with
          store :=
            w.store.putDriver
              ((row.locatedFrom place w.now).withStatus .available w.now)
          index := w.indexTold d
          log := w.log ++ pings.map Event.location }) ∧
      ((row.locatedFrom place w.now).withStatus .available w.now).Shows d ∧
      ∃ p, (row.locatedFrom place w.now).PlacedAt p := by
  obtain ⟨hmem, rfl⟩ := Store.mem_of_driver? hrow
  obtain ⟨location, hlocation⟩ := hs.readable row hmem
  have hread : row.read = .ok (row.toDriver location) :=
    DriverRow.read_eq_ok.2 ⟨location, hlocation, rfl⟩
  have hshows := DriverRow.shows_of_read hread
  have hfind := Store.findDriver_eq_some.2 ⟨row, hrow, hread⟩
  unfold goOnline
  dsimp only
  rw [runOn_bind_ok (driver_eq_ok.2 ⟨hfind, rfl⟩), runOn_bind_ok (runOn_now w)]
  cases place with
  | none =>
      obtain ⟨p, hp⟩ := hlocated.resolve_left (by decide)
      have hsome : location = some p := by
        rw [DriverRow.PlacedAt, hlocation] at hp
        exact Except.ok.inj hp
      subst hsome
      have htransition : (row.toDriver (some p)).goOnline w.now =
          .ok ((row.toDriver (some p)).withStatus .available w.now) :=
        Driver.goOnline_eq_ok.2 ⟨rfl, hstatus, rfl⟩
      have hset := setDriverStatus_runOn hrow
        ((row.toDriver (some p)).withStatus .available w.now)
        rfl (List.mem_singleton_self row.status)
        (DriverRow.PlacedAt.permitted hp)
      rw [locatedAt, runOn_bind_ok (transition_eq_ok.2 ⟨htransition, rfl⟩)]
      refine ⟨(row.toDriver (some p)).withStatus .available w.now, [], ?_,
        hshows.withStatus .available w.now, p, hp⟩
      rw [List.map_nil, List.append_nil]
      exact runOn_bind_ok hset
  | some p =>
      have hp : p.inRange = true := hplace p rfl
      have hplaced := row.placedAt_located hp w.now
      let d :=
        ((row.toDriver location).locate p w.now).withStatus .available w.now
      have htransition :
          ((row.toDriver location).locate p w.now).goOnline w.now = .ok d :=
        Driver.goOnline_eq_ok.2 ⟨rfl, hstatus, rfl⟩
      have hlocate := storePing_runOn hrow hp w.now
      have hset := setDriverStatus_located hrow hp w.now d rfl
      let online : World σ := { w with
        store := w.store.putDriver
          ((row.located p w.now).withStatus .available w.now) }
      obtain ⟨pings, hlog⟩ :=
        publishPing_runOn { online with
          index := online.indexTold d } d { location := p } w.now
      rw [locatedAt, runOn_bind_ok (transition_eq_ok.2 ⟨htransition, rfl⟩)]
      refine ⟨d, pings, ?_, (hshows.located hp w.now).withStatus .available
        w.now, _, hplaced⟩
      rw [runOn_bind_ok hlocate]
      apply (runOn_bind_ok hset).trans
      apply (runOn_bind_ok (runOn_indexDriver online d)).trans
      exact runOn_bind_ok hlog

/-- A driver who is busy or en route, or has no location and gives none, is not
brought online, and nothing is changed. -/
theorem goOnline_refused (hs : w.store.Sound)
    (hrow : w.store.driver? id = some row)
    (h : (place.isSome = false ∧ ∀ p, ¬row.PlacedAt p) ∨ row.status = .busy ∨
      row.status = .enRoute) :
    ∃ cause, (goOnline id place).runOn w =
      (.error (.invalidState cause), w) := by
  obtain ⟨hmem, rfl⟩ := Store.mem_of_driver? hrow
  obtain ⟨location, hlocation⟩ := hs.readable row hmem
  have hfind :=
    Store.findDriver_eq_some.2 ⟨row, hrow,
      DriverRow.read_eq_ok.2 ⟨_, hlocation, rfl⟩⟩
  have hrefused : ∃ cause,
      (locatedAt (row.toDriver location) place w.now).goOnline w.now =
        .error cause := by
    cases honline : (locatedAt (row.toDriver location) place w.now).goOnline
        w.now with
    | error cause => exact ⟨cause, rfl⟩
    | ok d =>
        obtain ⟨hplaced, hstatus, -⟩ := Driver.goOnline_eq_ok.1 honline
        have hsame : (locatedAt (row.toDriver location) place w.now).status =
            row.status := by
          cases place <;> rfl
        rw [hsame] at hstatus
        rcases h with ⟨hnone, hnowhere⟩ | hbusy | hroute
        · cases place with
          | some p => cases hnone
          | none =>
              obtain ⟨p, hp⟩ := Option.isSome_iff_exists.1 hplaced
              have hplacedAt : row.PlacedAt p :=
                hlocation.trans (congrArg Except.ok hp)
              exact absurd hplacedAt (hnowhere p)
        · rw [hbusy] at hstatus
          rcases hstatus with h | h <;> cases h
        · rw [hroute] at hstatus
          rcases hstatus with h | h <;> cases h
  obtain ⟨cause, hcause⟩ := hrefused
  refine ⟨cause, ?_⟩
  unfold goOnline
  dsimp only
  rw [runOn_bind_ok (driver_eq_ok.2 ⟨hfind, rfl⟩),
    runOn_bind_ok (runOn_now w), hcause]
  rfl

theorem goOnline_unknown (hrow : w.store.driver? id = none) :
    (goOnline id place).runOn w = (.error (.notFound (.driver id)), w) := by
  have hfind : w.store.findDriver id = .ok none := by
    rw [Store.findDriver, hrow]
  have hdriver : (driver id).runOn w =
      (.error (.notFound (.driver id)), w) := by
    rw [runOn_driver, hfind]
  exact runOn_bind_error hdriver

/-- Nothing is changed, or a driver who was offline or available and now has a
place is brought online. -/
theorem goOnline_refused_or_ok (hs : w.store.Sound) (id : DriverId)
    (hplace : ∀ p ∈ place, p.inRange = true) :
    (∃ e, (goOnline id place).runOn w = (.error e, w)) ∨
      ∃ row, w.store.driver? id = some row ∧
        (row.status = .offline ∨ row.status = .available) ∧
        ∃ (d : Driver) (pings : List LocationEvent),
          (goOnline id place).runOn w =
          (.ok d, { w with
            store :=
              w.store.putDriver
                ((row.locatedFrom place w.now).withStatus .available w.now)
            index := w.indexTold d
            log := w.log ++ pings.map Event.location }) ∧
        ((row.locatedFrom place w.now).withStatus .available w.now).Shows d ∧
        ∃ p, (row.locatedFrom place w.now).PlacedAt p := by
  cases hrow : w.store.driver? id with
  | none => exact .inl ⟨_, goOnline_unknown hrow⟩
  | some row =>
      by_cases hstatus : row.status = .offline ∨ row.status = .available
      · by_cases hlocated : place.isSome = true ∨ ∃ p, row.PlacedAt p
        · exact .inr ⟨row, rfl, hstatus,
            goOnline_runOn hs hrow hplace hlocated hstatus⟩
        · rw [not_or, Bool.not_eq_true, not_exists] at hlocated
          obtain ⟨cause, hrun⟩ := goOnline_refused hs hrow (.inl hlocated)
          exact .inl ⟨_, hrun⟩
      · have hbusy := row.status.off_or_on.resolve_left hstatus
        obtain ⟨cause, hrun⟩ := goOnline_refused hs hrow (.inr hbusy)
        exact .inl ⟨_, hrun⟩

end Dispatch

end Ridehail
