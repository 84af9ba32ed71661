import Ridehail.Index.Memory
import Ridehail.Proofs.Dispatch.Runs

/-!
# What the end of a ride does to its driver

A ride ends by its completion or by a cancellation.  Either way it is stored
first, and then its driver is freed, and nothing that goes wrong there is
reported.  So it has to be shown that nothing goes wrong: the driver is known,
their record can be read, and it has a place, without which the store would
refuse to make the driver available.

Cancelling frees a driver who is busy or en route.  Completing frees a driver
who is busy only, so that a driver who was sent on the way once more during the
trip is left en route.

## Main results

* `Dispatch.releaseDriver_free`, `releaseDriver_keep` — the two outcomes of
  freeing a driver.
* `Dispatch.completeRide_ok`, `cancelRide_ok` — what a ride's end consists of.
* `World.ride_end_frees_iff` — every end of a ride frees its driver, but for the
  completion of a ride whose driver is en route.
-/

namespace Ridehail

/-! ## Indices that know what they are told -/

/-- An index that has answered to be told of a driver knows that of the
driver. -/
def DriverIndex.Faithful (σ : Type) [DriverIndex σ] : Prop :=
  ∀ now driver p status (i : σ),
    (DriverIndex.put now driver p status i).1.isOk = true →
    (DriverIndex.find driver (DriverIndex.put now driver p status i).2).1 =
      .ok (some ⟨driver, p, status, now⟩)

/-- The index in memory knows what it is told unless it is failing. -/
theorem MemoryIndex.faithful : DriverIndex.Faithful MemoryIndex := by
  intro now driver p status i hok
  cases hfailing : i.failing with
  | true =>
    simp [DriverIndex.put, guarded, hfailing, Except.isOk, Except.toBool] at hok
  | false => simp [DriverIndex.put, DriverIndex.find, guarded, hfailing]

namespace Dispatch

variable {σ : Type} {w : World σ} {id : DriverId} {row : DriverRow}

variable [DriverIndex σ]

/-! ## What the end of a ride consists of -/

/-- A completion that succeeds has moved the ride that was read, and then freed
its driver if they were busy. -/
theorem completeRide_ok {ride : RideId} {fare : Decimal} {r : Ride}
    {w' : World σ} (h : (completeRide ride id fare).runOn w = (.ok r, w')) :
    ∃ old s', w.store.findRide old.id = .ok (some old) ∧ old.driver = some id ∧
      old.complete fare.roundCents w.now = .ok r ∧
      w.store.advanceRide r old.status = .ok (true, s') ∧
      let freed := ((releaseDriver id (·.finishRide w.now) [.busy]).runOn
        { w with store := s' }).2
      w'.store = freed.store ∧ w'.index = freed.index := by
  unfold completeRide at h
  dsimp only at h
  split at h
  · cases h
  · rw [bind_eq_ok] at h
    obtain ⟨old, next, hold, h⟩ := h
    obtain ⟨hold, rfl⟩ := ride_eq_ok.1 hold
    rw [bind_eq_ok] at h
    obtain ⟨_, next, hcheck, h⟩ := h
    obtain ⟨hdriver, rfl⟩ := checkDriver_eq_ok.1 hcheck
    rw [runOn_bind_ok (runOn_now next)] at h
    rw [bind_eq_ok] at h
    obtain ⟨after, next, hstep, h⟩ := h
    obtain ⟨hstep, rfl⟩ := transition_eq_ok.1 hstep
    rw [bind_eq_ok] at h
    obtain ⟨_, mid, hstore, h⟩ := h
    obtain ⟨s', hwrite, rfl⟩ := storeStep_eq_ok.1 hstore
    rw [bind_eq_ok] at h
    obtain ⟨_, freed, hrelease, h⟩ := h
    cases h
    rw [← (Ride.complete_eq_ok.1 hstep).1] at hwrite
    refine ⟨old, s', Store.findRide_self hold, hdriver, hstep, hwrite, ?_⟩
    rw [hrelease]
    exact ⟨rfl, rfl⟩

/-- A cancellation that succeeds has moved the ride that was read, and then
tried to free its driver, if it had one. -/
theorem cancelRide_parts {ride : RideId} {initiatedBy : String} {r : Ride}
    {w' : World σ} (h : (cancelRide ride initiatedBy).runOn w = (.ok r, w')) :
    ∃ old s', w.store.findRide old.id = .ok (some old) ∧
      old.cancel w.now = .ok r ∧
      w.store.advanceRide r old.status = .ok (true, s') ∧
      let freed := match r.driver with
        | some id =>
          ((releaseDriver id (·.leaveRide w.now) [.busy, .enRoute]).runOn
            { w with store := s' }).2
        | none => { w with store := s' }
      w'.store = freed.store ∧ w'.index = freed.index := by
  unfold cancelRide at h
  dsimp only at h
  rw [bind_eq_ok] at h
  obtain ⟨old, next, hold, h⟩ := h
  obtain ⟨hold, rfl⟩ := ride_eq_ok.1 hold
  rw [runOn_bind_ok (runOn_now next)] at h
  rw [bind_eq_ok] at h
  obtain ⟨after, next, hstep, h⟩ := h
  obtain ⟨hstep, rfl⟩ := transition_eq_ok.1 hstep
  rw [bind_eq_ok] at h
  obtain ⟨_, mid, hstore, h⟩ := h
  obtain ⟨s', hwrite, rfl⟩ := storeStep_eq_ok.1 hstore
  cases hdriver : after.driver with
  | some driver =>
      rw [hdriver] at h
      dsimp only at h
      rw [bind_eq_ok] at h
      obtain ⟨_, freed, hrelease, h⟩ := h
      cases h
      refine ⟨old, s', Store.findRide_self hold, hstep, hwrite, ?_⟩
      rw [hdriver]
      dsimp only
      rw [hrelease]
      exact ⟨rfl, rfl⟩
  | none =>
      rw [hdriver] at h
      cases h
      refine ⟨old, s', Store.findRide_self hold, hstep, hwrite, ?_⟩
      rw [hdriver]
      exact ⟨rfl, rfl⟩

/-- A cancellation that succeeds has moved the ride that was read, and then
freed its driver, if it had one who was busy or en route. -/
theorem cancelRide_ok {ride : RideId} {initiatedBy : String} {r : Ride}
    {w' : World σ} (h : (cancelRide ride initiatedBy).runOn w = (.ok r, w'))
    (hid : r.driver = some id) :
    ∃ old s', w.store.findRide old.id = .ok (some old) ∧
      old.cancel w.now = .ok r ∧
      w.store.advanceRide r old.status = .ok (true, s') ∧
      let freed :=
        ((releaseDriver id (·.leaveRide w.now) [.busy, .enRoute]).runOn
        { w with store := s' }).2
      w'.store = freed.store ∧ w'.index = freed.index := by
  obtain ⟨old, s', hold, hstep, hwrite, hfreed⟩ := cancelRide_parts h
  rw [hid] at hfreed
  exact ⟨old, s', hold, hstep, hwrite, hfreed⟩

end Dispatch

/-! ## The main result -/

namespace World

variable {σ : Type} {setup : Setup} {w : World σ} {ride : RideId}
  {id : DriverId}

variable [DriverIndex σ]

/-- From one world to the other, a driver who was busy or en route has become
available, and the index was told so for the place where the driver is; a driver
who was offline or available is as before. -/
def Frees (w w' : World σ) (id : DriverId) : Prop :=
  ∃ row, w.store.driver? id = some row ∧
    ((row.status = .busy ∨ row.status = .enRoute) →
      w'.store.driver? id = some (row.withStatus .available w.now) ∧
        ∃ p, row.PlacedAt p ∧ w'.index =
          (DriverIndex.put w.now id p .available w.index).2 ∧
          (DriverIndex.Faithful σ →
            (DriverIndex.put w.now id p .available w.index).1.isOk = true →
              (DriverIndex.find id w'.index).1 =
                .ok (some ⟨id, p, .available, w.now⟩))) ∧
    ((row.status = .offline ∨ row.status = .available) →
      w'.store.driver? id = some row)

open Dispatch

/-- A driver who may be freed is freed. -/
theorem frees_of_free {w' : World σ} {s' : Store} {row : DriverRow}
    {p : GeoPoint} {free : Driver → Except StateError Driver}
    {expected : List DriverStatus} (hsame : s'.driver? = w.store.driver?)
    (hrow : w.store.driver? id = some row) (hp : row.PlacedAt p)
    (hexpected : row.status ∈ expected)
    (hbusy : row.status = .busy ∨ row.status = .enRoute)
    (hfree : free (row.toDriver (some p)) =
      .ok ((row.toDriver (some p)).withStatus .available w.now))
    (hstore : w'.store = ((releaseDriver id free expected).runOn { w with
      store := s' }).2.store)
    (hindex : w'.index = ((releaseDriver id free expected).runOn { w with
      store := s' }).2.index) :
    w.Frees w' id := by
  have hrow' : s'.driver? id = some row := by rw [hsame, hrow]
  rw [releaseDriver_free (w := { w with store := s' }) hrow' hp hfree hexpected]
    at hstore hindex
  refine ⟨row, hrow, fun _ => ⟨?_, p, hp, hindex, ?_⟩, fun hidle => ?_⟩
  · rw [hstore]
    obtain ⟨-, rfl⟩ := Store.mem_of_driver? hrow
    exact Store.driver?_putDriver_self hrow'
  · intro hfaithful hok
    rw [hindex]
    exact hfaithful w.now id p .available w.index hok
  · rcases hbusy with h | h <;> rw [h] at hidle <;>
      rcases hidle with h | h <;> cases h

/-- A driver who may not be freed is left alone. -/
theorem kept_of_refused {w' : World σ} {s' : Store} {row : DriverRow}
    {p : GeoPoint} {free : Driver → Except StateError Driver}
    {expected : List DriverStatus} {cause : StateError}
    (hsame : s'.driver? = w.store.driver?)
    (hrow : w.store.driver? id = some row) (hp : row.PlacedAt p)
    (hfree : free (row.toDriver (some p)) = .error cause)
    (hstore : w'.store = ((releaseDriver id free expected).runOn { w with
      store := s' }).2.store)
    (hindex : w'.index = ((releaseDriver id free expected).runOn { w with
      store := s' }).2.index) :
    w'.store.driver? id = some row ∧ w'.index = w.index := by
  have hrow' : s'.driver? id = some row := by rw [hsame, hrow]
  have hfind : s'.findDriver id = .ok (some (row.toDriver (some p))) :=
    Store.findDriver_eq_some.2 ⟨row, hrow', hp.read_eq⟩
  rw [releaseDriver_keep (w := { w with store := s' }) hfind hfree]
    at hstore hindex
  exact ⟨by rw [hstore]; exact hrow', hindex⟩

/-- A driver who is not on the way and is left alone is as they should be. -/
theorem frees_of_kept {w' : World σ} {row : DriverRow}
    (hrow : w.store.driver? id = some row)
    (hidle : row.status = .offline ∨ row.status = .available)
    (hkept : w'.store.driver? id = some row) : w.Frees w' id := by
  refine ⟨row, hrow, fun hbusy => ?_, fun _ => hkept⟩
  rcases hidle with h | h <;> rw [h] at hbusy <;>
    rcases hbusy with h | h <;> cases h

/-- A driver who is on the way and is left alone is not. -/
theorem not_frees_of_kept {w' : World σ} {row : DriverRow}
    (hrow : w.store.driver? id = some row) (hroute : row.status = .enRoute)
    (hkept : w'.store.driver? id = some row) :
    ¬w.Frees w' id := by
  rintro ⟨found, hfound, hfreed, -⟩
  rw [hrow] at hfound
  cases hfound
  obtain ⟨havailable, -⟩ := hfreed (.inr hroute)
  rw [hkept] at havailable
  have hsame : row.status = .available :=
    congrArg DriverRow.status (Option.some.inj havailable)
  rw [hroute] at hsame
  cases hsame

/-- In every world that the service can have brought about, a completion that
succeeds frees the driver exactly if they were not en route, and leaves them and
the index alone if they were.  A cancellation that succeeds frees the driver in
any case. -/
theorem ride_end_frees_iff (hw : w.Reachable setup) (ride : RideId) :
    (∀ id fare r w', (completeRide ride id fare).runOn w = (.ok r, w') →
      r.driver = some id ∧ ∃ row, w.store.driver? id = some row ∧
        (w.Frees w' id ↔ row.status ≠ .enRoute) ∧
        (row.status = .enRoute → w'.store.driver? id = some row ∧
          w'.index = w.index)) ∧
    ∀ initiatedBy id r w', (cancelRide ride initiatedBy).runOn w = (.ok r, w') →
      r.driver = some id → w.Frees w' id := by
  have hs := hw.sound
  constructor
  · intro id fare r w' h
    obtain ⟨old, s', hold, hdriver, hstep, hwrite, hstore, hindex⟩ :=
      completeRide_ok h
    obtain ⟨row, p, hrow, hp, hsame⟩ := ended_driver hs hold hdriver hwrite
    refine ⟨?_, row, hrow, ?_⟩
    · rw [(Ride.complete_eq_ok.1 hstep).2]
      exact hdriver
    · by_cases hbusy : row.status = .busy
      · have hfree : (row.toDriver (some p)).finishRide w.now =
            .ok ((row.toDriver (some p)).withStatus .available w.now) :=
          Driver.finishRide_eq_ok.2 ⟨hbusy, rfl⟩
        have hfrees : w.Frees w' id := frees_of_free hsame hrow hp
          (hbusy ▸ List.mem_singleton_self _) (.inl hbusy) hfree hstore hindex
        have hne : row.status ≠ .enRoute := by
          rw [hbusy]
          decide
        exact ⟨⟨fun _ => hne, fun _ => hfrees⟩, fun hroute => absurd hroute hne⟩
      · have hrefused : (row.toDriver (some p)).finishRide w.now =
            .error (.driverCannot row.id .finishRide row.status) := if_neg hbusy
        obtain ⟨hkept, hindex⟩ :=
          kept_of_refused hsame hrow hp hrefused hstore hindex
        refine ⟨⟨fun hfrees hroute =>
          not_frees_of_kept hrow hroute hkept hfrees, fun hne => ?_⟩,
          fun _ => ⟨hkept, hindex⟩⟩
        refine frees_of_kept hrow
          (row.status.off_or_on.resolve_right fun h => ?_) hkept
        exact h.elim hbusy hne
  · intro initiatedBy id r w' h hid
    obtain ⟨old, s', hold, hstep, hwrite, hstore, hindex⟩ := cancelRide_ok h hid
    have hdriver : old.driver = some id := by
      rw [(Ride.cancel_eq_ok.1 hstep).2] at hid
      exact hid
    obtain ⟨row, p, hrow, hp, hsame⟩ := ended_driver hs hold hdriver hwrite
    -- The transition and the statuses that the write expects are the same two
    -- here.
    by_cases hbusy : row.status = .busy ∨ row.status = .enRoute
    · have hfree : (row.toDriver (some p)).leaveRide w.now =
          .ok ((row.toDriver (some p)).withStatus .available w.now) :=
        Driver.leaveRide_eq_ok.2 ⟨hbusy, rfl⟩
      have hexpected : row.status ∈ [DriverStatus.busy, .enRoute] := by
        simpa using hbusy
      exact frees_of_free hsame hrow hp hexpected hbusy hfree hstore hindex
    · have hrefused : (row.toDriver (some p)).leaveRide w.now =
          .error (.driverCannot row.id .leaveRide row.status) := if_neg hbusy
      obtain ⟨hkept, -⟩ := kept_of_refused hsame hrow hp hrefused hstore hindex
      exact frees_of_kept hrow (row.status.off_or_on.resolve_right hbusy) hkept

namespace Example

/-- The driver is sent on the way, and the ride is started. -/
def underway : List (Turn Roster) :=
  accepted ++ [{ now := ⟨4⟩, call := .setEnRoute "d" },
    { now := ⟨5⟩, call := .startRide trip "d" }]

/-- The world in which the ride may be completed. -/
def atEnd : World Roster := run {} start underway

theorem reachable_atEnd : atEnd.Reachable {} := reachable_run rfl underway

theorem completes_atEnd :
    ∃ r w', (completeRide trip "d" Decimal.one).runOn atEnd = (.ok r, w') := by
  have hok : ((completeRide trip "d" Decimal.one).runOn atEnd).1.isOk =
      true := by decide +kernel
  rcases hrun : (completeRide trip "d" Decimal.one).runOn atEnd with ⟨e | r, w'⟩
  · rw [hrun] at hok
    cases hok
  · exact ⟨r, w', rfl⟩

end Example

/-- In the example the driver is en route when the ride is completed, and stays
so. -/
theorem ride_end_frees_iff_example :
    Example.atEnd.Reachable {} ∧
      ∃ r w', (completeRide Example.trip "d" Decimal.one).runOn Example.atEnd =
        (.ok r, w') ∧
        r.driver = some "d" ∧ ∃ row,
          Example.atEnd.store.driver? "d" = some row ∧
          (Example.atEnd.Frees w' "d" ↔ row.status ≠ .enRoute) ∧
          (row.status = .enRoute →
            w'.store.driver? "d" = some row ∧
              w'.index = Example.atEnd.index) := by
  obtain ⟨r, w', hrun⟩ := Example.completes_atEnd
  have hends := ride_end_frees_iff Example.reachable_atEnd Example.trip
  exact ⟨Example.reachable_atEnd, r, w', hrun,
    hends.1 "d" Decimal.one r w' hrun⟩

/-- A ride can be completed without its driver becoming available. -/
theorem completed_driver_en_route :
    ∃ w : World Roster, w.Reachable {} ∧
      ∃ r w', (completeRide Example.trip "d" Decimal.one).runOn w =
        (.ok r, w') ∧
        (w.store.driver? "d").map (·.status) = some .enRoute ∧
        (w'.store.driver? "d").map (·.status) = some .enRoute ∧
        ¬w.Frees w' "d" := by
  obtain ⟨r, w', hrun⟩ := Example.completes_atEnd
  have hbefore : (Example.atEnd.store.driver? "d").map (·.status) =
      some .enRoute := by
    decide +kernel
  have hafter :
      (((completeRide Example.trip "d" Decimal.one).runOn
        Example.atEnd).2.store.driver?
      "d").map (·.status) = some .enRoute := by
    decide +kernel
  rw [hrun] at hafter
  refine ⟨Example.atEnd, Example.reachable_atEnd, r, w', hrun,
    hbefore, hafter, ?_⟩
  rintro ⟨row, hrow, hfreed, -⟩
  rw [hrow] at hbefore
  rw [(hfreed (.inr (Option.some.inj hbefore))).1] at hafter
  cases hafter

end World

end Ridehail
