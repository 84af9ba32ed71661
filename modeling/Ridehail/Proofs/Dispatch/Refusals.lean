import Ridehail.Proofs.Dispatch.Fit
import Ridehail.Proofs.Dispatch.Release

/-!
# Failures that callers bring about

An operation may fail for what it is asked, for the state of the records it is
asked about, or because the index is out.  It could also fail for reasons that
no caller can do anything about: the store refuses a write or holds a row that
cannot be read, or a record is found to have changed since it was read.  None of
these happens.  What an operation reads can be read, and what it has read is
still there when it writes.

The end of a ride frees its driver without reporting failures, so that these
rules say nothing of it.  `Store.Releases` does: whenever the record of the
driver allows it, the store takes the change.

## Main results

* `ServiceCall.foresees_perform` — no call fails for the store or for a changed
  record.
* `World.releases_of_completed`, `releases_of_cancelled` — the store takes the
  release of a driver.
-/

namespace Ridehail

/-- The failure is not that a record has changed since it was read. -/
def StateError.Foreseen : StateError → Prop
  | .driverChanged _ => False
  | .rideChanged _ _ => False
  | _ => True

/-- The failure is neither one of the store nor that a record has changed since
it was read. -/
def DispatchError.Foreseen : DispatchError → Prop
  | .storage _ => False
  | .invalidState cause => cause.Foreseen
  | _ => True

/-! ## Transitions -/

/-- A refused action is refused for the status of the ride. -/
theorem Ride.foreseen_of_act {r after : Ride} {action : RideAction}
    {cause : StateError} (h : r.act action after = .error cause) :
    cause.Foreseen := by
  unfold act at h
  split at h <;> cases h
  trivial

theorem Driver.foreseen_of_startRide {d : Driver} {at_ : Instant}
    {cause : StateError} (h : d.startRide at_ = .error cause) :
    cause.Foreseen := by
  unfold startRide at h
  split at h <;> cases h
  trivial

theorem Driver.foreseen_of_goOnline {d : Driver} {at_ : Instant}
    {cause : StateError} (h : d.goOnline at_ = .error cause) :
    cause.Foreseen := by
  unfold goOnline at h
  split at h
  · cases h
    trivial
  · split at h <;> cases h
    trivial

namespace Dispatch

variable {σ α β : Type} {w : World σ}

/-! ## Rules -/

/-- From the world, the operation fails if at all in a way that is foreseen. -/
def Foresees (x : Dispatch σ α) (w : World σ) : Prop :=
  ∀ e next, x.runOn w = (.error e, next) → e.Foreseen

section Rules

theorem foresees_of_run {x : Dispatch σ α} {a : α} {next : World σ}
    (h : x.runOn w = (.ok a, next)) : Foresees x w := by
  intro e last hfails
  rw [h] at hfails
  cases hfails

theorem foresees_pure (a : α) : Foresees (pure a) w :=
  foresees_of_run (runOn_pure w a)

theorem foresees_throw {e : DispatchError} (he : e.Foreseen) :
    Foresees (throw e : Dispatch σ α) w := by
  intro e' next hfails
  cases hfails
  exact he

theorem Foresees.bind {x : Dispatch σ α} {f : α → Dispatch σ β}
    (hx : Foresees x w)
    (hf : ∀ a next, x.runOn w = (.ok a, next) → Foresees (f a) next) :
    Foresees (x >>= f) w := by
  intro e last hfails
  rw [runOn_bind] at hfails
  rcases hrun : x.runOn w with ⟨e' | a, next⟩
  · rw [hrun] at hfails
    cases hfails
    exact hx _ _ hrun
  · rw [hrun] at hfails
    exact hf a next hrun e last hfails

theorem Foresees.map {x : Dispatch σ α} (hx : Foresees x w) (g : α → β) :
    Foresees (g <$> x) w := by
  rw [← bind_pure_comp]
  exact hx.bind fun a next _ => foresees_pure (g a)

theorem foresees_bind_of_run {x : Dispatch σ α} {f : α → Dispatch σ β} {a : α}
    {next : World σ} (hx : x.runOn w = (.ok a, next))
    (hf : Foresees (f a) next) : Foresees (x >>= f) w := by
  refine (foresees_of_run hx).bind fun b last hb => ?_
  rw [hx] at hb
  cases hb
  exact hf

theorem foresees_guard {c : Prop} [Decidable c] {e : DispatchError}
    {f : PUnit → Dispatch σ β} (he : e.Foreseen) (hf : ¬c → Foresees (f ⟨⟩) w) :
    Foresees (if c then throw e >>= f else f ⟨⟩) w := by
  split
  · exact (foresees_throw he).bind fun a next h => by cases h
  · rename_i hc
    exact hf hc

theorem foresees_bind_query {look : Store → Except StoreFault α}
    {f : α → Dispatch σ β} (hlook : ∃ a, look w.store = .ok a)
    (hf : ∀ a, look w.store = .ok a → Foresees (f a) w) :
    Foresees (query look >>= f) w := by
  obtain ⟨a, ha⟩ := hlook
  refine foresees_bind_of_run ?_ (hf a ha)
  rw [runOn_query, ha]

/-- A write that the store does not refuse, and what follows it. -/
theorem foresees_bind_write {change : Store → Written} {f : Bool → Dispatch σ β}
    (hchange : ∃ applied s', change w.store = .ok (applied, s'))
    (hf : ∀ applied s', change w.store = .ok (applied, s') →
      Foresees (f applied) { w with store := s' }) :
    Foresees (write change >>= f) w := by
  obtain ⟨applied, s', h⟩ := hchange
  exact foresees_bind_of_run (write_eq_ok.2 ⟨s', h, rfl⟩) (hf applied s' h)

theorem foresees_transition {x : Except StateError α}
    (hx : ∀ cause, x = .error cause → cause.Foreseen) :
    Foresees (transition x : Dispatch σ α) w := by
  intro e next hfails
  rw [runOn_transition] at hfails
  cases hresult : x with
  | error cause =>
      rw [hresult] at hfails
      cases hfails
      exact hx cause hresult
  | ok a =>
      rw [hresult] at hfails
      cases hfails

theorem foresees_bind_transition {x : Except StateError α}
    {f : α → Dispatch σ β} (hx : ∀ cause, x = .error cause → cause.Foreseen)
    (hf : ∀ a, x = .ok a → Foresees (f a) w) :
    Foresees (transition x >>= f) w := by
  refine (foresees_transition hx).bind fun a next h => ?_
  obtain ⟨ha, rfl⟩ := transition_eq_ok.1 h
  exact hf a ha

theorem foresees_checkDriver (r : Ride) (id : DriverId) :
    Foresees (checkDriver r id) w := by
  unfold checkDriver
  split
  · exact foresees_throw trivial
  · exact foresees_pure ()

theorem foresees_driver (hw : w.store.Fit) (id : DriverId) :
    Foresees (driver id) w := by
  unfold driver
  refine foresees_bind_query (hw.exists_findDriver id) fun found _ => ?_
  cases found with
  | none => exact foresees_throw trivial
  | some d => exact foresees_pure d

theorem foresees_ride (hw : w.store.Fit) (id : RideId) :
    Foresees (ride id) w := by
  unfold ride
  refine foresees_bind_query (hw.exists_findRide id) fun found _ => ?_
  cases found with
  | none => exact foresees_throw trivial
  | some r => exact foresees_pure r

theorem foresees_bind_driver (hw : w.store.Fit) {id : DriverId}
    {f : Driver → Dispatch σ β}
    (hf : ∀ d, w.store.findDriver id = .ok (some d) → Foresees (f d) w) :
    Foresees (driver id >>= f) w := by
  refine (foresees_driver hw id).bind fun d next h => ?_
  obtain ⟨hd, rfl⟩ := driver_eq_ok.1 h
  exact hf d hd

theorem foresees_bind_ride (hw : w.store.Fit) {id : RideId}
    {f : Ride → Dispatch σ β}
    (hf : ∀ r, w.store.findRide id = .ok (some r) → Foresees (f r) w) :
    Foresees (ride id >>= f) w := by
  refine (foresees_ride hw id).bind fun r next h => ?_
  obtain ⟨hr, rfl⟩ := ride_eq_ok.1 h
  exact hf r hr

/-- A step of a ride that was just read is stored, and what follows goes on from
there. -/
theorem foresees_bind_storeStep (hw : w.store.Fit) {old r : Ride}
    {f : Unit → Dispatch σ β} (hold : w.store.findRide old.id = .ok (some old))
    (hstep : old.StepsTo r)
    (hf : ∀ s', w.store.advanceRide r old.status = .ok (true, s') →
      Foresees (f ()) { w with store := s' }) :
    Foresees (storeStep r old.status >>= f) w := by
  obtain ⟨s', hs'⟩ := hw.exists_advanceRide hold hstep
  exact foresees_bind_of_run (storeStep_eq_ok.2 ⟨s', hs', rfl⟩) (hf s' hs')

end Rules

/-! ## Looking something up -/

theorem foresees_query {look : Store → Except StoreFault α}
    (hlook : ∃ a, look w.store = .ok a) :
    Foresees (query look : Dispatch σ α) w := by
  obtain ⟨a, ha⟩ := hlook
  have hrun : (query look).runOn w = (.ok a, w) := by
    rw [runOn_query, ha]
  exact foresees_of_run hrun

theorem foresees_ridesOfRider (hw : w.store.Fit)
    (rider : RiderId) (limit : Int) :
    Foresees (ridesOfRider rider limit) w :=
  foresees_query (hw.exists_ridesWhere _ limit)

theorem foresees_ridesOfDriver (hw : w.store.Fit) (driver : DriverId)
    (limit : Int) :
    Foresees (ridesOfDriver driver limit) w :=
  foresees_query (hw.exists_ridesWhere _ limit)

theorem foresees_nearbyDrivers (hw : w.store.Fit) (p : GeoPoint)
    (radiusKm : Float) :
    Foresees (nearbyDrivers p radiusKm) w := by
  unfold nearbyDrivers
  dsimp only
  refine foresees_guard (by trivial) fun _ => ?_
  apply foresees_bind_of_run (runOn_now w)
  exact foresees_bind_query (hw.exists_availableDrivers _ _ _) fun drivers _ =>
    foresees_pure _

/-! ## Finding a driver -/

variable [DriverIndex σ]

theorem foresees_assignRide (hw : w.store.Fit) (r : Ride) (id : DriverId) :
    Foresees (assignRide r id) w := by
  unfold assignRide
  refine foresees_bind_query (hw.exists_findDriver id) fun found _ => ?_
  cases found with
  | none => exact foresees_pure none
  | some d =>
      dsimp only
      split
      · exact foresees_pure none
      · apply foresees_bind_of_run (runOn_now w)
        refine foresees_bind_transition (fun _ => Ride.foreseen_of_act)
          fun accepted _ => ?_
        refine foresees_bind_transition (fun _ => Driver.foreseen_of_startRide)
          fun busy hbusy => ?_
        have hstatus : busy.status = .busy := by
          rw [(Driver.startRide_eq_ok.1 hbusy).2]
          rfl
        refine foresees_bind_write (Store.assignRide_busy hstatus)
          fun applied s' _ => ?_
        cases applied with
        | false => exact foresees_pure none
        | true =>
            rw [if_neg (by simp)]
            apply foresees_bind_of_run (runOn_indexDriver _ busy)
            exact foresees_of_run rfl

theorem foresees_claimOneOf (hw : w.store.Fit) (policy : MatchingPolicy)
    (strategy : Strategy) (r : Ride) (candidates : List Candidate) :
    Foresees (claimOneOf policy strategy r candidates) w := by
  -- Every lost claim leaves fewer candidates, in the same world.
  induction h : candidates.length using Nat.strongRecOn
      generalizing candidates with
  | ind n ih =>
      rw [claimOneOf]
      split
      · exact foresees_pure none
      · rename_i chosen hchosen
        refine (foresees_assignRide hw r chosen.driver).bind
          fun claimed next hrun => ?_
        cases claimed with
        | some accepted => exact foresees_pure _
        | none =>
            have hends :=
              ends_assignRide {} (w := w) (c := .matchRide r)
                (E := fun _ => True)
              trivial (fun _ => .inr (List.mem_singleton_self r)) chosen.driver
            rw [Ends, hrun] at hends
            obtain rfl : next = w := hends
            dsimp only
            split
            · exact ih _ (h ▸ length_othersThan_lt hchosen) _ rfl
            · exact foresees_pure none

theorem foresees_matchRide (hw : w.store.Fit) (policy : MatchingPolicy)
    (r : Ride) :
    Foresees (matchRide policy r) w := by
  unfold matchRide
  split
  · exact foresees_pure none
  · have hask : Foresees
        (askIndex (DriverIndex.nearest r.pickup policy.maxDrivers
          policy.maxRadiusKm)) w := by
      intro e next hfails
      rw [runOn_askIndex] at hfails
      cases hanswer :
          (DriverIndex.nearest r.pickup policy.maxDrivers policy.maxRadiusKm
          w.index).1 with
      | error cause =>
          rw [hanswer] at hfails
          cases hfails
          trivial
      | ok candidates =>
          rw [hanswer] at hfails
          cases hfails
    refine hask.bind fun candidates next hrun => ?_
    have hstore : next.store = w.store := by
      rw [runOn_askIndex] at hrun
      exact congrArg (·.2.store) hrun.symm
    apply foresees_bind_of_run (runOn_flag next advancedMatching)
    exact foresees_claimOneOf (hstore ▸ hw) policy _ r candidates

theorem foresees_retryMatching (hw : w.store.Fit) (policy : MatchingPolicy)
    (id : RideId) :
    Foresees (retryMatching policy id) w := by
  unfold retryMatching
  apply foresees_bind_ride hw
  intro r _
  refine foresees_guard (by trivial) fun _ => ?_
  exact (foresees_matchRide hw policy r).bind fun claimed next _ =>
    foresees_pure _

/-- A new ride is added or found to be in the way of another one, and what comes
of offering it does not matter. -/
theorem foresees_request (policy : MatchingPolicy) {r : Ride} (hr : r.Fresh) :
    Foresees (do
      if !(← write (·.insertRide r)) then
        throw (.conflict (.riderHasRide r.rider))
      publishRide .requested r w.now
      match ← outcome (matchRide policy r) with
      | .ok (some accepted) => return accepted
      | _ => return r) w := by
  refine foresees_bind_write (Store.insertRide_fresh hr) fun applied s' _ => ?_
  cases applied with
  | false => exact (foresees_throw (by trivial)).bind fun a next h => by cases h
  | true =>
      rw [if_neg (by simp)]
      apply foresees_bind_of_run (runOn_publish _ _)
      apply foresees_bind_of_run (runOn_outcome _ _)
      split <;> exact foresees_pure _

theorem foresees_createRide (setup : Setup) (rider : RiderId)
    {pickup : GeoPoint} (hpickup : pickup.inRange = true)
    (destination : Option GeoPoint) :
    Foresees (createRide setup rider pickup destination) w := by
  obtain ⟨hlat, hlng⟩ := GeoPoint.isNaN_of_inRange hpickup
  let drawn : World σ := { w with drawn := w.drawn + 1 }
  have hdraw : (drawRideId setup).runOn w =
      (.ok (setup.rideId drawn.drawn), drawn) := rfl
  unfold createRide
  dsimp only
  refine foresees_guard (by trivial) fun _ => ?_
  apply foresees_bind_of_run (runOn_now w)
  apply foresees_bind_of_run hdraw
  have hrequest (estimate : Option Int) :=
    foresees_request (w := drawn) setup.matching
    (r := { Ride.request (setup.rideId drawn.drawn) rider pickup
      destination w.now with
      estimateMinutes := estimate })
    ⟨_, _, _, _, _, estimate, hlat, hlng, rfl⟩
  cases destination with
  | none => exact foresees_bind_of_run (runOn_pure drawn none) (hrequest none)
  | some stop =>
      obtain ⟨minutes, hminutes, -⟩ :=
        estimateMinutes_runOn setup drawn pickup stop
      have hestimate :
          (some <$> estimateMinutes setup pickup stop).runOn drawn =
          (.ok (some minutes), drawn) := by
        rw [runOn_map, hminutes]
        rfl
      exact foresees_bind_of_run hestimate (hrequest (some minutes))

/-! ## The life of a ride -/

omit [DriverIndex σ] in
theorem foresees_startRide (hw : w.store.Fit) (id : RideId)
    (driver : DriverId) :
    Foresees (startRide id driver) w := by
  unfold startRide
  apply foresees_bind_ride hw
  intro before hbefore
  refine (foresees_checkDriver before driver).bind fun _ next hcheck => ?_
  obtain ⟨-, rfl⟩ := checkDriver_eq_ok.1 hcheck
  apply foresees_bind_of_run (runOn_now next)
  refine foresees_bind_transition (fun _ => Ride.foreseen_of_act) fun r hr => ?_
  have hstep : before.StepsTo r := ⟨_, .inl hr⟩
  rw [← (Ride.start_eq_ok.1 hr).1]
  exact foresees_bind_storeStep hw (Store.findRide_self hbefore)
      hstep fun s' _ =>
    foresees_of_run rfl

/-- Freeing the driver of a ride reports no failure. -/
theorem releaseDriver_ok (w : World σ) (id : DriverId)
    (free : Driver → Except StateError Driver) (expected : List DriverStatus) :
    ∃ next, (releaseDriver id free expected).runOn w = (.ok (), next) := by
  unfold releaseDriver
  exact ⟨_, runOn_bind_ok (runOn_outcome w _)⟩

theorem foresees_completeRide (hw : w.store.Fit) (id : RideId)
    (driver : DriverId) (fare : Decimal) :
    Foresees (completeRide id driver fare) w := by
  unfold completeRide
  dsimp only
  refine foresees_guard (by trivial) fun _ => ?_
  apply foresees_bind_ride hw
  intro before hbefore
  refine (foresees_checkDriver before driver).bind fun _ next hcheck => ?_
  obtain ⟨-, rfl⟩ := checkDriver_eq_ok.1 hcheck
  apply foresees_bind_of_run (runOn_now next)
  refine foresees_bind_transition (fun _ => Ride.foreseen_of_act) fun r hr => ?_
  have hstep : before.StepsTo r := ⟨_, .inr (.inl ⟨_, hr⟩)⟩
  rw [← (Ride.complete_eq_ok.1 hr).1]
  refine foresees_bind_storeStep hw (Store.findRide_self hbefore)
    hstep fun s' _ => ?_
  obtain ⟨freed, hrelease⟩ := releaseDriver_ok { next with store := s' } driver
    (·.finishRide next.now) [.busy]
  apply foresees_bind_of_run hrelease
  exact foresees_of_run rfl

theorem foresees_cancelRide (hw : w.store.Fit) (id : RideId)
    (initiatedBy : String) :
    Foresees (cancelRide id initiatedBy) w := by
  unfold cancelRide
  dsimp only
  apply foresees_bind_ride hw
  intro before hbefore
  apply foresees_bind_of_run (runOn_now w)
  refine foresees_bind_transition (fun _ => Ride.foreseen_of_act) fun r hr => ?_
  have hstep : before.StepsTo r := ⟨_, .inr (.inr hr)⟩
  refine foresees_bind_storeStep hw (Store.findRide_self hbefore)
    hstep fun s' _ => ?_
  cases hdriver : r.driver with
  | none => exact foresees_of_run rfl
  | some driver =>
      obtain ⟨freed, hrelease⟩ := releaseDriver_ok { w with store := s' } driver
        (·.leaveRide w.now) [.busy, .enRoute]
      apply foresees_bind_of_run hrelease
      exact foresees_of_run rfl

/-! ## Drivers -/

omit [DriverIndex σ] in
theorem foresees_registerDriver (n : NewDriver) :
    Foresees (registerDriver n) w := by
  have hpermitted : (DriverRow.ofDriver (n.register w.now)).permitted = true :=
    rfl
  have hinsert : ∃ applied s', w.store.insertDriver (n.register w.now) =
      .ok (applied, s') := by
    simp only [Store.insertDriver, hpermitted]
    split
    · rename_i h
      cases h
    · split <;> exact ⟨_, _, rfl⟩
  unfold registerDriver
  dsimp only
  refine foresees_guard (by trivial) fun _ => ?_
  apply foresees_bind_of_run (runOn_now w)
  refine foresees_bind_write hinsert fun applied s' _ => ?_
  cases applied with
  | false => exact foresees_throw (by trivial)
  | true => exact foresees_of_run rfl

theorem foresees_updateLocation (hw : w.store.Fit) (id : DriverId) {ping : Ping}
    (hp : ping.location.inRange = true) :
    Foresees (updateLocation id ping) w := by
  unfold updateLocation
  apply foresees_bind_of_run (runOn_now w)
  apply foresees_bind_driver hw
  intro d hd
  obtain ⟨row, hrow, -⟩ := Store.findDriver_eq_some.1 hd
  apply foresees_bind_of_run (storePing_runOn hrow hp w.now)
  apply foresees_bind_of_run (runOn_indexDriver _ _)
  obtain ⟨pings, hpings⟩ := publishPing_runOn
    { w with
      store := w.store.putDriver (row.located ping.location w.now)
      index := w.indexTold (d.locate ping.location w.now) }
    (d.locate ping.location w.now) ping w.now
  exact foresees_bind_of_run hpings (foresees_pure _)

/-- Going online is refused, if at all, by the record of the driver. -/
theorem foresees_goOnline (hw : w.store.Fit) (id : DriverId)
    {place : Option GeoPoint} (hplace : ∀ p ∈ place, p.inRange = true) :
    Foresees (goOnline id place) w := by
  cases hrow : w.store.driver? id with
  | none =>
      intro e next hfails
      rw [goOnline_unknown hrow] at hfails
      cases hfails
      trivial
  | some row =>
      obtain ⟨location, hlocation⟩ :=
        hw.readable row (Store.mem_of_driver? hrow).1
      have hread := DriverRow.read_eq_ok.2 ⟨location, hlocation, rfl⟩
      have hfind := Store.findDriver_eq_some.2 ⟨row, hrow, hread⟩
      cases honline : (locatedAt (row.toDriver location) place w.now).goOnline
          w.now with
      | error cause =>
          intro e next hfails
          unfold goOnline at hfails
          dsimp only at hfails
          rw [runOn_bind_ok (driver_eq_ok.2 ⟨hfind, rfl⟩),
            runOn_bind_ok (runOn_now w), honline] at hfails
          cases hfails
          exact Driver.foreseen_of_goOnline honline
      | ok d =>
          obtain ⟨hplaced, hstatus, -⟩ := Driver.goOnline_eq_ok.1 honline
          have hfree : row.status = .offline ∨ row.status = .available := by
            cases place <;> exact hstatus
          have hlocated : place.isSome = true ∨ ∃ p, row.PlacedAt p := by
            cases place with
            | some p => exact .inl rfl
            | none =>
                obtain ⟨p, rfl⟩ := Option.isSome_iff_exists.1 hplaced
                exact .inr ⟨p, hlocation⟩
          obtain ⟨online, pings, hrun, -⟩ :=
            goOnline_runOn hw.toSound hrow hplace hlocated hfree
          exact foresees_of_run hrun

theorem foresees_goOffline (hw : w.store.Fit) (id : DriverId) :
    Foresees (goOffline id) w := by
  unfold goOffline
  apply foresees_bind_driver hw
  intro d hd
  obtain ⟨row, hrow, hread⟩ := Store.findDriver_eq_some.1 hd
  have hid := Store.id_eq_of_findDriver hd
  apply foresees_bind_of_run (runOn_now w)
  apply foresees_bind_of_run (setDriverStatus_runOn hrow (d.goOffline w.now) hid
    (DriverStatus.mem_all row.status) rfl)
  exact foresees_of_run rfl

theorem foresees_setEnRoute (hw : w.store.Fit) (id : DriverId) :
    Foresees (setEnRoute id) w := by
  unfold setEnRoute
  apply foresees_bind_driver hw
  intro d hd
  obtain ⟨row, hrow, hread⟩ := Store.findDriver_eq_some.1 hd
  have hid := Store.id_eq_of_findDriver hd
  apply foresees_bind_of_run (runOn_now w)
  apply foresees_bind_of_run (setDriverStatus_runOn hrow
    (d.setEnRoute w.now) hid (DriverStatus.mem_all row.status) rfl)
  apply foresees_bind_of_run (runOn_indexDriver _ _)
  exact foresees_pure _

theorem foresees_sweepAt (hw : w.store.Fit) (policy : TrackingPolicy)
    (at_ : Instant) :
    Foresees (sweepAt policy at_) w := by
  unfold sweepAt
  refine foresees_bind_query (hw.exists_staleDrivers _) fun stale _ => ?_
  have hends :=
    ends_forceAllOffline {} (w := w) (c := .sweep at_) (E := fun _ => False)
    (at_.minusSeconds policy.staleAfterSeconds) at_ stale
    { examined := stale.length }
  intro e next hfails
  rw [Ends, hfails] at hends
  exact hends.elim

end Dispatch

/-! ## Calls -/

open Dispatch in
/-- No call fails for the store, or because a record has changed since it was
read. -/
theorem ServiceCall.foresees_perform {σ : Type} [DriverIndex σ] {w : World σ}
    (hw : w.store.Fit) (setup : Setup) (c : ServiceCall) :
    Foresees (c.perform setup) w := by
  cases c with
  | createRide rider pickup destination hpickup =>
      exact (foresees_createRide setup rider hpickup destination).map _
  | retryMatching id => exact (foresees_retryMatching hw _ id).map _
  | matchRide r => exact (foresees_matchRide hw _ r).map _
  | assignRide r driver => exact (foresees_assignRide hw r driver).map _
  | startRide id driver => exact (foresees_startRide hw id driver).map _
  | completeRide id driver fare =>
      exact (foresees_completeRide hw id driver fare).map _
  | cancelRide id initiatedBy =>
      exact (foresees_cancelRide hw id initiatedBy).map _
  | registerDriver n => exact (foresees_registerDriver n).map _
  | updateLocation id ping hping =>
      exact (foresees_updateLocation hw id hping).map _
  | goOnline id place hplace => exact (foresees_goOnline hw id hplace).map _
  | goOffline id => exact (foresees_goOffline hw id).map _
  | setEnRoute id => exact (foresees_setEnRoute hw id).map _
  | sweep at_ => exact (foresees_sweepAt hw _ at_).map _

/-! ## The release of a driver -/

/-- Freeing the driver of a ride that is over leads from one store to the other:
the record of the driver can be read, and if it allows the change, the store
takes it. -/
def Store.Releases (s : Store) (id : DriverId)
    (free : Driver → Except StateError Driver) (expected : List DriverStatus)
    (last : Store) : Prop :=
  ∃ d, s.findDriver id = .ok (some d) ∧
    match free d with
    | .ok freed => s.setDriverStatus freed expected = .ok (true, last)
    | .error _ => last = s

namespace World

variable {σ : Type} [DriverIndex σ] {w w' : World σ} {id : DriverId}
  {ride : RideId} {r : Ride}

open Dispatch

/-- The store takes the release of a driver who has a place. -/
theorem releases_of_placed {row : DriverRow} {p : GeoPoint}
    (hrow : w.store.driver? id = some row) (hp : row.PlacedAt p)
    {free : Driver → Except StateError Driver} {expected : List DriverStatus}
    {at_ : Instant}
    (hfree : ∀ freed, free (row.toDriver (some p)) = .ok freed →
      row.status ∈ expected ∧ freed =
        (row.toDriver (some p)).withStatus .available at_) :
    w.store.Releases id free expected
      ((releaseDriver id free expected).runOn w).2.store := by
  have hfind := Store.findDriver_eq_some.2 ⟨row, hrow, hp.read_eq⟩
  refine ⟨row.toDriver (some p), hfind, ?_⟩
  cases hresult : free (row.toDriver (some p)) with
  | ok freed =>
      obtain ⟨hexpected, rfl⟩ := hfree freed hresult
      obtain ⟨-, rfl⟩ := Store.mem_of_driver? hrow
      rw [releaseDriver_free hrow hp hresult hexpected]
      exact Store.changeDriver_of_found hrow (List.contains_iff_mem.2 hexpected)
        (DriverRow.PlacedAt.permitted hp)
  | error cause =>
      rw [releaseDriver_keep hfind hresult]

/-- When a ride is completed, the store takes the release of its driver. -/
theorem releases_of_completed (hs : w.store.Sound) {fare : Decimal}
    (h : (completeRide ride id fare).runOn w = (.ok r, w')) :
    ∃ s', w.store.advanceRide r .inProgress = .ok (true, s') ∧
      s'.Releases id (·.finishRide w.now) [.busy] w'.store := by
  obtain ⟨old, s', hold, hdriver, hstep, hwrite, hstore, -⟩ := completeRide_ok h
  obtain ⟨row, p, hrow, hp, hsame⟩ := ended_driver hs hold hdriver hwrite
  refine ⟨s', (Ride.complete_eq_ok.1 hstep).1 ▸ hwrite, ?_⟩
  rw [hstore]
  apply releases_of_placed (w := { w with store := s' }) (hsame ▸ hrow) hp
  intro freed hfreed
  obtain ⟨hbusy, rfl⟩ := Driver.finishRide_eq_ok.1 hfreed
  exact ⟨List.mem_singleton.2 hbusy, rfl⟩

/-- When a ride with a driver is cancelled, the store takes the release of its
driver. -/
theorem releases_of_cancelled (hs : w.store.Sound) {initiatedBy : String}
    (h : (cancelRide ride initiatedBy).runOn w = (.ok r, w'))
    (hid : r.driver = some id) :
    ∃ old s', w.store.findRide r.id = .ok (some old) ∧
      w.store.advanceRide r old.status = .ok (true, s') ∧
        s'.Releases id (·.leaveRide w.now) [.busy, .enRoute] w'.store := by
  obtain ⟨old, s', hold, hstep, hwrite, hstore, -⟩ := cancelRide_ok h hid
  have hsteps : old.StepsTo r := ⟨_, .inr (.inr hstep)⟩
  obtain ⟨row, p, hrow, hp, hsame⟩ :=
    ended_driver hs hold (hsteps.driver_eq ▸ hid) hwrite
  refine ⟨old, s', hsteps.id_eq ▸ hold, hwrite, ?_⟩
  rw [hstore]
  apply releases_of_placed (w := { w with store := s' }) (hsame ▸ hrow) hp
  intro freed hfreed
  obtain ⟨hbusy, rfl⟩ := Driver.leaveRide_eq_ok.1 hfreed
  have hstatus : row.status = .busy ∨ row.status = .enRoute := hbusy
  exact ⟨by simpa using hstatus, rfl⟩

end World

end Ridehail
