import Ridehail.Proofs.Dispatch.Runs

/-!
# Two worlds side by side

Statements about two runs of the service all have the same proof: the two worlds
differ in something that the operations do not look at, or not in a way that
matters, and so the operations come to the same outcome in both and leave two
worlds that differ in the same way.  Going through the operations for each such
statement would be going through them in vain, because what they are made of is
always the same.

So the operations are gone through here, once, for any relation of two worlds
that is kept by the few things that the service does to a world.  What is asked
of the relation is `World.Paired`, and for the operations that look for a driver
`World.MatchPaired`.

A relation may also say something of the two stores.  It has to be kept by every
write then, and the writes are therefore not arbitrary: none but a request makes
a rider active who was not, which is `Store.Proceeds`.

## Main results

* `Dispatch.Follows.bind` and the other rules — what operations are made of.
* `Dispatch.follows_completeRide`, `follows_createRide`, … — the operations.
* `ServiceCall.follows_perform` — all calls.
* `World.run_keeps_rides` — what runs keep of the rides.
-/

namespace Ridehail

/-! ## Writes -/

namespace Store

variable {s s' : Store}

/-- No ride is added, and none becomes active that was not. -/
def Proceeds (s s' : Store) : Prop :=
  ∀ later ∈ s'.rides, ∃ row ∈ s.rides, row.rider = later.rider ∧
    (later.status.isActive = true → row.status.isActive = true)

theorem Proceeds.refl (s : Store) : s.Proceeds s :=
  fun row hrow => ⟨row, hrow, rfl, id⟩

/-- A write of a driver touches no ride. -/
theorem Proceeds.of_rides (h : s'.rides = s.rides) : s.Proceeds s' :=
  fun row hrow => ⟨row, h ▸ hrow, rfl, id⟩

theorem proceeds_of_insertDriver {d : Driver} {applied : Bool}
    (h : s.insertDriver d = .ok (applied, s')) : s.Proceeds s' := by
  cases applied with
  | false => exact insertDriver_unapplied h ▸ .refl s
  | true =>
      obtain ⟨-, -, rfl⟩ := insertDriver_applied h
      exact .of_rides rfl

theorem proceeds_of_changeDriver {id : DriverId} {applies : DriverRow → Bool}
    {change : DriverRow → DriverRow} {applied : Bool}
    (h : s.changeDriver id applies change = .ok (applied, s')) :
    s.Proceeds s' := by
  cases applied with
  | false => exact changeDriver_unapplied h ▸ .refl s
  | true =>
      obtain ⟨row, -, -, -, rfl⟩ := changeDriver_applied h
      exact .of_rides rfl

/-- A ride whose row is replaced was active before if it is afterwards. -/
theorem proceeds_putRide {row later : RideRow} (hrow : row ∈ s.rides)
    (hrider : row.rider = later.rider)
    (hactive : later.status.isActive = true → row.status.isActive = true) :
    s.Proceeds (s.putRide later) := by
  intro x hx
  rcases mem_putRide.1 hx with ⟨rfl, -⟩ | ⟨hx, -⟩
  · exact ⟨row, hrow, hrider, hactive⟩
  · exact Proceeds.refl s x hx

/-- Only a requested ride is assigned, and that is an active one. -/
theorem proceeds_of_assignRide {r : Ride} {d : Driver} {applied : Bool}
    (h : s.assignRide r d = .ok (applied, s')) : s.Proceeds s' := by
  cases applied with
  | false => exact assignRide_unapplied h ▸ .refl s
  | true =>
      obtain ⟨driver, ride, -, -, -, hride, hrequested, -, rfl⟩ :=
        assignRide_applied h
      refine proceeds_putRide (s := s.putDriver _) (mem_of_ride? hride).1
        rfl fun _ => ?_
      rw [hrequested]
      rfl

theorem proceeds_of_advanceRide {r : Ride} {previous : RideStatus}
    {applied : Bool}
    (hactive : r.status.isActive = true → previous.isActive = true)
    (h : s.advanceRide r previous = .ok (applied, s')) : s.Proceeds s' := by
  cases applied with
  | false => exact changeRide_unapplied h ▸ .refl s
  | true =>
      obtain ⟨row, hrow, hstatus, -, rfl⟩ := changeRide_applied h
      refine proceeds_putRide (mem_of_ride? hrow).1 rfl fun h => ?_
      rw [of_decide_eq_true hstatus]
      exact hactive h

end Store

/-! ## Operations side by side -/

namespace Dispatch

variable {σ τ α β : Type}

/-- In related worlds both operations come to the same outcome, and they leave
worlds that are related. -/
def Follows (R : World σ → World τ → Prop) (x : Dispatch σ α)
    (y : Dispatch τ α) : Prop :=
  ∀ w v, R w v → (y.runOn v).1 = (x.runOn w).1 ∧ R (x.runOn w).2 (y.runOn v).2

variable {R : World σ → World τ → Prop}

theorem follows_pure (a : α) : Follows R (pure a) (pure a) :=
  fun _ _ h => ⟨rfl, h⟩

theorem follows_throw (e : DispatchError) :
    Follows R (throw e : Dispatch σ α) (throw e : Dispatch τ α) :=
  fun _ _ h => ⟨rfl, h⟩

theorem Follows.bind {x : Dispatch σ α} {y : Dispatch τ α}
    {f : α → Dispatch σ β} {g : α → Dispatch τ β} (hxy : Follows R x y)
    (hfg : ∀ a, Follows R (f a) (g a)) :
    Follows R (x >>= f) (y >>= g) := by
  intro w v h
  obtain ⟨hsame, hnext⟩ := hxy w v h
  rw [runOn_bind, runOn_bind]
  rcases hx : x.runOn w with ⟨e | a, next⟩
  · rw [hx] at hsame hnext
    rcases hy : y.runOn v with ⟨e' | b, other⟩ <;>
      rw [hy] at hsame hnext <;> cases hsame
    exact ⟨rfl, hnext⟩
  · rw [hx] at hsame hnext
    rcases hy : y.runOn v with ⟨e' | b, other⟩ <;>
      rw [hy] at hsame hnext <;> cases hsame
    exact hfg a next other hnext

theorem Follows.map {x : Dispatch σ α} {y : Dispatch τ α} (h : Follows R x y)
    (f : α → β) :
    Follows R (f <$> x) (f <$> y) := by
  intro w v hwv
  rw [runOn_map, runOn_map, (h w v hwv).1]
  exact ⟨rfl, (h w v hwv).2⟩

theorem Follows.outcome {x : Dispatch σ α} {y : Dispatch τ α}
    (h : Follows R x y) :
    Follows R (outcome x) (outcome y) := by
  intro w v hwv
  rw [runOn_outcome, runOn_outcome, (h w v hwv).1]
  exact ⟨rfl, (h w v hwv).2⟩

/-- A check of what both have found out, which lets the rest happen or fails. -/
theorem follows_guard {c : Prop} [Decidable c] {e : DispatchError}
    {f : PUnit → Dispatch σ β} {g : PUnit → Dispatch τ β}
    (h : ¬c → Follows R (f ⟨⟩) (g ⟨⟩)) :
    Follows R (if c then throw e >>= f else f ⟨⟩)
      (if c then throw e >>= g else g ⟨⟩) := by
  split
  · exact follows_throw e
  · rename_i hc
    exact h hc

theorem follows_refusal (c : Prop) [Decidable c] (e : DispatchError) :
    Follows R (if c then throw e else pure () : Dispatch σ Unit)
      (if c then throw e else pure () : Dispatch τ Unit) := by
  split
  · exact follows_throw e
  · exact follows_pure ()

/-- What follows a transition may use that it was one. -/
theorem follows_bind_transition {x : Except StateError α} {f : α → Dispatch σ β}
    {g : α → Dispatch τ β} (h : ∀ a, x = .ok a → Follows R (f a) (g a)) :
    Follows R (transition x >>= f) (transition x >>= g) := by
  cases hx : x with
  | error cause => exact follows_throw _
  | ok a => exact h a hx

theorem follows_checkDriver (r : Ride) (id : DriverId) :
    Follows R (checkDriver r id) (checkDriver r id) :=
  follows_refusal _ _

end Dispatch

/-! ## Pairs of worlds -/

section

variable {σ τ : Type} [DriverIndex σ] [DriverIndex τ]

/-- A relation of two worlds that lasts through all that the service does to
both of them, apart from looking for a driver. -/
structure World.Paired (R : World σ → World τ → Prop) : Prop where
  store_eq {w v} : R w v → v.store = w.store
  now_eq {w v} : R w v → v.now = w.now
  flag_eq {w v} : R w v → ∀ name ≠ advancedMatching,
    v.flags.isEnabled name = w.flags.isEnabled name
  write {w v} {s' : Store} : R w v → w.store.Proceeds s' →
    R { w with store := s' } { v with store := s' }
  publish {w v} (e : Event) : R w v →
    R { w with log := w.log ++ [e] } { v with log := v.log ++ [e] }
  put {w v} (now : Instant) (id : DriverId) (p : GeoPoint)
    (status : DriverStatus) : R w v →
    R { w with index := (DriverIndex.put now id p status w.index).2 }
      { v with index := (DriverIndex.put now id p status v.index).2 }
  remove {w v} (id : DriverId) : R w v →
    R { w with index := (DriverIndex.remove id w.index).2 }
      { v with index := (DriverIndex.remove id v.index).2 }

/-- The relation also lasts through the search for drivers, and through requests
of riders who may make one. -/
structure World.MatchPaired (MayRequest : RiderId → Prop)
    (R : World σ → World σ → Prop) : Prop extends World.Paired R where
  drawn_eq {w v} : R w v → v.drawn = w.drawn
  draw {w v} : R w v → R { w with
    drawn := w.drawn + 1 } { v with drawn := v.drawn + 1 }
  request {w v} {r : Ride} {s' : Store} : R w v → MayRequest r.rider →
    w.store.insertRide r = .ok (true, s') →
    R { w with store := s' } { v with store := s' }
  nearest_eq {w v} (p : GeoPoint) (count : Nat) (radiusKm : Float) : R w v →
    (DriverIndex.nearest p count radiusKm v.index).1 =
      (DriverIndex.nearest p count radiusKm w.index).1
  nearest {w v} (p : GeoPoint) (count : Nat) (radiusKm : Float) : R w v →
    R { w with index := (DriverIndex.nearest p count radiusKm w.index).2 }
      { v with index := (DriverIndex.nearest p count radiusKm v.index).2 }
  claim_eq {w v} (p : GeoPoint) (count : Nat) (radiusKm : Float)
    {found : List Candidate} (policy : MatchingPolicy) (r : Ride) : R w v →
    (DriverIndex.nearest p count radiusKm w.index).1 = .ok found →
    (Dispatch.claimOneOf policy
        (.ofAdvanced (v.flags.isEnabled advancedMatching)) r found :
        Dispatch σ (Option Ride)) =
      Dispatch.claimOneOf policy
        (.ofAdvanced (w.flags.isEnabled advancedMatching)) r found

namespace Dispatch

variable {α : Type}

section Rules

variable {R : World σ → World τ → Prop}

variable (hR : World.Paired R)

include hR

theorem follows_now : Follows R now now := by
  intro w v h
  rw [runOn_now, runOn_now, hR.now_eq h]
  exact ⟨rfl, h⟩

theorem follows_flag {name : String} (hname : name ≠ advancedMatching) :
    Follows R (flag name) (flag name) := by
  intro w v h
  rw [runOn_flag, runOn_flag, hR.flag_eq h name hname]
  exact ⟨rfl, h⟩

theorem follows_publish (e : Event) : Follows R (publish e) (publish e) :=
  fun _ _ h => ⟨rfl, hR.publish e h⟩

theorem follows_query (look : Store → Except StoreFault α) :
    Follows R (query look) (query look) := by
  intro w v h
  rw [runOn_query, runOn_query, hR.store_eq h]
  cases look w.store <;> exact ⟨rfl, h⟩

theorem follows_write {change : Store → Written}
    (hchange : ∀ w v, R w v → ∀ applied s', change w.store = .ok (applied, s') →
      R { w with store := s' } { v with store := s' }) :
    Follows R (write change) (write change) := by
  intro w v h
  rw [runOn_write, runOn_write, hR.store_eq h]
  cases hwrite : change w.store with
  | error fault => exact ⟨rfl, h⟩
  | ok written => exact ⟨rfl, hchange w v h _ _ hwrite⟩

theorem follows_write_proceeds {change : Store → Written}
    (hchange : ∀ s applied s', change s = .ok (applied, s') → s.Proceeds s') :
    Follows R (write change) (write change) :=
  follows_write hR fun _ _ h _ _ hwrite => hR.write h (hchange _ _ _ hwrite)

theorem follows_driver (id : DriverId) : Follows R (driver id) (driver id) := by
  refine (follows_query hR _).bind fun found => ?_
  cases found with
  | none => exact follows_throw _
  | some d => exact follows_pure d

theorem follows_ride (id : RideId) : Follows R (ride id) (ride id) := by
  refine (follows_query hR _).bind fun found => ?_
  cases found with
  | none => exact follows_throw _
  | some r => exact follows_pure r

theorem follows_storeStep {r : Ride} {previous : RideStatus}
    (hactive : r.status.isActive = true → previous.isActive = true) :
    Follows R (storeStep r previous) (storeStep r previous) :=
  (follows_write_proceeds hR fun _ _ _ =>
    Store.proceeds_of_advanceRide hactive).bind fun _ => follows_refusal _ _

theorem follows_storePing (id : DriverId) (p : GeoPoint) (at_ : Instant) :
    Follows R (storePing id p at_) (storePing id p at_) :=
  (follows_write_proceeds hR fun _ _ _ => Store.proceeds_of_changeDriver).bind
    fun _ => follows_refusal _ _

theorem follows_publishPing (d : Driver) (ping : Ping) (at_ : Instant) :
    Follows R (publishPing d ping at_) (publishPing d ping at_) := by
  refine (follows_flag hR (by decide)).bind fun tracked => ?_
  split
  · exact follows_publish hR _
  · exact follows_pure ()

theorem follows_indexDriver (d : Driver) :
    Follows R (indexDriver d) (indexDriver d) := by
  unfold indexDriver
  cases d.location with
  | none => exact follows_pure ()
  | some p =>
      exact (follows_now hR).bind fun at_ =>
        fun _ _ h => ⟨rfl, hR.put at_ d.id p d.status h⟩

theorem follows_forgetDriver (id : DriverId) :
    Follows R (forgetDriver id) (forgetDriver id) :=
  fun _ _ h => ⟨rfl, hR.remove id h⟩

theorem follows_releaseDriver (id : DriverId)
    (free : Driver → Except StateError Driver) (expected : List DriverStatus) :
    Follows R (releaseDriver id free expected)
      (releaseDriver id free expected) := by
  refine (Follows.outcome ?_).bind fun _ => follows_pure ()
  refine (follows_driver hR id).bind fun before => ?_
  refine follows_bind_transition fun d _ => ?_
  have hwrite : Follows R (write (·.setDriverStatus d expected))
      (write (·.setDriverStatus d expected)) :=
    follows_write_proceeds hR fun _ _ _ => Store.proceeds_of_changeDriver
  refine hwrite.bind fun applied => ?_
  split
  · exact follows_indexDriver hR d
  · exact follows_pure ()

/-! ## Rides that have a driver -/

theorem follows_startRide (id : RideId) (driver : DriverId) :
    Follows R (startRide id driver) (startRide id driver) := by
  refine (follows_ride hR id).bind fun before => ?_
  refine (follows_checkDriver _ _).bind fun _ => ?_
  refine (follows_now hR).bind fun at_ => ?_
  refine follows_bind_transition fun r _ => ?_
  refine (follows_storeStep hR fun _ => rfl).bind fun _ => ?_
  exact (follows_publish hR _).bind fun _ => follows_pure _

theorem follows_completeRide (id : RideId) (driver : DriverId)
    (fare : Decimal) :
    Follows R (completeRide id driver fare) (completeRide id driver fare) := by
  unfold completeRide
  dsimp only
  apply follows_guard
  intro _
  refine (follows_ride hR id).bind fun before => ?_
  refine (follows_checkDriver _ _).bind fun _ => ?_
  refine (follows_now hR).bind fun at_ => ?_
  refine follows_bind_transition fun r _ => ?_
  refine (follows_storeStep hR fun _ => rfl).bind fun _ => ?_
  refine (follows_releaseDriver hR _ _ _).bind fun _ => ?_
  exact (follows_publish hR _).bind fun _ => follows_pure _

theorem follows_cancelRide (id : RideId) (initiatedBy : String) :
    Follows R (cancelRide id initiatedBy) (cancelRide id initiatedBy) := by
  refine (follows_ride hR id).bind fun before => ?_
  refine (follows_now hR).bind fun at_ => ?_
  refine follows_bind_transition fun r hr => ?_
  have hcancelled : r.status = .cancelled := by rw [(Ride.cancel_eq_ok.1 hr).2]
  refine (follows_storeStep hR fun h => by rw [hcancelled] at h; cases h).bind
    fun _ => ?_
  cases r.driver with
  | none => exact (follows_publish hR _).bind fun _ => follows_pure _
  | some driver =>
      refine (follows_releaseDriver hR _ _ _).bind fun _ => ?_
      exact (follows_publish hR _).bind fun _ => follows_pure _

/-! ## Drivers -/

theorem follows_registerDriver (n : NewDriver) :
    Follows R (registerDriver n) (registerDriver n) := by
  unfold registerDriver
  dsimp only
  apply follows_guard
  intro _
  refine (follows_now hR).bind fun at_ => ?_
  refine (follows_write_proceeds hR fun _ _ _ =>
    Store.proceeds_of_insertDriver).bind fun _ => ?_
  exact follows_guard fun _ => follows_pure _

theorem follows_nearbyDrivers (p : GeoPoint) (radiusKm : Float) :
    Follows R (nearbyDrivers p radiusKm) (nearbyDrivers p radiusKm) := by
  unfold nearbyDrivers
  dsimp only
  apply follows_guard
  intro _
  refine (follows_now hR).bind fun at_ => ?_
  exact (follows_query hR _).bind fun drivers => follows_pure _

theorem follows_updateLocation (id : DriverId) (ping : Ping) :
    Follows R (updateLocation id ping) (updateLocation id ping) := by
  refine (follows_now hR).bind fun at_ => ?_
  refine (follows_driver hR id).bind fun before => ?_
  refine (follows_storePing hR _ _ _).bind fun _ => ?_
  refine (follows_indexDriver hR _).bind fun _ => ?_
  exact (follows_publishPing hR _ _ _).bind fun _ => follows_pure _

theorem follows_goOnline (id : DriverId) (place : Option GeoPoint) :
    Follows R (goOnline id place) (goOnline id place) := by
  refine (follows_driver hR id).bind fun before => ?_
  refine (follows_now hR).bind fun at_ => ?_
  refine follows_bind_transition fun d _ => ?_
  have hstatus (expected : List DriverStatus) :
      Follows R (write (·.setDriverStatus d expected))
        (write (·.setDriverStatus d expected)) :=
    follows_write_proceeds hR fun _ _ _ => Store.proceeds_of_changeDriver
  cases place with
  | none =>
      refine (hstatus _).bind fun applied => follows_guard fun _ => ?_
      exact (follows_indexDriver hR d).bind fun _ => follows_pure d
  | some p =>
      refine (follows_storePing hR _ _ _).bind fun _ => ?_
      refine (hstatus _).bind fun applied => follows_guard fun _ => ?_
      refine (follows_indexDriver hR d).bind fun _ => ?_
      exact (follows_publishPing hR _ _ _).bind fun _ => follows_pure d

theorem follows_goOffline (id : DriverId) :
    Follows R (goOffline id) (goOffline id) := by
  refine (follows_driver hR id).bind fun before => ?_
  refine (follows_now hR).bind fun at_ => ?_
  refine (follows_write_proceeds hR fun _ _ _ =>
    Store.proceeds_of_changeDriver).bind fun _ => ?_
  exact follows_guard fun _ =>
    (follows_forgetDriver hR id).bind fun _ => follows_pure _

theorem follows_setEnRoute (id : DriverId) :
    Follows R (setEnRoute id) (setEnRoute id) := by
  refine (follows_driver hR id).bind fun before => ?_
  refine (follows_now hR).bind fun at_ => ?_
  refine (follows_write_proceeds hR fun _ _ _ =>
    Store.proceeds_of_changeDriver).bind fun _ => ?_
  exact follows_guard fun _ =>
    (follows_indexDriver hR _).bind fun _ => follows_pure _

theorem follows_forceOffline (d : Driver) (cutoff at_ : Instant) :
    Follows R (forceOffline d cutoff at_) (forceOffline d cutoff at_) := by
  refine (follows_write_proceeds hR fun _ _ _ =>
    Store.proceeds_of_changeDriver).bind fun applied => ?_
  cases applied with
  | true => exact (follows_forgetDriver hR _).bind fun _ => follows_pure true
  | false => exact follows_pure false

theorem follows_forceAllOffline (cutoff at_ : Instant) (stale : List Driver)
    (report : SweepReport) :
    Follows R (forceAllOffline cutoff at_ stale report)
      (forceAllOffline cutoff at_ stale report) := by
  induction stale generalizing report with
  | nil => exact follows_pure report
  | cons d rest ih =>
    exact (follows_forceOffline hR d cutoff at_).outcome.bind fun result => ih _

theorem follows_sweepAt (policy : TrackingPolicy) (at_ : Instant) :
    Follows R (sweepAt policy at_) (sweepAt policy at_) :=
  (follows_query hR _).bind fun stale => follows_forceAllOffline hR _ _ stale _

end Rules

/-! ## Rides that have no driver yet -/

section Matching

variable {MayRequest : RiderId → Prop} {R : World σ → World σ → Prop}
  (hR : World.MatchPaired MayRequest R)

include hR

/-- Both indexes give the same answer. -/
theorem follows_nearest (p : GeoPoint) (count : Nat) (radiusKm : Float) :
    Follows R (askIndex (DriverIndex.nearest p count radiusKm))
      (askIndex (DriverIndex.nearest p count radiusKm)) := by
  intro w v h
  rw [runOn_askIndex, runOn_askIndex, hR.nearest_eq p count radiusKm h]
  exact ⟨rfl, hR.nearest p count radiusKm h⟩

theorem follows_assignRide (r : Ride) (id : DriverId) :
    Follows R (assignRide r id) (assignRide r id) := by
  have hP := hR.toPaired
  refine (follows_query hP _).bind fun found => ?_
  cases found with
  | none => exact follows_pure none
  | some d =>
      dsimp only
      split
      · exact follows_pure none
      · refine (follows_now hP).bind fun at_ => ?_
        refine follows_bind_transition fun accepted _ => ?_
        refine follows_bind_transition fun busy _ => ?_
        refine (follows_write_proceeds hP fun _ _ _ =>
          Store.proceeds_of_assignRide).bind fun applied => ?_
        split
        · exact follows_pure none
        · refine (follows_indexDriver hP busy).bind fun _ => ?_
          refine (follows_publish hP _).bind fun _ => ?_
          exact (follows_publish hP _).bind fun _ => follows_pure _

theorem follows_claimOneOf (policy : MatchingPolicy) (strategy : Strategy)
    (r : Ride) (candidates : List Candidate) :
    Follows R (claimOneOf policy strategy r candidates)
      (claimOneOf policy strategy r candidates) := by
  -- Every lost claim leaves fewer candidates, in related worlds.
  induction h : candidates.length using Nat.strongRecOn
      generalizing candidates with
  | ind n ih =>
      rw [claimOneOf]
      split
      · exact follows_pure none
      · rename_i chosen hchosen
        refine (follows_assignRide hR r chosen.driver).bind fun claimed => ?_
        cases claimed with
        | some accepted => exact follows_pure _
        | none =>
            dsimp only
            split
            · exact ih _ (h ▸ length_othersThan_lt hchosen) _ rfl
            · exact follows_pure none

/-- The strategies need not be the same, but what they come to is. -/
theorem follows_matchRide (policy : MatchingPolicy) (r : Ride) :
    Follows R (matchRide policy r) (matchRide policy r) := by
  unfold matchRide
  split
  · exact follows_pure none
  · intro w v h
    have hnearest :=
      hR.nearest_eq r.pickup policy.maxDrivers policy.maxRadiusKm h
    have hasked := hR.nearest r.pickup policy.maxDrivers policy.maxRadiusKm h
    rw [runOn_bind, runOn_bind, runOn_askIndex, runOn_askIndex, hnearest]
    cases hfound :
        (DriverIndex.nearest r.pickup policy.maxDrivers policy.maxRadiusKm
          w.index).1 with
    | error e => exact ⟨rfl, hasked⟩
    | ok found =>
        dsimp only [Except.mapError]
        rw [runOn_bind_ok (runOn_flag _ _), runOn_bind_ok (runOn_flag _ _)]
        dsimp only
        rw [hR.claim_eq _ _ _ policy r h hfound]
        exact follows_claimOneOf hR policy _ r found _ _ hasked

theorem follows_retryMatching (policy : MatchingPolicy) (id : RideId) :
    Follows R (retryMatching policy id) (retryMatching policy id) := by
  unfold retryMatching
  refine (follows_ride hR.toPaired id).bind fun r => ?_
  apply follows_guard
  intro _
  exact (follows_matchRide hR policy r).bind fun claimed => follows_pure _

theorem follows_estimateMinutes (setup : Setup) (start stop : GeoPoint) :
    Follows R (estimateMinutes setup start stop)
      (estimateMinutes setup start stop) := by
  refine (follows_flag hR.toPaired (by decide)).bind fun dynamic => ?_
  exact (follows_now hR.toPaired).bind fun at_ => follows_pure _

theorem follows_drawRideId (setup : Setup) :
    Follows R (drawRideId setup) (drawRideId setup) := by
  intro w v h
  refine ⟨?_, hR.draw h⟩
  show Except.ok (setup.rideId (v.drawn + 1)) =
    Except.ok (setup.rideId (w.drawn + 1))
  rw [hR.drawn_eq h]

theorem follows_insertRide {r : Ride} (hrider : MayRequest r.rider) :
    Follows R (write (·.insertRide r)) (write (·.insertRide r)) := by
  refine follows_write hR.toPaired fun w v h applied s' hwrite => ?_
  cases applied with
  | true => exact hR.request h hrider hwrite
  | false =>
      rw [Store.insertRide_unapplied hwrite]
      exact hR.write h (.refl _)

/-- A ride that was made is added, and offered to drivers. -/
theorem follows_request (policy : MatchingPolicy) {r : Ride}
    (hrider : MayRequest r.rider) (at_ : Instant) :
    let request : Dispatch σ Ride := do
      if !(← write (·.insertRide r)) then
        throw (.conflict (.riderHasRide r.rider))
      publishRide .requested r at_
      match ← outcome (matchRide policy r) with
      | .ok (some accepted) => return accepted
      | _ => return r
    Follows R request request := by
  refine (follows_insertRide hR hrider).bind fun applied => ?_
  apply follows_guard
  intro _
  refine (follows_publish hR.toPaired _).bind fun _ => ?_
  refine (follows_matchRide hR policy r).outcome.bind fun matched => ?_
  split
  · exact follows_pure _
  · exact follows_pure _

theorem follows_createRide (setup : Setup) {rider : RiderId}
    (hrider : isBlankText rider = false → MayRequest rider) (pickup : GeoPoint)
    (destination : Option GeoPoint) :
    Follows R (createRide setup rider pickup destination)
      (createRide setup rider pickup destination) := by
  unfold createRide
  dsimp only
  apply follows_guard
  intro hblank
  refine (follows_now hR.toPaired).bind fun at_ => ?_
  refine (follows_drawRideId hR setup).bind fun id => ?_
  have hrequest (estimate : Option Int) := follows_request hR setup.matching
    (r := { Ride.request id rider pickup destination at_ with
      estimateMinutes := estimate })
    (hrider (by simpa using hblank)) at_
  cases destination with
  | none => exact (follows_pure none).bind hrequest
  | some stop =>
      exact ((follows_estimateMinutes hR setup pickup stop).map some).bind
        hrequest

end Matching

end Dispatch

/-- In related worlds a call comes to the same outcome and leaves related
worlds, unless it is a request of someone who may make none. -/
theorem ServiceCall.follows_perform {MayRequest : RiderId → Prop}
    {R : World σ → World σ → Prop} (hR : World.MatchPaired MayRequest R)
    (setup : Setup) {c : ServiceCall}
    (hc : ∀ rider pickup destination hpickup,
      c = .createRide rider pickup destination hpickup →
        isBlankText rider = false → MayRequest rider) :
    Dispatch.Follows R (c.perform setup) (c.perform setup) := by
  have hP := hR.toPaired
  cases c with
  | createRide rider pickup destination hpickup =>
      exact (Dispatch.follows_createRide hR setup (hc _ _ _ _ rfl) pickup
        destination).map _
  | retryMatching id => exact (Dispatch.follows_retryMatching hR _ id).map _
  | matchRide r => exact (Dispatch.follows_matchRide hR _ r).map _
  | assignRide r driver => exact (Dispatch.follows_assignRide hR r driver).map _
  | startRide id driver => exact (Dispatch.follows_startRide hP id driver).map _
  | completeRide id driver fare =>
      exact (Dispatch.follows_completeRide hP id driver fare).map _
  | cancelRide id initiatedBy =>
      exact (Dispatch.follows_cancelRide hP id initiatedBy).map _
  | registerDriver n => exact (Dispatch.follows_registerDriver hP n).map _
  | updateLocation id ping hping =>
      exact (Dispatch.follows_updateLocation hP id ping).map _
  | goOnline id place hplace =>
      exact (Dispatch.follows_goOnline hP id place).map _
  | goOffline id => exact (Dispatch.follows_goOffline hP id).map _
  | setEnRoute id => exact (Dispatch.follows_setEnRoute hP id).map _
  | sweep at_ => exact (Dispatch.follows_sweepAt hP _ at_).map _

/-! ## What calls keep of the rides -/

variable {MayRequest : RiderId → Prop} {P : Store → Prop}

/-- The writes of rides keep a property of stores, if only those request rides
who may. -/
structure Store.KeptForRides (MayRequest : RiderId → Prop)
    (P : Store → Prop) : Prop where
  proceeds {s s'} : P s → s.Proceeds s' → P s'
  request {s r s'} : P s → MayRequest r.rider →
    s.insertRide r = .ok (true, s') → P s'

/-- A world beside itself, as long as its store is as it should be. -/
theorem World.matchPaired_self (hkept : Store.KeptForRides MayRequest P) :
    World.MatchPaired MayRequest fun w v : World σ => v = w ∧ P w.store where
  store_eq := by
    rintro w _ ⟨rfl, -⟩
    rfl
  now_eq := by
    rintro w _ ⟨rfl, -⟩
    rfl
  flag_eq := by
    rintro w _ ⟨rfl, -⟩ name -
    rfl
  write := by
    rintro w _ s' ⟨rfl, hP⟩ hwrite
    exact ⟨rfl, hkept.proceeds hP hwrite⟩
  publish := by
    rintro w _ e ⟨rfl, hP⟩
    exact ⟨rfl, hP⟩
  put := by
    rintro w _ now id p status ⟨rfl, hP⟩
    exact ⟨rfl, hP⟩
  remove := by
    rintro w _ id ⟨rfl, hP⟩
    exact ⟨rfl, hP⟩
  drawn_eq := by
    rintro w _ ⟨rfl, -⟩
    rfl
  draw := by
    rintro w _ ⟨rfl, hP⟩
    exact ⟨rfl, hP⟩
  request := by
    rintro w _ r s' ⟨rfl, hP⟩ hrider hwrite
    exact ⟨rfl, hkept.request hP hrider hwrite⟩
  nearest_eq := by
    rintro w _ p count radiusKm ⟨rfl, -⟩
    rfl
  nearest := by
    rintro w _ p count radiusKm ⟨rfl, hP⟩
    exact ⟨rfl, hP⟩
  claim_eq := by
    rintro w _ p count radiusKm found policy r ⟨rfl, -⟩ -
    rfl

/-- What the writes of rides keep, every run keeps in which only those request
rides who may. -/
theorem World.run_keeps_rides {setup : Setup}
    (hkept : Store.KeptForRides MayRequest P) {w : World σ} (hw : P w.store)
    {turns : List (Turn σ)}
    (hturns : ∀ t ∈ turns, ∀ rider pickup destination hpickup,
      t.call = .createRide rider pickup destination hpickup →
        isBlankText rider = false → MayRequest rider) :
    P (World.run setup w turns).store := by
  induction turns generalizing w with
  | nil => exact hw
  | cons t rest ih =>
      apply ih _ fun u hu => hturns u (List.mem_cons_of_mem t hu)
      have hcall :=
        ServiceCall.follows_perform (World.matchPaired_self hkept) setup
        (hturns t List.mem_cons_self) (t.begin w) (t.begin w) ⟨rfl, hw⟩
      show P ((t.begin w).after setup t.call).store
      rw [World.after_eq_perform]
      exact hcall.2.2

end

end Ridehail
