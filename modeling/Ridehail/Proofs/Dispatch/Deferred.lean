import Ridehail.Proofs.Dispatch.Creation
import Ridehail.Proofs.Geo.Zeros
import Ridehail.Proofs.Index.Nearest

/-!
# A request that is served later

While the index is offline a request is answered all the same, with a ride that
waits.  Offering the ride again when the index is back should make up for what
was missed.  The two ways differ in what they offer: a request offers the ride
that it has just made, and a later offer the one that it finds in the store.
Neither is the other.  The store takes the signs off the zeros of a coordinate,
so that the two records have the same numbers in them and need not be the same.

The difference shows nowhere but in the records themselves.  The search that
failed has left nothing behind, the index is asked for the same distances, and
whoever is offered a ride is found by its identifier.

## Main results

* `Dispatch.retryMatching_runOn` — a later offer of a ride that waits.
* `World.deferred_matches_immediate` — it comes to what the offer at once would
  have come to.
-/

namespace Ridehail

/-! ## The record that is found -/

/-- A ride as it is found after it was added. -/
def Ride.stored (r : Ride) : Ride :=
  { r with
    pickup := r.pickup.stored,
    destination := r.destination.map GeoPoint.stored }

/-- The record is the same if no coordinate is a zero with a sign. -/
theorem Ride.stored_eq_self {r : Ride} (hpickup : r.pickup.stored = r.pickup)
    (hdestination : r.destination.map GeoPoint.stored = r.destination) :
    r.stored = r := by
  rw [Ride.stored, hpickup, hdestination]

/-- The same event of a ride, between numerically the same points and for
numerically the same fare. -/
structure RideEvent.Same (e f : RideEvent) : Prop where
  kind : e.kind = f.kind
  ride : e.ride = f.ride
  rider : e.rider = f.rider
  driver : e.driver = f.driver
  pickup : e.pickup.Same f.pickup
  destination : Option.Rel GeoPoint.Same e.destination f.destination
  fare : Option.Rel (fun a b => Decimal.same a b = true) e.fare f.fare
  estimateMinutes : e.estimateMinutes = f.estimateMinutes
  durationMinutes : e.durationMinutes = f.durationMinutes
  initiatedBy : e.initiatedBy = f.initiatedBy
  timestamp : e.timestamp = f.timestamp

/-- The same event; only those of rides may differ in the form of their
numbers. -/
def Event.Same : Event → Event → Prop
  | .ride e, .ride f => e.Same f
  | e, f => e = f

theorem Ride.Same.ofRide {r s : Ride} (h : r.Same s) (kind : RideEventKind)
    (at_ : Instant) :
    Event.Same (.ride (.ofRide kind r at_)) (.ride (.ofRide kind s at_)) := by
  have hduration : r.durationMinutes = s.durationMinutes := by
    rw [Ride.durationMinutes, Ride.durationMinutes, h.startedAt, h.completedAt]
  exact ⟨rfl, h.id, h.rider, h.driver, h.pickup, h.destination, h.fare,
    h.estimateMinutes, hduration, rfl, rfl⟩

theorem Ride.same_self {r : Ride} (hpickup : r.pickup.inRange = true)
    (hdestination : ∀ p ∈ r.destination, p.inRange = true) : r.Same r := by
  have hfare : Option.Rel (fun a b => Decimal.same a b = true)
      r.fare r.fare := by
    cases r.fare with
    | none => exact .none
    | some d => exact .some d.same_refl
  exact ⟨rfl, rfl, rfl, GeoPoint.same_self hpickup, rel_same_self hdestination,
    rfl, hfare, rfl, rfl, rfl, rfl, rfl, rfl, rfl⟩

theorem Ride.Same.acceptedBy {r s : Ride} (h : r.Same s) (id : DriverId)
    (at_ : Instant) :
    (r.acceptedBy id at_).Same (s.acceptedBy id at_) :=
  ⟨h.id, h.rider, rfl, h.pickup, h.destination, rfl, h.fare, h.estimateMinutes,
    h.createdAt, rfl, h.startedAt, h.completedAt, h.cancelledAt, rfl⟩

namespace RideRow

variable {r : Ride}

/-- What is read from the row of a ride without a fare. -/
theorem read_ofRide (hfare : r.fare = none) (hpickup : r.pickup.inRange = true)
    (hdestination : ∀ p ∈ r.destination, p.inRange = true) :
    (ofRide r).read = .ok r.stored := by
  obtain ⟨-, -, hmake⟩ := GeoPoint.columns_of_inRange hpickup
  have hamount : amountOfColumn (r.fare.map Decimal.text) = .ok none := by
    rw [hfare]; rfl
  refine read_eq_ok_iff.2
    ⟨_, _, none, hmake, pointOfColumns_of_inRange hdestination, hamount, ?_⟩
  rw [← hfare]
  rfl

end RideRow

/-- What is found is the ride that was added. -/
theorem Ride.same_stored {r : Ride} (hfare : r.fare = none)
    (hpickup : r.pickup.inRange = true)
    (hdestination : ∀ p ∈ r.destination, p.inRange = true) :
    r.Same r.stored := by
  obtain ⟨s, hread, hsame⟩ := RideRow.shows_ofRide hpickup hdestination
  cases (RideRow.read_ofRide hfare hpickup hdestination).symm.trans hread
  exact hsame

namespace Dispatch

variable {σ : Type} [DriverIndex σ] {setup : Setup} {w : World σ}
  {rider : RiderId} {pickup : GeoPoint} {destination : Option GeoPoint}

/-! ## The two offers -/

/-- A later offer of a ride that waits is answered with the ride. -/
theorem retryMatching_runOn {id : RideId} {r : Ride}
    (hfind : w.store.findRide id = .ok (some r)) (hr : r.status = .requested)
    {policy : MatchingPolicy} {found : Option Ride} {next : World σ}
    (h : (matchRide policy r).runOn w = (.ok found, next)) :
    (retryMatching policy id).runOn w = (.ok (found.getD r), next) := by
  rw [retryMatching, runOn_bind_ok (ride_eq_ok.2 ⟨hfind, rfl⟩),
    if_neg (by simp [hr])]
  show (matchRide policy r >>= fun found => pure (found.getD r)).runOn w = _
  rw [runOn_bind_ok h]
  rfl

/-- A request whose search does not fail is answered with the ride. -/
theorem createRide_searched (hnamed : isBlankText rider = false)
    (hidle : w.store.riderActive rider = false)
    (hpickup : pickup.inRange = true)
    (hnew : w.store.ride? (setup.rideId (w.drawn + 1)) = none)
    {found : Option Ride} {next : World σ}
    (h : (matchRide setup.matching
      (w.newRide setup rider pickup destination)).runOn
      (w.withRequest (w.newRide setup rider pickup destination)) =
      (.ok found, next)) :
    (createRide setup rider pickup destination).runOn w =
      (.ok (found.getD (w.newRide setup rider pickup destination)), next) := by
  rw [createRide_runOn destination hnamed hidle hpickup hnew, h]
  cases found <;> rfl

/-- Two searches that started in the same world have come to the same, for two
records of a ride. -/
structure SameEnd (w : World σ)
    (one two : Except DispatchError (Option Ride) × World σ) : Prop where
  answer : ∃ found found', one.1 = .ok found ∧ two.1 = .ok found' ∧
    Option.Rel Ride.Same found found'
  store : two.2.store = one.2.store
  index : two.2.index = one.2.index
  log : ∃ published published', one.2.log = w.log ++ published ∧
    two.2.log = w.log ++ published' ∧
    List.Forall₂ Event.Same published published'

/-- A search does not depend on the form of the numbers of a ride, as long as
the index does not. -/
theorem matchRide_sameEnd (hs : w.store.Lawful)
    (hread : ∀ row ∈ w.store.drivers, row.Readable) {r s : Ride}
    (hsame : r.Same s) (hr : r.status = .requested) (policy : MatchingPolicy)
    {found : List Candidate}
    (hfound :
      (DriverIndex.nearest r.pickup policy.maxDrivers
        policy.maxRadiusKm w.index).1 =
      .ok found)
    (hnearest : DriverIndex.nearest s.pickup policy.maxDrivers
      policy.maxRadiusKm w.index =
      DriverIndex.nearest r.pickup policy.maxDrivers
        policy.maxRadiusKm w.index) :
    SameEnd w ((matchRide policy r).runOn w)
      ((matchRide policy s).runOn w) := by
  rcases matchRide_alike hs hread hsame.id.symm hr (hsame.status ▸ hr)
      policy hnearest with
    ⟨hone, htwo⟩ | ⟨id, -, ⟨d, p, hd, hp, hone⟩, d', p', hd', hp', htwo⟩
  · have hnobody : (unmatched policy r w).1 = .ok none := by
      rw [unmatched, hfound]
    rw [hone, htwo]
    exact ⟨⟨none, none, hnobody, hnobody, .none⟩, rfl, rfl, [], [], by
      simp [unmatched, asked]⟩
  · -- Both offers read the record of the same driver.
    cases hd.symm.trans hd'
    cases hp.symm.trans hp'
    have haccepted := hsame.acceptedBy id w.now
    have hassigned :
        w.store.assigned (s.acceptedBy id w.now) (d.withStatus .busy w.now) =
        w.store.assigned (r.acceptedBy id w.now)
          (d.withStatus .busy w.now) := by
      simp only [Store.assigned, haccepted.id, haccepted.status,
        haccepted.acceptedAt, haccepted.updatedAt]
    rw [hone, htwo]
    refine ⟨⟨_, _, rfl, rfl, .some haccepted⟩, hassigned, rfl, _,
      _, rfl, rfl, ?_⟩
    exact .cons (haccepted.ofRide .accepted w.now) (.cons (hsame.id ▸ rfl) .nil)

end Dispatch

/-! ## The index in memory -/

/-- A stored point has the same drivers near it as the point. -/
theorem MemoryIndex.nearest_stored {p : GeoPoint}
    (htrig : p.stored ≠ p → TrigOfZero) (count : Nat) (radiusKm : Float)
    (i : MemoryIndex) :
    DriverIndex.nearest p.stored count radiusKm i =
      DriverIndex.nearest p count radiusKm i := by
  by_cases hsame : p.stored = p
  · rw [hsame]
  · have hcandidate : candidate p.stored = candidate p :=
      funext fun e => by
        rw [candidate, candidate, haversineKm_stored (htrig hsame)]
    rw [nearest_eq, nearest_eq, nearestOf, nearestOf, qualifying,
      qualifying, hcandidate]

theorem MemoryIndex.nearest_online {i : MemoryIndex} (h : i.failing = false)
    (p : GeoPoint) (count : Nat) (radiusKm : Float) :
    (DriverIndex.nearest p count radiusKm i).1 =
      .ok (nearestOf i.entries p count radiusKm) := by
  rw [nearest_eq, h]
  rfl

namespace World

open Dispatch

variable {setup : Setup} {w : World MemoryIndex} {rider : RiderId}
  {pickup : GeoPoint} {destination : Option GeoPoint}

/-- The world with its index taken offline, or back. -/
def withOffline (w : World MemoryIndex) (failing : Bool) : World MemoryIndex :=
  { w with index := { w.index with failing } }

/-- While the index is offline a request adds the ride, which waits, and does
nothing else. -/
theorem createRide_offline (hnamed : isBlankText rider = false)
    (hidle : w.store.riderActive rider = false)
    (hpickup : pickup.inRange = true)
    (hnew : w.store.ride? (setup.rideId (w.drawn + 1)) = none) :
    let r := w.newRide setup rider pickup destination
    (createRide setup rider pickup destination).runOn (w.withOffline true) =
      (.ok r, (w.withRequest r).withOffline true) := by
  have hrun :=
    createRide_runOn (w := w.withOffline true) destination hnamed
      hidle hpickup hnew
  rw [hrun, matchRide_runOn rfl]
  rfl

theorem withOffline_twice (h : w.index.failing = false) :
    (w.withOffline true).withOffline false = w := by
  show { w with index := { w.index with failing := false } } = w
  rw [← h]

/-- The ride that was added is found, as it was stored. -/
theorem findRide_withRequest {r : Ride} (hs : (w.withRequest r).store.Sound)
    (hfare : r.fare = none) (hpickup : r.pickup.inRange = true)
    (hdestination : ∀ p ∈ r.destination, p.inRange = true) :
    (w.withRequest r).store.findRide r.id = .ok (some r.stored) := by
  have hrow : RideRow.ofRide r ∈ (w.withRequest r).store.rides :=
    List.mem_append_right _ List.mem_cons_self
  exact Store.findRide_eq_some.2 ⟨RideRow.ofRide r, hs.lawful.ride?_eq hrow,
    RideRow.read_ofRide hfare hpickup hdestination⟩

/-! ## The main result -/

/-- A request that is made while the index is offline, and a later offer of its
ride with the index back, leave the same store and the same index as the request
leaves with the index online.  What is published and what is answered in the end
is equal as well.  It is equal as numbers, as a zero coordinate may have lost
its sign in the store; without such coordinates nothing differs. -/
theorem deferred_matches_immediate (hw : w.Reachable setup)
    (honline : w.index.failing = false) {rider : RiderId}
    (hnamed : isBlankText rider = false)
    (hidle : w.store.riderActive rider = false) {pickup : GeoPoint}
    (hpickup : pickup.inRange = true) (destination : Option GeoPoint)
    (hdestination : ∀ p ∈ destination, p.inRange = true)
    (hnew : w.store.ride? (setup.rideId (w.drawn + 1)) = none)
    (htrig : pickup.stored ≠ pickup → TrigOfZero) :
    ∃ early one pending down late two,
      (createRide setup rider pickup destination).runOn w = (.ok early, one) ∧
      (createRide setup rider pickup destination).runOn (w.withOffline true) =
        (.ok pending, down) ∧
      (retryMatching setup.matching pending.id).runOn (down.withOffline false) =
        (.ok late, two) ∧
      two.store = one.store ∧ two.index = one.index ∧
      (∃ published published', one.log = w.log ++ published ∧
        two.log = w.log ++ published' ∧
        List.Forall₂ Event.Same published published') ∧
      early.Same late ∧
      (pickup.stored = pickup → destination.map GeoPoint.stored = destination →
        late = early ∧ two = one) := by
  let r := w.newRide setup rider pickup destination
  have hback : ((w.withRequest r).withOffline true).withOffline false =
      w.withRequest r :=
    withOffline_twice honline
  have hs : (w.withRequest r).store.Sound :=
    sound_withRequest hw.sound hidle hpickup hnew
  have hfind := findRide_withRequest hs rfl hpickup hdestination
  have hsame : r.Same r.stored := Ride.same_stored rfl hpickup hdestination
  have hrequested :=
    (Ride.same_self (r := r) hpickup hdestination).ofRide .requested w.now
  have hsearches :=
    matchRide_sameEnd hs.lawful hs.readable hsame rfl setup.matching
    (MemoryIndex.nearest_online honline _ _ _)
    (MemoryIndex.nearest_stored htrig _ _ _)
  rcases hearly : (matchRide setup.matching r).runOn (w.withRequest r) with
    ⟨answer, one⟩
  rcases hlate : (matchRide setup.matching r.stored).runOn (w.withRequest r)
    with ⟨answer', two⟩
  rw [hearly, hlate] at hsearches
  obtain ⟨⟨found, found', rfl, rfl, hfound⟩, hstore, hindex, published,
    published', hlog, hlog', hevents⟩ := hsearches
  refine ⟨found.getD r, one, r, _, found'.getD r.stored, two,
    createRide_searched hnamed hidle hpickup hnew hearly,
    createRide_offline hnamed hidle hpickup hnew, ?retried, hstore, hindex,
    ⟨_ :: published, _ :: published', ?_, ?_,
    .cons hrequested hevents⟩, ?answered, ?plain⟩
  case retried =>
    rw [hback]
    exact retryMatching_runOn hfind rfl hlate
  case answered =>
    cases hfound with
    | none => exact hsame
    | some haccepted => exact haccepted
  case plain =>
    intro hplain hplain'
    have hstored : r.stored = r := Ride.stored_eq_self hplain hplain'
    rw [hstored, hearly] at hlate
    cases hlate
    exact ⟨by rw [hstored], rfl⟩
  · rw [hlog]
    exact List.append_assoc ..
  · rw [hlog']
    exact List.append_assoc ..

namespace Example

/-- One driver is online, and in the index. -/
def onDuty : World MemoryIndex :=
  run {} { index := {}, now := ⟨0⟩ }
    [{ now := ⟨1⟩, call := .registerDriver dana },
      { now := ⟨2⟩, call := .goOnline "d" (some place) inRange_some_place }]

theorem reachable_onDuty : onDuty.Reachable {} := reachable_run rfl _

theorem unused_onDuty :
    onDuty.store.ride? (RideId.ofSerial (onDuty.drawn + 1)) = none := by
  decide +kernel

theorem stored_place : place.stored = place := by decide

end Example

/-- In the example the places have no zeros, and nothing at all is different
later. -/
theorem deferred_matches_immediate_example :
    Example.onDuty.Reachable {} ∧ Example.onDuty.index.failing = false ∧
      Example.onDuty.store.riderActive "a" = false ∧
      Example.onDuty.store.ride? (RideId.ofSerial (Example.onDuty.drawn + 1)) =
        none ∧
      ∃ early one pending down,
        (createRide {} "a" Example.place none).runOn Example.onDuty =
          (.ok early, one) ∧
        (createRide {} "a" Example.place none).runOn
          (Example.onDuty.withOffline true) = (.ok pending, down) ∧
        (retryMatching {} pending.id).runOn (down.withOffline false) =
          (.ok early, one) := by
  have honline : Example.onDuty.index.failing = false := by decide +kernel
  have hnamed : isBlankText "a" = false := by decide
  have hidle : Example.onDuty.store.riderActive "a" = false := by decide +kernel
  obtain ⟨early, one, pending, down, late, two, hearly, hpending,
      hlate, -, -, -, -, hplain⟩ :=
    deferred_matches_immediate Example.reachable_onDuty honline hnamed hidle
      Example.inRange_place none (by simp) Example.unused_onDuty
      fun h => absurd Example.stored_place h
  obtain ⟨rfl, rfl⟩ := hplain Example.stored_place rfl
  exact ⟨Example.reachable_onDuty, honline, hidle, Example.unused_onDuty, late,
    two, pending, down, hearly, hpending, hlate⟩

end World

end Ridehail
