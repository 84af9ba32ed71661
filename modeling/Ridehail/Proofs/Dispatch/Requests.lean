import Ridehail.Proofs.Dispatch.Choice
import Ridehail.Proofs.Store.Exclusive

/-!
# What a request comes to

A request is answered with a ride whatever happens when the ride is offered, so
its outcome is decided before that: by the name of the rider, and by the store.
What remains of a request is then one equation, in which the search for a driver
starts in a world that has the new ride and the event of it, and nothing else
that was not there.

The search ends in one of two ways.  Someone is given the ride, which is the
last thing that happens; or nothing has happened but that the index was asked.
Which of the two it is, and who is given the ride, depends on the ride through
its identifier and its pickup alone.

## Main results

* `Dispatch.createRide_blank`, `createRide_conflict`, `createRide_runOn` — the
  three outcomes of a request.
* `Dispatch.matchRide_alike` — the two ends of a search, and that one of another
  record of the ride ends in the same way.
-/

namespace Ridehail

namespace World

variable {σ : Type}

/-- The minutes that a trip is estimated to take. -/
def estimate (setup : Setup) (w : World σ) (pickup stop : GeoPoint) : Int :=
  (if w.flags.isEnabled dynamicEta then setup.eta else .straight).minutes
    w.now pickup stop

/-- The ride that is made for a request. -/
def newRide (setup : Setup) (w : World σ) (rider : RiderId) (pickup : GeoPoint)
    (destination : Option GeoPoint) : Ride :=
  { Ride.request (setup.rideId (w.drawn + 1)) rider pickup
    destination w.now with
    estimateMinutes := destination.map (w.estimate setup pickup) }

/-- The world with a ride that was requested and is not offered yet. -/
def withRequest (w : World σ) (r : Ride) : World σ :=
  { w with
    store := { w.store with rides := w.store.rides ++ [RideRow.ofRide r] }
    log := w.log ++ [.ride (.ofRide .requested r w.now)]
    drawn := w.drawn + 1 }

theorem fresh_newRide {pickup : GeoPoint} (hpickup : pickup.inRange = true)
    (setup : Setup) (w : World σ) (rider : RiderId)
    (destination : Option GeoPoint) :
    (w.newRide setup rider pickup destination).Fresh := by
  obtain ⟨hlat, hlng⟩ := GeoPoint.isNaN_of_inRange hpickup
  exact ⟨_, _, _, _, _, _, hlat, hlng, rfl⟩

end World

namespace Dispatch

variable {σ : Type} [DriverIndex σ] {w : World σ} {setup : Setup}
  {rider : RiderId} {pickup : GeoPoint} {destination : Option GeoPoint}

/-! ## The three outcomes of a request -/

/-- A rider without a name is refused before anything is done. -/
theorem createRide_blank (hblank : isBlankText rider = true) :
    (createRide setup rider pickup destination).runOn w =
      (.error (.validation .blankRider), w) := by
  unfold createRide
  dsimp only
  rw [if_pos hblank]
  rfl

omit [DriverIndex σ] in
/-- The estimate of a request, which is made before the store is asked. -/
theorem estimate_runOn (w : World σ) (setup : Setup) (pickup : GeoPoint)
    (destination : Option GeoPoint) {β : Type} (f : Option Int → Dispatch σ β) :
    (match destination with
      | some stop => (some <$> estimateMinutes setup pickup stop) >>= f
      | none => pure none >>= f).runOn w =
      (f (destination.map (w.estimate setup pickup))).runOn w := by
  cases destination with
  | none => rfl
  | some stop =>
      have hestimate : (some <$> estimateMinutes setup pickup stop).runOn w =
          (.ok (some (w.estimate setup pickup stop)), w) := by
        rw [runOn_map, estimateMinutes, runOn_bind_ok (runOn_flag w dynamicEta),
          runOn_bind_ok (runOn_now w)]
        rfl
      exact runOn_bind_ok hestimate

/-- Adds a ride that was made, and offers it. -/
def addRide (policy : MatchingPolicy) (r : Ride) (at_ : Instant) :
    Dispatch σ Ride := do
  if !(← write (·.insertRide r)) then throw (.conflict (.riderHasRide r.rider))
  publishRide .requested r at_
  match ← outcome (matchRide policy r) with
  | .ok (some accepted) => return accepted
  | _ => return r

/-- Before it adds the ride, a request does nothing but draw an identifier. -/
theorem createRide_eq (hnamed : isBlankText rider = false) :
    (createRide setup rider pickup destination).runOn w =
      (addRide setup.matching (w.newRide setup rider pickup destination)
        w.now).runOn { w with drawn := w.drawn + 1 } := by
  have hdraw : (drawRideId setup).runOn w =
      (.ok (setup.rideId (w.drawn + 1)), { w with drawn := w.drawn + 1 }) := rfl
  unfold createRide
  dsimp only
  rw [if_neg (by simp [hnamed]), runOn_bind_ok (runOn_now w),
    runOn_bind_ok hdraw]
  exact estimate_runOn _ setup pickup destination _

/-- A rider with an active ride is refused, and nothing is stored or
published. -/
theorem createRide_conflict (hnamed : isBlankText rider = false)
    (hactive : w.store.riderActive rider = true) :
    (createRide setup rider pickup destination).runOn w =
      (.error (.conflict (.riderHasRide rider)),
        { w with drawn := w.drawn + 1 }) := by
  have hwrite : w.store.insertRide (w.newRide setup rider pickup destination) =
      .ok (false, w.store) := if_pos hactive
  rw [createRide_eq hnamed, addRide]
  rw [runOn_bind_ok (write_eq_ok.2 ⟨_, hwrite, rfl⟩)]
  rfl

/-- A ride is added for everyone else, and whatever comes of offering it, the
request is answered with it. -/
theorem createRide_runOn (destination : Option GeoPoint)
    (hnamed : isBlankText rider = false)
    (hidle : w.store.riderActive rider = false)
    (hpickup : pickup.inRange = true)
    (hnew : w.store.ride? (setup.rideId (w.drawn + 1)) = none) :
    let r := w.newRide setup rider pickup destination
    let search := (matchRide setup.matching r).runOn (w.withRequest r)
    (createRide setup rider pickup destination).runOn w =
      (.ok (match search.1 with
        | .ok (some accepted) => accepted
        | _ => r), search.2) := by
  intro r search
  have hfree : ∀ row ∈ w.store.rides, ¬row.holdsRider rider = true :=
    List.any_eq_false.1 hidle
  obtain ⟨s', hwrite⟩ := Store.insertRide_of_applicable
    (World.fresh_newRide hpickup setup w rider destination) ⟨hfree, hnew⟩
  obtain ⟨-, -, -, rfl⟩ := Store.insertRide_applied hwrite
  rw [createRide_eq hnamed, addRide]
  rw [runOn_bind_ok (write_eq_ok.2 ⟨_, hwrite, rfl⟩),
    if_neg (by decide), publishRide, runOn_bind_ok (runOn_publish _ _),
    runOn_bind_ok (runOn_outcome _ _)]
  show (match search.1 with
    | .ok (some accepted) => (pure accepted : Dispatch σ Ride)
    | _ => pure r).runOn search.2 = _
  rcases search.1 with e | (_ | accepted) <;> rfl

/-! ## The two ends of a search -/

section Search

variable {r s : Ride}

/-- Offered to the same candidates, two records of a ride are given to the same
driver, or to nobody. -/
theorem claimOneOf_alike (hs : w.store.Lawful)
    (hread : ∀ row ∈ w.store.drivers, row.Readable) (hid : s.id = r.id)
    (hr : r.status = .requested) (hr' : s.status = .requested)
    (policy : MatchingPolicy) (strategy : Strategy)
    (candidates : List Candidate) :
    let one := (claimOneOf policy strategy r candidates).runOn w
    let two := (claimOneOf policy strategy s candidates).runOn w
    one = (.ok none, w) ∧ two = (.ok none, w) ∨
      ∃ id, w.store.Claimable id ∧ w.Gives r id one ∧ w.Gives s id two := by
  -- An offer is decided by the store and the identifier of the ride, and a lost
  -- one leaves the same world and the same candidates for both records.
  induction h : candidates.length using Nat.strongRecOn
      generalizing candidates with
  | ind n ih =>
      rw [claimOneOf, claimOneOf]
      split
      · exact .inl ⟨rfl, rfl⟩
      · rename_i chosen hchosen
        have hrow (row : DriverRow) (hmem : row ∈ w.store.drivers)
            (_ : row.id = chosen.driver) :=
          hread row hmem
        by_cases hwins : w.store.Claimable chosen.driver ∧ w.store.Awaits r.id
        · obtain ⟨d, p, hfind, hplace, hone⟩ :=
            assignRide_gives hs hr hrow hwins.1 hwins.2
          obtain ⟨d', p', hfind', hplace', htwo⟩ :=
            assignRide_gives hs hr' hrow hwins.1 (hid ▸ hwins.2)
          refine .inr ⟨chosen.driver, hwins.1, ⟨d, p, hfind, hplace, ?_⟩,
            d', p', hfind', hplace', ?_⟩
          · rw [runOn_bind_ok hone]
            rfl
          · rw [runOn_bind_ok htwo]
            rfl
        · have hone := assignRide_lost hs hrow hr hwins
          have htwo := assignRide_lost hs hrow hr' (hid.symm ▸ hwins)
          rw [runOn_bind_ok hone, runOn_bind_ok htwo]
          dsimp only
          split
          · exact ih _ (h ▸ length_othersThan_lt hchosen) _ rfl
          · exact .inl ⟨rfl, rfl⟩

/-- The world after the index was asked for candidates. -/
def asked (policy : MatchingPolicy) (r : Ride) (w : World σ) : World σ :=
  { w with
    index :=
      (DriverIndex.nearest r.pickup policy.maxDrivers
        policy.maxRadiusKm w.index).2 }

/-- A search asks the index, and offers the ride to those whom it answers
with. -/
theorem matchRide_runOn (hr : r.status = .requested) (policy : MatchingPolicy)
    (w : World σ) :
    (matchRide policy r).runOn w =
      match (DriverIndex.nearest r.pickup policy.maxDrivers policy.maxRadiusKm
        w.index).1 with
      | .ok found =>
          (claimOneOf policy (.ofAdvanced (w.flags.isEnabled advancedMatching))
            r found).runOn (asked policy r w)
      | .error e => (.error (.externalService e), asked policy r w) := by
  unfold matchRide
  rw [if_neg (by simp [hr]), runOn_bind, runOn_askIndex]
  cases (DriverIndex.nearest r.pickup policy.maxDrivers policy.maxRadiusKm
      w.index).1 with
  | error e => rfl
  | ok found => exact runOn_bind_ok (runOn_flag _ advancedMatching)

/-- The end of a search that gives the ride to nobody. -/
def unmatched (policy : MatchingPolicy) (r : Ride) (w : World σ) :
    Except DispatchError (Option Ride) × World σ :=
  (match (DriverIndex.nearest r.pickup policy.maxDrivers policy.maxRadiusKm
    w.index).1 with
    | .ok _ => .ok none
    | .error e => .error (.externalService e), asked policy r w)

theorem unmatched_ne (policy : MatchingPolicy) (r : Ride) (w : World σ)
    (accepted : Ride) :
    (unmatched policy r w).1 ≠ .ok (some accepted) := by
  unfold unmatched
  cases (DriverIndex.nearest r.pickup policy.maxDrivers policy.maxRadiusKm
    w.index).1 <;> nofun

/-- A search gives the ride to a driver who can be claimed, or does nothing.
With another record of the ride, for which the index gives the same answer, it
ends in the same way. -/
theorem matchRide_alike (hs : w.store.Lawful)
    (hread : ∀ row ∈ w.store.drivers, row.Readable) (hid : s.id = r.id)
    (hr : r.status = .requested) (hr' : s.status = .requested)
    (policy : MatchingPolicy)
    (hnearest : DriverIndex.nearest s.pickup policy.maxDrivers
      policy.maxRadiusKm w.index =
      DriverIndex.nearest r.pickup policy.maxDrivers
        policy.maxRadiusKm w.index) :
    let one := (matchRide policy r).runOn w
    let two := (matchRide policy s).runOn w
    one = unmatched policy r w ∧ two = unmatched policy r w ∨
      ∃ id, w.store.Claimable id ∧ (asked policy r w).Gives r id one ∧
        (asked policy r w).Gives s id two := by
  intro one two
  have hsame : asked policy s w = asked policy r w := by
    rw [asked, asked, hnearest]
  have hone : one = _ := matchRide_runOn hr policy w
  have htwo : two = _ := matchRide_runOn hr' policy w
  rw [hnearest, hsame] at htwo
  rw [unmatched]
  cases hfound :
      (DriverIndex.nearest r.pickup policy.maxDrivers policy.maxRadiusKm
        w.index).1 with
  | error e =>
      rw [hfound] at hone htwo
      exact .inl ⟨hone, htwo⟩
  | ok found =>
      rw [hfound] at hone htwo
      have hoffers :=
        claimOneOf_alike (w := asked policy r w) hs hread hid hr hr' policy
        (.ofAdvanced (w.flags.isEnabled advancedMatching)) found
      rw [hone, htwo]
      exact hoffers

end Search

end Dispatch

end Ridehail
