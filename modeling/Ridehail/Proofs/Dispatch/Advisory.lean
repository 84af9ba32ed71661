import Ridehail.Proofs.Dispatch.Paired

/-!
# The index outside matching

Apart from the search for a driver, the service tells the index things and asks
it nothing.  What comes of a call is then the same whatever the index holds and
whatever it does with what it is told, and this is a statement about two runs:
one with an index, and one with another index, which may be of another kind.

The two runs are kept together by `Dispatch.Agrees`: from worlds that differ in
the index alone, two operations come to the same outcome, and to worlds that
again differ in the index alone.  Nothing that the service does to a world
depends on the index, so worlds that differ in nothing else are a pair, and
every operation follows suit.

## Main results

* `World.paired_withIndex` — what the service does keeps such worlds together.
* `World.index_advisory` — two runs of the same calls answer the same, and leave
  the same store and the same events.
-/

namespace Ridehail

/-- The world with another index, which may be of another kind. -/
def World.withIndex {σ τ : Type} (w : World σ) (index : τ) : World τ :=
  { store := w.store, index, flags := w.flags, log := w.log, now := w.now,
    drawn := w.drawn }

namespace Dispatch

variable {σ τ α : Type}

/-- Two operations that come to the same, whatever the index is in either
world. -/
def Agrees (x : Dispatch σ α) (y : Dispatch τ α) : Prop :=
  ∀ (w : World σ) (i : τ), ∃ j,
    y.runOn (w.withIndex i) = ((x.runOn w).1, (x.runOn w).2.withIndex j)

/-- Operations agree if one follows the other wherever only the index
differs. -/
theorem Follows.agrees {x : Dispatch σ α} {y : Dispatch τ α}
    (h : Follows (fun w v => ∃ i, v = w.withIndex i) x y) : Agrees x y := by
  intro w i
  obtain ⟨hsame, j, hnext⟩ := h w (w.withIndex i) ⟨i, rfl⟩
  exact ⟨j, Prod.ext hsame hnext⟩

end Dispatch

/-- Worlds that differ in the index alone do so still after what the service
does to both. -/
theorem World.paired_withIndex {σ τ : Type} [DriverIndex σ] [DriverIndex τ] :
    World.Paired fun (w : World σ) (v : World τ) => ∃ i, v = w.withIndex i where
  store_eq := by
    rintro w _ ⟨i, rfl⟩
    rfl
  now_eq := by
    rintro w _ ⟨i, rfl⟩
    rfl
  flag_eq := by
    rintro w _ ⟨i, rfl⟩ name -
    rfl
  write := by
    rintro w _ s' ⟨i, rfl⟩ -
    exact ⟨i, rfl⟩
  publish := by
    rintro w _ e ⟨i, rfl⟩
    exact ⟨i, rfl⟩
  put := by
    rintro w _ now id p status ⟨i, rfl⟩
    exact ⟨_, rfl⟩
  remove := by
    rintro w _ id ⟨i, rfl⟩
    exact ⟨_, rfl⟩

/-! ## Runs without matching -/

/-- The calls of the service that look for no driver. -/
inductive DirectCall where
  | registerDriver (n : NewDriver)
  | driver (id : DriverId)
  | updateLocation (id : DriverId) (ping : Ping)
  | goOnline (id : DriverId) (place : Option GeoPoint)
  | goOffline (id : DriverId)
  | setEnRoute (id : DriverId)
  | nearbyDrivers (p : GeoPoint) (radiusKm : Float)
  | sweepAt (at_ : Instant)
  | startRide (id : RideId) (driver : DriverId)
  | completeRide (id : RideId) (driver : DriverId) (fare : Decimal)
  | cancelRide (id : RideId) (initiatedBy : String)
  | ride (id : RideId)

/-- What such a call answers. -/
inductive DirectAnswer where
  | driver (d : Driver)
  | nearby (found : List NearbyDriver)
  | swept (report : SweepReport)
  | ride (r : Ride)

/-- A call, and the time and the flags when it is made. -/
structure DirectTurn where
  now : Instant
  flags : Flags := .none
  call : DirectCall

section

variable {σ τ : Type} [DriverIndex σ] [DriverIndex τ]

/-- What the service does on a call. -/
def DirectCall.perform (policy : TrackingPolicy) :
    DirectCall → Dispatch σ DirectAnswer
  | .registerDriver n => .driver <$> Dispatch.registerDriver n
  | .driver id => .driver <$> Dispatch.driver id
  | .updateLocation id ping => .driver <$> Dispatch.updateLocation id ping
  | .goOnline id place => .driver <$> Dispatch.goOnline id place
  | .goOffline id => .driver <$> Dispatch.goOffline id
  | .setEnRoute id => .driver <$> Dispatch.setEnRoute id
  | .nearbyDrivers p radiusKm => .nearby <$> Dispatch.nearbyDrivers p radiusKm
  | .sweepAt at_ => .swept <$> Dispatch.sweepAt policy at_
  | .startRide id who => .ride <$> Dispatch.startRide id who
  | .completeRide id who fare => .ride <$> Dispatch.completeRide id who fare
  | .cancelRide id initiatedBy => .ride <$> Dispatch.cancelRide id initiatedBy
  | .ride id => .ride <$> Dispatch.ride id

/-- Every one of these calls comes to the same with any two indexes. -/
theorem DirectCall.agrees_perform (policy : TrackingPolicy) (c : DirectCall) :
    Dispatch.Agrees (c.perform policy : Dispatch σ DirectAnswer)
      (c.perform policy : Dispatch τ DirectAnswer) := by
  have hP := World.paired_withIndex (σ := σ) (τ := τ)
  apply Dispatch.Follows.agrees
  cases c with
  | registerDriver n => exact .map (Dispatch.follows_registerDriver hP n) _
  | driver id => exact .map (Dispatch.follows_driver hP id) _
  | updateLocation id ping =>
      exact .map (Dispatch.follows_updateLocation hP id ping) _
  | goOnline id place => exact .map (Dispatch.follows_goOnline hP id place) _
  | goOffline id => exact .map (Dispatch.follows_goOffline hP id) _
  | setEnRoute id => exact .map (Dispatch.follows_setEnRoute hP id) _
  | nearbyDrivers p radiusKm =>
      exact .map (Dispatch.follows_nearbyDrivers hP p radiusKm) _
  | sweepAt at_ => exact .map (Dispatch.follows_sweepAt hP policy at_) _
  | startRide id driver =>
      exact .map (Dispatch.follows_startRide hP id driver) _
  | completeRide id driver fare =>
      exact .map (Dispatch.follows_completeRide hP id driver fare) _
  | cancelRide id initiatedBy =>
      exact .map (Dispatch.follows_cancelRide hP id initiatedBy) _
  | ride id => exact .map (Dispatch.follows_ride hP id) _

namespace World

/-- The world in which a turn makes its call, after something has happened to
the index. -/
def beginDirect (w : World σ) (t : DirectTurn) (disturb : σ → σ) : World σ :=
  { w with now := t.now, flags := t.flags, index := disturb w.index }

/-- The outcomes of some turns, and the world after them.  Before each turn
something may happen to the index. -/
def runDirect (policy : TrackingPolicy) (disturb : Nat → σ → σ) (w : World σ) :
    List DirectTurn → List (Except DispatchError DirectAnswer) × World σ
  | [] => ([], w)
  | t :: rest =>
      let result := (t.call.perform policy).runOn (w.beginDirect t (disturb 0))
      let others := runDirect policy (fun n => disturb (n + 1)) result.2 rest
      (result.1 :: others.1, others.2)

/-- Two runs of the same turns keep together, whatever happens to the two
indexes. -/
theorem runDirect_withIndex (policy : TrackingPolicy) (turns : List DirectTurn)
    (disturb : Nat → σ → σ) (disturbOther : Nat → τ → τ) (w : World σ) (i : τ) :
    ∃ j, runDirect policy disturbOther (w.withIndex i) turns =
      ((runDirect policy disturb w turns).1,
        (runDirect policy disturb w turns).2.withIndex j) := by
  induction turns generalizing disturb disturbOther w i with
  | nil => exact ⟨i, rfl⟩
  | cons t rest ih =>
      obtain ⟨j, hcall⟩ := DirectCall.agrees_perform (τ := τ) policy t.call
        (w.beginDirect t (disturb 0)) (disturbOther 0 i)
      obtain ⟨k, hrest⟩ :=
        ih (fun n => disturb (n + 1)) (fun n => disturbOther (n + 1))
        ((t.call.perform policy).runOn (w.beginDirect t (disturb 0))).2 j
      refine ⟨k, ?_⟩
      have hbegin : (w.withIndex i).beginDirect t (disturbOther 0) =
        (w.beginDirect t (disturb 0)).withIndex (disturbOther 0 i) := rfl
      simp only [runDirect, hbegin, hcall, hrest]

/-! ## The main result -/

/-- Take two runs of the same calls from the same store, at the same times and
with the same flags, with any two indexes, of which each may fail or refuse
whenever it likes and may be changed by others between any two calls.  Every
call has the same outcome in both, and the two runs leave the same store and the
same events. -/
theorem index_advisory (policy : TrackingPolicy) (turns : List DirectTurn)
    (w : World σ) (other : τ) (disturb : Nat → σ → σ)
    (disturbOther : Nat → τ → τ) :
    let one := runDirect policy disturb w turns
    let two := runDirect policy disturbOther (w.withIndex other) turns
    two.1 = one.1 ∧ two.2.store = one.2.store ∧ two.2.log = one.2.log := by
  intro one two
  obtain ⟨j, htwo⟩ :=
    runDirect_withIndex policy turns disturb disturbOther w other
  rw [show two = (one.1, one.2.withIndex j) from htwo]
  exact ⟨rfl, rfl, rfl⟩

end World

end

end Ridehail
