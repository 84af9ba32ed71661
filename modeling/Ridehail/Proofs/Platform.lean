import Ridehail.Platform
import Ridehail.Proofs.Dispatch.Paired

/-!
# The platform

An operation on the platform is made of operations on the world and computations
of prices.  The equations of this module say what each of the two does to the
platform.

Prices look at the world but are not part of it, so two platforms stand side by
side if their worlds are related, what pricing remembers is the same, and so is
the steady clock.  Everything that is true of related worlds carries over from
the operations on the world to those on the platform, and so to all calls that
the services take.

## Main results

* `Service.runOn_bind`, `runOn_onWorld`, `runOn_onSurge` — what operations do.
* `PlatformCall.follows_perform` — all calls, in related platforms.
-/

namespace Ridehail

/-- Two platforms stand side by side: their worlds are related, pricing
remembers the same, and their steady clocks agree. -/
structure Platform.Beside {σ : Type} (p : Platform σ)
    (R : World σ → World σ → Prop) (q : Platform σ) : Prop where
  world : R p.world q.world
  surge : q.surge = p.surge
  steady : q.steady = p.steady

namespace Service

variable {σ α β : Type}

/-! ## What operations do -/

theorem runOn_bind (x : Service σ α) (f : α → Service σ β) (p : Platform σ) :
    (x >>= f).runOn p =
      match x.runOn p with
      | (.ok a, next) => (f a).runOn next
      | (.error e, next) => (.error e, next) := by
  simp only [runOn, ExceptT.run_bind, StateT.run_bind]
  rcases x.run.run p with ⟨a | e, next⟩ <;> rfl

theorem runOn_map (x : Service σ α) (g : α → β) (p : Platform σ) :
    (g <$> x).runOn p = ((x.runOn p).1.map g, (x.runOn p).2) := by
  rw [← bind_pure_comp, runOn_bind]
  rcases x.runOn p with ⟨e | a, next⟩ <;> rfl

theorem runOn_onWorld (x : Dispatch σ α) (p : Platform σ) :
    (onWorld x).runOn p =
      ((x.runOn p.world).1.mapError .dispatch,
        { p with world := (x.runOn p.world).2 }) := by
  have hget : (get : Service σ (Platform σ)).runOn p = (.ok p, p) := rfl
  rw [onWorld, runOn_bind, hget]
  dsimp only
  rcases x.runOn p.world with ⟨e | a, world⟩ <;> rfl

theorem runOn_onSurge (x : SurgeM α) (p : Platform σ) {a : α}
    {surge : SurgeState} (h : x.run p.surge = .ok (a, surge)) :
    (onSurge x).runOn p = (.ok a, { p with surge := surge }) := by
  have hget : (get : Service σ (Platform σ)).runOn p = (.ok p, p) := rfl
  rw [onSurge, runOn_bind, hget]
  dsimp only
  rw [h]
  rfl

/-- A computation of prices that overflows changes nothing. -/
theorem runOn_onSurge_error (x : SurgeM α) (p : Platform σ)
    {e : Decimal.Overflow} (h : x.run p.surge = .error e) :
    (onSurge x).runOn p = (.error (.overflow e), p) := by
  have hget : (get : Service σ (Platform σ)).runOn p = (.ok p, p) := rfl
  rw [onSurge, runOn_bind, hget]
  dsimp only
  rw [h]
  rfl

/-! ## Two platforms side by side -/

/-- In platforms that stand side by side the operations come to the same
outcome, and such platforms are left. -/
def Follows (R : World σ → World σ → Prop) (x y : Service σ α) : Prop :=
  ∀ p q : Platform σ, p.Beside R q →
    (y.runOn q).1 = (x.runOn p).1 ∧ (x.runOn p).2.Beside R (y.runOn q).2

section Rules

variable {R : World σ → World σ → Prop}

theorem follows_pure (a : α) : Follows R (pure a) (pure a) :=
  fun _ _ h => ⟨rfl, h⟩

theorem Follows.bind {x y : Service σ α} {f g : α → Service σ β}
    (hxy : Follows R x y) (hfg : ∀ a, Follows R (f a) (g a)) :
    Follows R (x >>= f) (y >>= g) := by
  intro p q h
  obtain ⟨hsame, hnext⟩ := hxy p q h
  rw [runOn_bind, runOn_bind]
  rcases hx : x.runOn p with ⟨e | a, next⟩
  · rw [hx] at hsame hnext
    rcases hy : y.runOn q with ⟨e' | b, other⟩ <;>
      rw [hy] at hsame hnext <;> cases hsame
    exact ⟨rfl, hnext⟩
  · rw [hx] at hsame hnext
    rcases hy : y.runOn q with ⟨e' | b, other⟩ <;>
      rw [hy] at hsame hnext <;> cases hsame
    exact hfg a next other hnext

theorem Follows.map {x y : Service σ α} (h : Follows R x y) (g : α → β) :
    Follows R (g <$> x) (g <$> y) := by
  intro p q hbeside
  rw [runOn_map, runOn_map, (h p q hbeside).1]
  exact ⟨rfl, (h p q hbeside).2⟩

theorem follows_onWorld {x y : Dispatch σ α} (h : Dispatch.Follows R x y) :
    Follows R (onWorld x) (onWorld y) := by
  intro p q hbeside
  obtain ⟨hsame, hnext⟩ := h p.world q.world hbeside.world
  rw [runOn_onWorld, runOn_onWorld, hsame]
  exact ⟨rfl, hnext, hbeside.surge, hbeside.steady⟩

theorem follows_onSurge (x : SurgeM α) : Follows R (onSurge x) (onSurge x) := by
  intro p q hbeside
  have hsurge := hbeside.surge
  cases hx : x.run p.surge with
  | error e =>
      rw [runOn_onSurge_error x p hx, runOn_onSurge_error x q (hsurge ▸ hx)]
      exact ⟨rfl, hbeside⟩
  | ok result =>
      rw [runOn_onSurge x p hx, runOn_onSurge x q (hsurge ▸ hx)]
      exact ⟨rfl, hbeside.world, rfl, hbeside.steady⟩

/-- The steady clocks agree. -/
theorem follows_steady : Follows R steady steady :=
  fun _ _ h => ⟨congrArg Except.ok h.steady, h⟩

end Rules

/-! ### Prices -/

section Prices

variable [DriverIndex σ] {MayRequest : RiderId → Prop}
  {R : World σ → World σ → Prop}

omit [DriverIndex σ] in
theorem follows_cached (p : GeoPoint) : Follows R (cached p) (cached p) :=
  follows_steady.bind fun _ => follows_onSurge _

variable (hR : World.MatchPaired MayRequest R)

include hR

theorem follows_surgeEnabled (setup : Setup) :
    Follows R (surgeEnabled setup) (surgeEnabled setup) := by
  unfold surgeEnabled
  split
  · exact follows_onWorld (Dispatch.follows_flag hR.toPaired (by decide))
  · exact follows_pure true

theorem follows_now : Follows R now now :=
  follows_onWorld (Dispatch.follows_now hR.toPaired)

/-- Drivers and rides are counted alike. -/
theorem follows_market (policy : PricingPolicy) (p : GeoPoint) :
    Dispatch.Follows R (Dispatch.market policy p)
      (Dispatch.market policy p) := by
  intro w v h
  have hget (w : World σ) : (get : Dispatch σ (World σ)).runOn w = (.ok w, w) :=
    rfl
  unfold Dispatch.market
  rw [Dispatch.runOn_bind_ok (hget w), Dispatch.runOn_bind_ok (hget v),
    hR.store_eq h]
  have hnearest :=
    Dispatch.follows_nearest hR p Dispatch.supplySample policy.demandRadiusKm
  exact hnearest.bind (fun found => Dispatch.follows_pure _) w v h

theorem follows_signals (setup : Setup) (enabled : Bool) (p : GeoPoint) :
    Follows R (signals setup enabled p) (signals setup enabled p) := by
  unfold signals
  split
  · exact follows_pure _
  · refine (follows_onWorld (follows_market hR setup.pricing p).outcome).bind
      fun result => ?_
    cases result with
    | ok market => exact follows_pure _
    | error e => exact follows_pure _

theorem follows_multiplier (setup : Setup) (p : GeoPoint) :
    Follows R (multiplier setup p) (multiplier setup p) := by
  refine (follows_surgeEnabled hR setup).bind fun enabled => ?_
  refine (follows_signals hR setup enabled p).bind fun signals => ?_
  refine follows_steady.bind fun clock => ?_
  exact (follows_now hR).bind fun at_ => follows_onSurge _

theorem follows_outlook (setup : Setup) (p : GeoPoint) :
    Follows R (outlook setup p) (outlook setup p) := by
  refine (follows_surgeEnabled hR setup).bind fun enabled => ?_
  refine (follows_signals hR setup enabled p).bind fun signals => ?_
  refine follows_steady.bind fun clock => ?_
  exact (follows_now hR).bind fun at_ => follows_onSurge _

theorem follows_quote (setup : Setup) (trip : Trip) :
    Follows R (quote setup trip) (quote setup trip) := by
  refine (follows_surgeEnabled hR setup).bind fun enabled => ?_
  refine (follows_signals hR setup enabled trip.pickup).bind fun signals => ?_
  refine follows_steady.bind fun clock => ?_
  exact (follows_now hR).bind fun at_ => follows_onSurge _

theorem follows_estimateFare (setup : Setup) (pickup destination : GeoPoint)
    (minutes : Option Int) (vehicle : String) :
    Follows R (estimateFare setup pickup destination minutes vehicle)
      (estimateFare setup pickup destination minutes vehicle) := by
  unfold estimateFare
  cases minutes with
  | some m =>
      exact (follows_pure _).bind fun minutes => follows_quote hR setup _
  | none =>
      have hestimate :=
        follows_onWorld
          (Dispatch.follows_estimateMinutes hR setup pickup destination)
      exact hestimate.bind fun minutes => follows_quote hR setup _

end Prices

end Service

/-! ## Calls -/

/-- The calls of all services: those that change rides or drivers, those that
look them up, and those about prices. -/
inductive PlatformCall where
  | service (c : ServiceCall)
  | driver (id : DriverId)
  | nearbyDrivers (p : GeoPoint) (radiusKm : Float)
  | ride (id : RideId)
  | ridesOfRider (rider : RiderId) (limit : Int)
  | ridesOfDriver (driver : DriverId) (limit : Int)
  | cached (p : GeoPoint)
  | multiplier (p : GeoPoint)
  | outlook (p : GeoPoint)
  | quote (trip : Trip)
  | estimateFare (pickup destination : GeoPoint) (minutes : Option Int)
      (vehicle : String)

/-- What such a call answers. -/
inductive PlatformAnswer where
  | service (a : Answer)
  | driver (d : Driver)
  | drivers (found : List NearbyDriver)
  | ride (r : Ride)
  | rides (found : List Ride)
  | known (multiplier : Option Decimal)
  | multiplier (m : Decimal)
  | outlook (now next : Decimal)
  | quote (q : FareQuote)

section

variable {σ : Type} [DriverIndex σ]

/-- What the services do on a call. -/
def PlatformCall.perform (setup : Setup) :
    PlatformCall → Service σ PlatformAnswer
  | .service c => .service <$> Service.onWorld (c.perform setup)
  | .driver id => .driver <$> Service.onWorld (Dispatch.driver id)
  | .nearbyDrivers p radiusKm =>
      .drivers <$> Service.onWorld (Dispatch.nearbyDrivers p radiusKm)
  | .ride id => .ride <$> Service.onWorld (Dispatch.ride id)
  | .ridesOfRider id limit =>
      .rides <$> Service.onWorld (Dispatch.ridesOfRider id limit)
  | .ridesOfDriver id limit =>
      .rides <$> Service.onWorld (Dispatch.ridesOfDriver id limit)
  | .cached p => .known <$> Service.cached p
  | .multiplier p => .multiplier <$> Service.multiplier setup p
  | .outlook p =>
      (fun prices => .outlook prices.1 prices.2) <$> Service.outlook setup p
  | .quote trip => .quote <$> Service.quote setup trip
  | .estimateFare pickup destination minutes vehicle =>
      .quote <$> Service.estimateFare setup pickup destination minutes vehicle

/-- All calls come to the same in platforms of related worlds. -/
theorem PlatformCall.follows_perform {R : World σ → World σ → Prop}
    (hR : World.MatchPaired (fun _ => True) R) (setup : Setup)
    (c : PlatformCall) :
    Service.Follows R (c.perform setup) (c.perform setup) := by
  have hP := hR.toPaired
  cases c with
  | service c =>
      have hcall :=
        ServiceCall.follows_perform hR setup (c := c) fun _ _ _ _ _ _ => trivial
      exact (Service.follows_onWorld hcall).map _
  | driver id =>
      exact (Service.follows_onWorld (Dispatch.follows_driver hP id)).map _
  | nearbyDrivers p radiusKm =>
      exact (Service.follows_onWorld
        (Dispatch.follows_nearbyDrivers hP p radiusKm)).map _
  | ride id =>
      exact (Service.follows_onWorld (Dispatch.follows_ride hP id)).map _
  | ridesOfRider id limit =>
      exact (Service.follows_onWorld (Dispatch.follows_query hP _)).map _
  | ridesOfDriver id limit =>
      exact (Service.follows_onWorld (Dispatch.follows_query hP _)).map _
  | cached p => exact (Service.follows_cached p).map _
  | multiplier p => exact (Service.follows_multiplier hR setup p).map _
  | outlook p => exact (Service.follows_outlook hR setup p).map _
  | quote trip => exact (Service.follows_quote hR setup trip).map _
  | estimateFare pickup destination minutes vehicle =>
      exact (Service.follows_estimateFare hR setup pickup destination
        minutes vehicle).map _

/-! ## Runs -/

/-- A call of the platform, and what the rest of the world has come to when it
is made. -/
structure PlatformTurn (σ : Type) where
  now : Instant
  /-- The steady clock, which tells how old a remembered price is. -/
  steady : Int
  flags : Flags := .none
  /-- What the index service has done since the last call. -/
  index : σ → σ := id
  call : PlatformCall

namespace Platform

/-- The platform when a turn makes its call. -/
def begin (p : Platform σ) (t : PlatformTurn σ) : Platform σ :=
  { p with
    world := { p.world with
      now := t.now, flags := t.flags, index := t.index p.world.index }
    steady := t.steady }

/-- The outcomes of some turns, and the platform after them. -/
def run (setup : Setup) (p : Platform σ) :
    List (PlatformTurn σ) →
      List (Except ServiceError PlatformAnswer) × Platform σ
  | [] => ([], p)
  | t :: rest =>
      let result := (t.call.perform setup).runOn (p.begin t)
      let others := run setup result.2 rest
      (result.1 :: others.1, others.2)

end Platform

end

end Ridehail
