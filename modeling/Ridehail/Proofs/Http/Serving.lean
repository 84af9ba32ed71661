import Ridehail.Http.Server
import Ridehail.Proofs.Dispatch.Failures
import Ridehail.Proofs.Dispatch.Refusals
import Ridehail.Proofs.Http.Reading
import Ridehail.Proofs.Platform
import Ridehail.Proofs.Pricing.Exchanges

/-!
# The service never fails by itself

A request is answered 500 if the store fails or if an amount overflows.  Neither
happens, from an empty store on and whatever the requests are: they leave a
store in which all records can be read, and prices that stay in bounds.

`Service.Serves` says of an operation that it starts from such a platform and
leaves one, with an answer or with a failure that someone else has brought
about.  Operations are sequences of operations on the world and computations of
prices, and so are their proofs.

## Main results

* `Command.answers_perform` — carrying out an admissible command.
* `Server.fit_respond` — one request.
* `World.faults_never_surface` — calls and requests from an empty store on.
-/

namespace Ridehail

/-- The service can go on from the platform. -/
structure Platform.Fit {σ : Type} (p : Platform σ) : Prop where
  store : p.world.store.Fit
  surge : p.surge.Regular

/-- A failure that is foreseen is not answered as one of the service. -/
theorem DispatchError.Foreseen.status_ne {e : DispatchError} (h : e.Foreseen) :
    (Server.failure (.dispatch e)).status ≠ 500 := by
  cases e with
  | notFound what => exact show (404 : Nat) ≠ 500 by decide
  | invalidState cause => exact show (409 : Nat) ≠ 500 by decide
  | validation cause => exact show (400 : Nat) ≠ 500 by decide
  | conflict cause => exact show (409 : Nat) ≠ 500 by decide
  | externalService cause => exact show (503 : Nat) ≠ 500 by decide
  | storage fault => exact h.elim

namespace Dispatch

variable {σ α : Type}

theorem query_runOn_snd (w : World σ) (look : Store → Except StoreFault α) :
    ((query look).runOn w).2 = w := by
  rw [runOn_query]
  split <;> rfl

theorem ride_runOn_snd (w : World σ) (id : RideId) :
    ((ride id).runOn w).2 = w := by
  rw [runOn_ride]
  split <;> rfl

theorem driver_runOn_snd (w : World σ) (id : DriverId) :
    ((driver id).runOn w).2 = w := by
  rw [runOn_driver]
  split <;> rfl

end Dispatch

namespace Service

variable {σ α β : Type} {P : α → Prop} {Q : β → Prop}

/-! ## Operations on the platform -/

/-- From a platform that is fit the operation leads to one that is, with an
answer as `P` says or a failure that is not answered as one of the service. -/
def Serves (P : α → Prop) (x : Service σ α) : Prop :=
  ∀ p : Platform σ, p.Fit → (x.runOn p).2.Fit ∧
    match (x.runOn p).1 with
    | .ok a => P a
    | .error e => (Server.failure e).status ≠ 500

theorem serves_pure {a : α} (h : P a) : Serves P (pure a : Service σ α) :=
  fun _ hp => ⟨hp, h⟩

theorem Serves.bind {x : Service σ α} {f : α → Service σ β} (hx : Serves P x)
    (hf : ∀ a, P a → Serves Q (f a)) : Serves Q (x >>= f) := by
  intro p hp
  have hfirst := hx p hp
  rw [runOn_bind]
  rcases hrun : x.runOn p with ⟨e | a, next⟩
  · rw [hrun] at hfirst
    exact hfirst
  · rw [hrun] at hfirst
    exact hf a hfirst.2 next hfirst.1

/-- An operation on the world that fails as foreseen and leaves a fit store. -/
theorem serves_onWorld {x : Dispatch σ α}
    (hx : ∀ w, w.store.Fit → Dispatch.Foresees x w ∧ (x.runOn w).2.store.Fit)
    (hP : ∀ w a next, x.runOn w = (.ok a, next) → P a) :
    Serves P (onWorld x) := by
  intro p hp
  obtain ⟨hforeseen, hfit⟩ := hx p.world hp.store
  rw [runOn_onWorld]
  refine ⟨⟨hfit, hp.surge⟩, ?_⟩
  rcases hrun : x.runOn p.world with ⟨e | a, next⟩
  · exact (hforeseen e next hrun).status_ne
  · exact hP p.world a next hrun

/-- A computation of prices that succeeds whenever only multipliers are
remembered. -/
theorem serves_onSurge {x : SurgeM α}
    (hx : ∀ s : SurgeState, s.Regular →
      ∃ a s', x.run s = .ok (a, s') ∧ s'.Regular) :
    Serves (fun _ => True) (onSurge x : Service σ α) := by
  intro p hp
  obtain ⟨a, surge, hrun, hregular⟩ := hx p.surge hp.surge
  rw [runOn_onSurge x p hrun]
  exact ⟨⟨hp.store, hregular⟩, trivial⟩

/-! ## Prices -/

variable {setup : Setup}

theorem serves_surgeEnabled :
    Serves (fun _ => True) (surgeEnabled setup : Service σ Bool) := by
  unfold surgeEnabled
  split
  · refine serves_onWorld (fun w hw => ⟨?_, hw⟩) fun _ _ _ _ => trivial
    exact Dispatch.foresees_of_run (Dispatch.runOn_flag w surgePricing)
  · exact serves_pure trivial

theorem serves_steady : Serves (fun _ => True) (steady : Service σ Int) :=
  fun _ hp => ⟨hp, trivial⟩

theorem serves_now : Serves (fun _ => True) (now : Service σ Instant) :=
  serves_onWorld (fun w hw =>
    ⟨Dispatch.foresees_of_run (Dispatch.runOn_now w), hw⟩)
    fun _ _ _ _ => trivial

/-- A computation of prices for a question is one of pricing's operations, so it
succeeds. -/
theorem exists_run_of_map {x : SurgeM α} {g : α → PriceAnswer}
    {s s' : SurgeState} {answer : PriceAnswer}
    (h : (g <$> x).run s = .ok (answer, s')) :
    ∃ a, x.run s = .ok (a, s') := by
  rw [StateT.run_map] at h
  cases hx : x.run s with
  | error e =>
      rw [hx] at h
      cases h
  | ok result =>
      rw [hx] at h
      obtain ⟨a, t⟩ := result
      cases h
      exact ⟨a, rfl⟩

section

variable [DriverIndex σ]

/-- Counting drivers and rides changes nothing in the store. -/
theorem store_market (w : World σ) (policy : PricingPolicy) (p : GeoPoint) :
    ((Dispatch.market policy p).runOn w).2.store = w.store := by
  have hget : (get : Dispatch σ (World σ)).runOn w = (.ok w, w) := rfl
  unfold Dispatch.market
  rw [Dispatch.runOn_bind_ok hget, Dispatch.runOn_bind, Dispatch.runOn_askIndex]
  cases (DriverIndex.nearest p Dispatch.supplySample policy.demandRadiusKm
    w.index).1 <;> rfl

theorem serves_signals (enabled : Bool) (p : GeoPoint) :
    Serves (fun _ => True) (signals setup enabled p :
      Service σ SurgeSignals) := by
  unfold signals
  split
  · exact serves_pure trivial
  · have hmarket : Serves (fun _ => True)
        (onWorld (Dispatch.outcome (Dispatch.market setup.pricing p)) :
          Service σ (Except DispatchError Market)) := by
      refine serves_onWorld (fun w hw => ⟨?_, ?_⟩) fun _ _ _ _ => trivial
      · exact Dispatch.foresees_of_run (Dispatch.runOn_outcome w _)
      · rw [Dispatch.runOn_outcome, store_market]
        exact hw
    refine hmarket.bind fun result _ => ?_
    cases result with
    | ok market => exact serves_pure trivial
    | error e => exact serves_pure trivial

theorem serves_outlook (hangles : Angular setup.atan2) (p : GeoPoint) :
    Serves (fun _ => True) (outlook setup p :
      Service σ (Decimal × Decimal)) := by
  unfold outlook
  refine serves_surgeEnabled.bind fun enabled _ => ?_
  refine (serves_signals enabled p).bind fun signals _ => ?_
  refine serves_steady.bind fun clock _ => ?_
  refine serves_now.bind fun at_ _ => serves_onSurge fun s hs => ?_
  let c : PriceCall := ⟨clock, at_, enabled, signals, .outlook p⟩
  have hmodel : Angular (model setup).atan2 := hangles
  have hnone : ∀ trip, c.question = .quote trip →
      trip.minutes ≤ Double.int64Max := nofun
  obtain ⟨answer, s', hrun, heffect⟩ := PriceCall.exists_effect hs hmodel hnone
  obtain ⟨o, ho⟩ := exists_run_of_map hrun
  exact ⟨o, s', ho, heffect.regular hs⟩

theorem serves_quote (hangles : Angular setup.atan2) {trip : Trip}
    (hminutes : trip.minutes ≤ Double.int64Max) :
    Serves (fun _ => True) (quote setup trip : Service σ FareQuote) := by
  unfold quote
  refine serves_surgeEnabled.bind fun enabled _ => ?_
  refine (serves_signals enabled trip.pickup).bind fun signals _ => ?_
  refine serves_steady.bind fun clock _ => ?_
  refine serves_now.bind fun at_ _ => serves_onSurge fun s hs => ?_
  let c : PriceCall := ⟨clock, at_, enabled, signals, .quote trip⟩
  have hmodel : Angular (model setup).atan2 := hangles
  have hsame : ∀ other, c.question = .quote other →
      other.minutes ≤ Double.int64Max := by
    intro other h
    cases h
    exact hminutes
  obtain ⟨answer, s', hrun, heffect⟩ := PriceCall.exists_effect hs hmodel hsame
  obtain ⟨q, hq⟩ := exists_run_of_map hrun
  exact ⟨q, s', hq, heffect.regular hs⟩

omit [DriverIndex σ] in
/-- An estimate of a trip fits into 64 bits. -/
theorem serves_estimateMinutes (start stop : GeoPoint) :
    Serves (· ≤ Double.int64Max)
      (onWorld (Dispatch.estimateMinutes setup start stop) :
        Service σ Int) := by
  refine serves_onWorld (fun w hw => ?_) fun w minutes next h => ?_
  · obtain ⟨minutes, hrun, -⟩ :=
      Dispatch.estimateMinutes_runOn setup w start stop
    refine ⟨Dispatch.foresees_of_run hrun, ?_⟩
    rw [hrun]
    exact hw
  · unfold Dispatch.estimateMinutes at h
    rw [Dispatch.runOn_bind_ok (Dispatch.runOn_flag w dynamicEta),
      Dispatch.runOn_bind_ok (Dispatch.runOn_now w)] at h
    cases h
    exact (EtaEstimator.isInt64 _ w.now start stop).2

theorem serves_estimateFare (hangles : Angular setup.atan2)
    (pickup destination : GeoPoint) {minutes : Option Int}
    (hminutes : ∀ m ∈ minutes, m ≤ Double.int64Max) (vehicle : String) :
    Serves (fun _ => True)
      (estimateFare setup pickup destination minutes vehicle :
        Service σ FareQuote) := by
  unfold estimateFare
  cases minutes with
  | some m =>
      have hgiven : Serves (· ≤ Double.int64Max)
          (pure (max m 0) : Service σ Int) :=
        serves_pure (max_le (hminutes m rfl) (by decide))
      exact hgiven.bind fun _ hle => serves_quote hangles hle
  | none =>
      exact (serves_estimateMinutes pickup destination).bind fun _ hle =>
        serves_quote hangles hle

end

end Service

/-! ## Commands -/

namespace Command

variable {σ : Type} [DriverIndex σ] {setup : Setup}

open Service

/-- The operation is answered, and not as a failure of the service. -/
abbrev Answers (x : Service σ Response) : Prop :=
  Serves (fun response => response.status ≠ 500) x

variable {α : Type} {x : Dispatch σ α} {respond : α → Response}

/-- An operation that a call performs is answered, as it is if it succeeds. -/
theorem answers_call (setup : Setup) (c : ServiceCall) (hc : c.Located)
    (hafter : ∀ w, (x.runOn w).2 = w.after setup c)
    (hforesees : ∀ w, w.store.Fit → Dispatch.Foresees x w)
    (hstatus : ∀ a, (respond a).status ≠ 500) :
    Answers (do return respond (← onWorld x) : Service σ Response) := by
  have hserves : Serves (fun _ => True) (onWorld x) := by
    refine serves_onWorld (fun w hw => ⟨hforesees w hw, ?_⟩)
      fun _ _ _ _ => trivial
    rw [hafter]
    exact World.fit_after setup hw hc
  exact hserves.bind fun a _ => serves_pure (hstatus a)

omit [DriverIndex σ] in
/-- A look into the world is answered, as it is if it succeeds. -/
theorem answers_look (hsame : ∀ w, (x.runOn w).2 = w)
    (hforesees : ∀ w, w.store.Fit → Dispatch.Foresees x w)
    (hstatus : ∀ a, (respond a).status ≠ 500) :
    Answers (do return respond (← onWorld x) : Service σ Response) := by
  have hserves : Serves (fun _ => True) (onWorld x) := by
    refine serves_onWorld (fun w hw => ⟨hforesees w hw, ?_⟩)
      fun _ _ _ _ => trivial
    rw [hsame]
    exact hw
  exact hserves.bind fun a _ => serves_pure (hstatus a)

open Dispatch in
/-- An admissible command is answered, and not as a failure of the service. -/
theorem answers_perform (hangles : Angular setup.atan2) {command : Command}
    (hcommand : command.Admissible) :
    Answers (command.perform setup : Service σ Response) := by
  have hok {β : Type} (body : β → Json) (b : β) :
      (Response.json 200 (body b)).status ≠ 500 := by
    show (200 : Nat) ≠ 500
    decide
  have hcreated {β : Type} (body : β → Json) (b : β) :
      (Response.json 201 (body b)).status ≠ 500 := by
    show (201 : Nat) ≠ 500
    decide
  cases command with
  | health => exact serves_pure (hok id _)
  | ready => exact serves_pure (hok id _)
  | createRide rider pickup destination =>
      obtain ⟨hpickup, hdestination⟩ := hcommand
      exact answers_call setup (.createRide rider pickup destination hpickup)
        hdestination
        (fun _ => rfl) (fun _ _ =>
          foresees_createRide setup rider hpickup destination)
        (hcreated Ride.toJson)
  | listRidesOfRider rider limit =>
      exact answers_look (fun w => query_runOn_snd w _)
        (fun _ hw => foresees_ridesOfRider hw rider limit) (hok _)
  | listRidesOfDriver driver limit =>
      exact answers_look (fun w => query_runOn_snd w _)
        (fun _ hw => foresees_ridesOfDriver hw driver limit) (hok _)
  | showRide id =>
      exact answers_look (fun w => ride_runOn_snd w id)
        (fun _ hw => foresees_ride hw id) (hok Ride.toJson)
  | startRide id driver =>
      exact answers_call setup (.startRide id driver) trivial (fun _ => rfl)
        (fun _ hw => foresees_startRide hw id driver) (hok Ride.toJson)
  | completeRide id driver fare =>
      exact answers_call setup (.completeRide id driver fare)
        trivial (fun _ => rfl)
        (fun _ hw => foresees_completeRide hw id driver fare) (hok Ride.toJson)
  | cancelRide id initiatedBy =>
      exact answers_call setup (.cancelRide id initiatedBy)
        trivial (fun _ => rfl)
        (fun _ hw => foresees_cancelRide hw id initiatedBy) (hok Ride.toJson)
  | matchRide id =>
      exact answers_call setup (.retryMatching id) trivial (fun _ => rfl)
        (fun _ hw => foresees_retryMatching hw setup.matching id)
        (hok Ride.toJson)
  | registerDriver application =>
      exact answers_call setup (.registerDriver application)
        trivial (fun _ => rfl)
        (fun _ _ => foresees_registerDriver application)
        (hcreated Driver.toJson)
  | listNearby place radiusKm =>
      exact answers_look (fun w => World.nearbyDrivers_runOn w place radiusKm)
        (fun _ hw => foresees_nearbyDrivers hw place radiusKm) (hok _)
  | showDriver id =>
      exact answers_look (fun w => driver_runOn_snd w id)
        (fun _ hw => foresees_driver hw id) (hok Driver.toJson)
  | updateLocation id ping =>
      exact answers_call setup (.updateLocation id ping hcommand)
        trivial (fun _ => rfl)
        (fun _ hw => foresees_updateLocation hw id hcommand) (hok Driver.toJson)
  | goOnline id place =>
      exact answers_call setup (.goOnline id place hcommand)
        trivial (fun _ => rfl)
        (fun _ hw => foresees_goOnline hw id hcommand) (hok Driver.toJson)
  | goOffline id =>
      exact answers_call setup (.goOffline id) trivial (fun _ => rfl)
        (fun _ hw => foresees_goOffline hw id) (hok Driver.toJson)
  | setEnRoute id =>
      exact answers_call setup (.setEnRoute id) trivial (fun _ => rfl)
        (fun _ hw => foresees_setEnRoute hw id) (hok Driver.toJson)
  | showSurge place =>
      exact (serves_outlook hangles place).bind fun o _ => serves_pure (hok _ _)
  | estimateFare pickup destination minutes vehicle =>
      exact (serves_estimateFare hangles pickup destination hcommand
          vehicle).bind fun q _ =>
        serves_pure (hok FareQuote.toJson q)

end Command

/-! ## Requests -/

/-- A request, and what the rest of the world has come to when it arrives. -/
structure Visit (σ : Type) where
  /-- The calls that have been made past the router since the last request, such
  as sweeps. -/
  calls : List (Turn σ) := []
  now : Instant
  /-- The steady clock, which tells how old a remembered price is. -/
  steady : Int
  flags : Flags := .none
  /-- What the index service has done since the last request. -/
  index : σ → σ := id
  request : Request

namespace Visit

variable {σ : Type} [DriverIndex σ]

/-- The platform that a request finds. -/
def begin (setup : Setup) (v : Visit σ) (p : Platform σ) : Platform σ :=
  let w := World.run setup p.world v.calls
  { p with
    world := { w with now := v.now, flags := v.flags, index := v.index w.index }
    steady := v.steady }

/-- The calls past the router are made with points. -/
def Located (v : Visit σ) : Prop := ∀ t ∈ v.calls, t.call.Located

theorem Located.fit_begin {setup : Setup} {v : Visit σ} (h : v.Located)
    {p : Platform σ} (hp : p.Fit) : (v.begin setup p).Fit :=
  ⟨World.fit_run hp.store h, hp.surge⟩

end Visit

namespace Server

variable {σ : Type} [DriverIndex σ] {setup : Setup}

/-- The answers to some requests, one after the other. -/
def answers (setup : Setup) (p : Platform σ) : List (Visit σ) → List Response
  | [] => []
  | v :: rest =>
      let (response, next) := respond setup v.request (v.begin setup p)
      response :: answers setup next rest

variable (hangles : Angular setup.atan2)
include hangles

theorem fit_handle (r : Request) {p : Platform σ} (hp : p.Fit) :
    (handle setup r p).2.Fit ∧ (handle setup r p).1.status ≠ 500 := by
  have hread := Command.gives_read r
  unfold handle
  cases hcommand : Command.read r with
  | error response =>
      rw [hcommand] at hread
      exact ⟨hp, hread⟩
  | ok command =>
      rw [hcommand] at hread
      have hserves := Command.answers_perform hangles hread p hp
      refine ⟨hserves.1, ?_⟩
      show (answer ((command.perform setup).runOn p).1).status ≠ 500
      cases hresult : ((command.perform setup).runOn p).1 with
      | ok response =>
          rw [hresult] at hserves
          exact hserves.2
      | error e =>
          rw [hresult] at hserves
          exact hserves.2

/-- A request leaves a fit platform, and is not answered as a failure of the
service. -/
theorem fit_respond (r : Request) {p : Platform σ} (hp : p.Fit) :
    (respond setup r p).2.Fit ∧ (respond setup r p).1.status ≠ 500 := by
  have hhandle := fit_handle hangles r hp
  unfold respond
  split
  · refine ⟨hp, ?_⟩
    show (200 : Nat) ≠ 500
    decide
  · refine ⟨hhandle.1, ?_⟩
    show (if r.method = "HEAD" then Response.empty (handle setup r p).1.status
      else (handle setup r p).1).status ≠ 500
    split
    · exact hhandle.2
    · exact hhandle.2

/-- No request of a sequence is answered as a failure of the service. -/
theorem status_answers {p : Platform σ} (hp : p.Fit) {visits : List (Visit σ)}
    (hvisits : ∀ v ∈ visits, v.Located) :
    ∀ response ∈ answers setup p visits, response.status ≠ 500 := by
  induction visits generalizing p with
  | nil =>
      intro response hresponse
      cases hresponse
  | cons v rest ih =>
      have hbegin : (v.begin setup p).Fit :=
        (hvisits v List.mem_cons_self).fit_begin hp
      obtain ⟨hnext, hstatus⟩ := fit_respond hangles v.request hbegin
      intro response hresponse
      rcases List.mem_cons.1 hresponse with rfl | hlater
      · exact hstatus
      · exact ih hnext (fun u hu => hvisits u (List.mem_cons_of_mem v hu))
          response hlater

end Server

/-! ## The main result -/

namespace World

variable {σ : Type} [DriverIndex σ] {setup : Setup} {w : World σ}

open Dispatch

/-- In every world that calls with points lead to, no call and no look into the
store fails for the store or for a record that has changed since it was read;
when a ride ends, the store takes the release of its driver; and of a sequence
of requests, with such calls in between, none is answered as a failure of the
service. -/
theorem faults_never_surface (hw : w.Located setup) :
    (∀ c : ServiceCall, Foresees (c.perform setup) w) ∧
    ((∀ id, Foresees (driver id) w) ∧ (∀ id, Foresees (ride id) w) ∧
      (∀ rider limit, Foresees (ridesOfRider rider limit) w) ∧
      (∀ id limit, Foresees (ridesOfDriver id limit) w) ∧
      ∀ p radiusKm, Foresees (nearbyDrivers p radiusKm) w) ∧
    ((∀ ride id fare r w', (completeRide ride id fare).runOn w = (.ok r, w') →
        ∃ s', w.store.advanceRide r .inProgress = .ok (true, s') ∧
          s'.Releases id (·.finishRide w.now) [.busy] w'.store) ∧
      ∀ ride initiatedBy r w' id,
        (cancelRide ride initiatedBy).runOn w = (.ok r, w') →
        r.driver = some id →
          ∃ old s', w.store.findRide r.id = .ok (some old) ∧
            w.store.advanceRide r old.status = .ok (true, s') ∧
              s'.Releases id (·.leaveRide w.now) [.busy, .enRoute] w'.store) ∧
    (Angular setup.atan2 →
      ∀ visits : List (Visit σ), (∀ v ∈ visits, v.Located) →
        ∀ response ∈ Server.answers setup { world := w } visits,
          response.status ≠ 500) := by
  have hfit := hw.fit
  refine ⟨fun c => c.foresees_perform hfit setup,
    ⟨?_, ?_, ?_, ?_, ?_⟩, ⟨?_, ?_⟩, ?_⟩
  · exact fun id => foresees_driver hfit id
  · exact fun id => foresees_ride hfit id
  · exact fun rider limit => foresees_ridesOfRider hfit rider limit
  · exact fun id limit => foresees_ridesOfDriver hfit id limit
  · exact fun p radiusKm => foresees_nearbyDrivers hfit p radiusKm
  · exact fun _ _ _ _ _ h => releases_of_completed hfit.toSound h
  · exact fun _ _ _ _ _ h hid => releases_of_cancelled hfit.toSound h hid
  · intro hangles visits hvisits
    have hplatform : Platform.Fit { world := w } :=
      ⟨hfit, SurgeState.regular_initial⟩
    exact Server.status_answers hangles hplatform hvisits

namespace Example

/-- A platform on which all angles are zero. -/
def flat : Setup := { atan2 := fun _ _ => 0.0 }

theorem angular_flat : Angular flat.atan2 := angular_zero

/-- The ride is taken by the driver. -/
def taken : World Roster := run flat start accepted

theorem located_taken : taken.Located flat := by
  refine ⟨start, accepted, rfl, ?_, rfl⟩
  intro t ht
  simp only [accepted, List.mem_cons, List.not_mem_nil, or_false] at ht
  rcases ht with rfl | rfl | rfl
  · trivial
  · trivial
  · intro p hp
    cases hp

/-- The price is asked for, the ride is cancelled, and after a sweep its driver
returns. -/
def visits : List (Visit Roster) :=
  [{ now := ⟨4⟩, steady := 0,
     request :=
       { method := "GET", target := "/v1/pricing/surge?lat=40.5&lng=-70.25" } },
    { now := ⟨5⟩, steady := 1,
      request :=
        { method := "POST",
          target := "/v1/rides/" ++ trip.text ++ "/cancel" } },
    { calls := [{ now := ⟨600000⟩, call := .sweep ⟨600000⟩ }], now := ⟨600001⟩,
      steady := 2,
      request := { method := "POST", target := "/v1/drivers/d/online" } }]

theorem located_visits : ∀ v ∈ visits, v.Located := by
  intro v hv t ht
  simp only [visits, List.mem_cons, List.not_mem_nil, or_false] at hv
  rcases hv with rfl | rfl | rfl
  · cases ht
  · cases ht
  · obtain rfl := List.mem_singleton.1 ht
    trivial

end Example

open Example in
/-- Once the ride is taken, another attempt to match it fails as foreseen, its
cancellation frees the driver, and three requests are answered. -/
theorem faults_never_surface_example :
    taken.Located flat ∧ Angular flat.atan2 ∧ (∀ v ∈ visits, v.Located) ∧
      (∃ e next, ((ServiceCall.retryMatching trip).perform flat).runOn taken =
        (.error e, next) ∧ e.Foreseen) ∧
      (∃ r w' old s', (cancelRide trip "RIDER").runOn taken = (.ok r, w') ∧
        taken.store.advanceRide r old = .ok (true, s') ∧
          s'.Releases "d" (·.leaveRide taken.now) [.busy, .enRoute] w'.store) ∧
      ∀ response ∈ Server.answers flat { world := taken } visits,
        response.status ≠ 500 := by
  have hlocated := located_taken
  have hsurface := faults_never_surface hlocated
  obtain ⟨hcalls, -, ⟨-, hcancelled⟩, hrequests⟩ := hsurface
  refine ⟨hlocated, angular_flat, located_visits, ?_, ?_,
    hrequests angular_flat visits located_visits⟩
  · have hfails :
        (match (((ServiceCall.retryMatching trip).perform flat).runOn taken).1
          with
        | .error _ => true
        | .ok _ => false) = true := by decide +kernel
    rcases hrun : ((ServiceCall.retryMatching trip).perform flat).runOn taken
        with
      ⟨e | answer, next⟩
    · exact ⟨e, next, rfl, hcalls _ e next hrun⟩
    · rw [hrun] at hfails
      cases hfails
  · have hdriver : (match ((cancelRide trip "RIDER").runOn taken).1 with
        | .ok r => decide (r.driver = some "d")
        | .error _ => false) = true := by decide +kernel
    rcases hrun : (cancelRide trip "RIDER").runOn taken with ⟨e | r, w'⟩
    · rw [hrun] at hdriver
      cases hdriver
    · rw [hrun] at hdriver
      obtain ⟨old, s', -, hwrite, hreleases⟩ :=
        hcancelled trip "RIDER" r w' "d" hrun (of_decide_eq_true hdriver)
      exact ⟨r, w', old.status, s', rfl, hwrite, hreleases⟩

open Example in
example : (Server.answers flat { world := taken } visits).map (·.status) =
    [200, 200, 200] := by
  decide +kernel

end World

end Ridehail
