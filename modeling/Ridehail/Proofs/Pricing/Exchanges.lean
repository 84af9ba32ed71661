import Ridehail.Proofs.Pricing.Computation
import Ridehail.Proofs.Pricing.Fares

/-!
# Exchanges with pricing

Pricing is asked for a multiplier, for an outlook or only its second part, for
the quote of a trip, or for what it remembers.  A run is any sequence of such
calls.  What is not pricing's own may be different at every call: both clocks,
the switch of surge pricing, and the signals that are looked up.

What a call does to the state is said once, by `PriceCall.Effect`: nothing, or a
read of what a cell is remembered at, or one computation for one cell, from
which the answer is made.  No call fails, so every run has an exchange for each
of its calls.

## Main results

* `PriceCall.exists_effect` — every call is answered, and what it does.
* `SurgeModel.exists_course` — every run is answered, call by call.
-/

namespace Ridehail

/-! ## Calls and answers -/

/-- What pricing is asked. -/
inductive PriceQuestion where
  | multiplier (p : GeoPoint)
  | outlook (p : GeoPoint)
  | forecast (p : GeoPoint)
  | quote (trip : Trip)
  | cached (p : GeoPoint)

/-- What pricing answers. -/
inductive PriceAnswer where
  | multiplier (m : Decimal)
  | outlook (now next : Decimal)
  | forecast (next : Decimal)
  | quote (q : FareQuote)
  | cached (m : Option Decimal)

/-- A question, and what the rest of the world has come to when it is asked: the
steady clock, the time of day, whether surge pricing is on, and the signals. -/
structure PriceCall where
  clock : Int
  at_ : Instant
  enabled : Bool := true
  signals : SurgeSignals
  question : PriceQuestion

/-- The place that a question is about. -/
def PriceQuestion.place : PriceQuestion → GeoPoint
  | .multiplier p => p
  | .outlook p => p
  | .forecast p => p
  | .quote trip => trip.pickup
  | .cached p => p

/-- Whether a question is for a price, and not only for what is remembered. -/
def PriceQuestion.asksPrice : PriceQuestion → Bool
  | .cached _ => false
  | _ => true

/-- The multipliers in an answer, present and predicted. -/
def PriceAnswer.multipliers : PriceAnswer → List Decimal
  | .multiplier m => [m]
  | .outlook now next => [now, next]
  | .forecast next => [next]
  | .quote q => [q.surge]
  | .cached m => m.toList

namespace PriceCall

/-- The cell for which a call computes a multiplier, if it does. -/
def cell? (c : PriceCall) : Option SurgeCell :=
  if c.enabled && c.question.asksPrice then some (SurgeCell.of c.question.place)
  else none

/-- What pricing does on a call. -/
def perform (model : SurgeModel) (c : PriceCall) : SurgeM PriceAnswer :=
  match c.question with
  | .multiplier p =>
      .multiplier <$> SurgeM.multiplier c.enabled model c.signals
        c.clock p c.at_
  | .outlook p =>
      (fun o => .outlook o.1 o.2) <$>
        SurgeM.outlook c.enabled model c.signals c.clock p c.at_
  | .forecast p =>
      (fun o => .forecast o.2) <$>
        SurgeM.outlook c.enabled model c.signals c.clock p c.at_
  | .quote trip =>
      .quote <$> SurgeM.quote c.enabled model c.signals c.clock trip c.at_
  | .cached p => .cached <$> SurgeM.cached c.clock p

end PriceCall

/-- A call, its answer, and what was remembered and announced before and after
it. -/
structure PriceExchange where
  call : PriceCall
  before : SurgeState
  answer : PriceAnswer
  after : SurgeState

/-- The exchanges of a run of calls. -/
def SurgeModel.trace (model : SurgeModel) (s : SurgeState) :
    List PriceCall → Except Decimal.Overflow (List PriceExchange)
  | [] => .ok []
  | c :: rest => do
      let (answer, next) ← (c.perform model).run s
      return ⟨c, s, answer, next⟩ :: (← model.trace next rest)

/-! ## What calls do -/

/-- An answer to a question is made from the multiplier of the place. -/
inductive PriceAnswer.MadeFrom (m : Decimal) :
    PriceQuestion → PriceAnswer → Prop
  | multiplier (p : GeoPoint) : MadeFrom m (.multiplier p) (.multiplier m)
  | outlook (p : GeoPoint) {next : Decimal} (hnext : Surge.IsMultiplier next)
      (hle : m.value ≤ next.value) : MadeFrom m (.outlook p) (.outlook m next)
  | forecast (p : GeoPoint) {next : Decimal} (hnext : Surge.IsMultiplier next)
      (hle : m.value ≤ next.value) : MadeFrom m (.forecast p) (.forecast next)
  | quote (trip : Trip) {q : FareQuote}
      (hsurge : q.surge = m) : MadeFrom m (.quote trip) (.quote q)

theorem PriceAnswer.MadeFrom.isMultiplier {m : Decimal}
    {question : PriceQuestion} {answer : PriceAnswer}
    (h : MadeFrom m question answer) (hm : Surge.IsMultiplier m) :
    ∀ x ∈ answer.multipliers, Surge.IsMultiplier x := by
  intro x hx
  cases h with
  | multiplier p => exact List.mem_singleton.1 hx ▸ hm
  | outlook p hnext hle =>
      rcases List.mem_cons.1 hx with rfl | hx
      · exact hm
      · exact List.mem_singleton.1 hx ▸ hnext
  | forecast p hnext hle => exact List.mem_singleton.1 hx ▸ hnext
  | quote trip hsurge => exact List.mem_singleton.1 hx ▸ hsurge ▸ hm

namespace PriceCall

/-- What a call can do to the state, and what it then answers. -/
inductive Effect (c : PriceCall)
                   (s : SurgeState) : PriceAnswer → SurgeState → Prop
  | off {answer : PriceAnswer} (hoff : c.enabled = false)
      (hasks : c.question.asksPrice = true)
      (hanswer : ∀ m ∈ answer.multipliers, m = Surge.lowest) :
        Effect c s answer s
  | looked (p : GeoPoint) (hquestion : c.question = .cached p) :
      Effect c s (.cached (s.prices.peek c.clock (SurgeCell.of p)))
        { s with prices := (s.prices.get c.clock (SurgeCell.of p)).2 }
  | priced {answer : PriceAnswer} (history : HistoryMemory) (m : Decimal)
      (hon : c.enabled = true) (hasks : c.question.asksPrice = true)
      (hm : Surge.IsMultiplier m)
      (hstep :
        ∀ previous ∈ s.prices.peek c.clock (SurgeCell.of c.question.place),
        |m.value - previous.value| ≤ 1 / 2)
      (hanswer : answer.MadeFrom m c.question) :
      Effect c s answer (s.priced history c.clock c.question.place c.at_ m)

variable {c : PriceCall} {s s' : SurgeState} {answer : PriceAnswer}
  {model : SurgeModel}

theorem Effect.regular (h : c.Effect s answer s') (hs : s.Regular) :
    s'.Regular := by
  cases h with
  | off hoff hasks hanswer => exact hs
  | looked p hquestion => exact hs.read c.clock (SurgeCell.of p)
  | priced history m hon hasks hm hstep hanswer => exact hs.priced hm

theorem run_map {α β : Type} {x : SurgeM α} {g : α → β} {a : α}
    (h : x.run s = .ok (a, s')) :
    (g <$> x).run s = .ok (g a, s') := by
  rw [StateT.run_map, h]
  rfl

/-- With surge pricing on, a quote is made at the computed multiplier, and does
no more than compute that. -/
theorem quote_run {trip : Trip} {signals : SurgeSignals} {clock : Int}
    {at_ : Instant} {m : Decimal} (hmodel : Angular model.atan2)
    (hminutes : trip.minutes ≤ Double.int64Max)
    (hcompute : (SurgeM.compute model signals clock trip.pickup at_).run s =
      .ok (m, s'))
    (hm : Surge.IsMultiplier m) :
    ∃ q, (SurgeM.quote true model signals clock trip at_).run s = .ok (q, s') ∧
      q.surge = m := by
  obtain ⟨q, hquote, hsurge⟩ := Trip.exists_quoteAt hmodel hminutes hm
  refine ⟨q, ?_, hsurge⟩
  show (do
    let surge ← SurgeM.compute model signals clock trip.pickup at_
    SurgeM.exactly (trip.quoteAt model surge) : SurgeM FareQuote).run s = _
  rw [SurgeM.run_bind_ok hcompute]
  exact SurgeM.run_exactly hquote

/-- With surge pricing on, a question for a price is answered from one
computation, which is all that happens to the state. -/
theorem perform_of_compute {m : Decimal} (hmodel : Angular model.atan2)
    (hminutes : ∀ trip, c.question = .quote trip →
      trip.minutes ≤ Double.int64Max)
    (hon : c.enabled = true) (hasks : c.question.asksPrice = true)
    (hrun : (SurgeM.compute model c.signals c.clock c.question.place c.at_).run
      s = .ok (m, s'))
    (hm : Surge.IsMultiplier m) :
    ∃ answer, (c.perform model).run s = .ok (answer, s') ∧
      answer.MadeFrom m c.question := by
  obtain ⟨clock, at_, enabled, signals, question⟩ := c
  cases hon
  cases question with
  | multiplier p => exact ⟨_, run_map hrun, .multiplier p⟩
  | outlook p =>
      obtain ⟨next, houtlook, hnext, hle⟩ := SurgeM.outlook_run hrun hm
      exact ⟨_, run_map houtlook, .outlook p hnext hle⟩
  | forecast p =>
      obtain ⟨next, houtlook, hnext, hle⟩ := SurgeM.outlook_run hrun hm
      exact ⟨_, run_map houtlook, .forecast p hnext hle⟩
  | quote trip =>
      obtain ⟨q, hquote, hsurge⟩ := quote_run hmodel (hminutes trip rfl) hrun hm
      exact ⟨_, run_map hquote, .quote trip hsurge⟩
  | cached p => cases hasks

theorem exists_effect_of_enabled (hs : s.Regular) (hmodel : Angular model.atan2)
    (hminutes : ∀ trip, c.question = .quote trip →
      trip.minutes ≤ Double.int64Max)
    (hon : c.enabled = true) (hasks : c.question.asksPrice = true) :
    ∃ answer s', (c.perform model).run s = .ok (answer, s') ∧
      c.Effect s answer s' := by
  obtain ⟨m, history, hrun, hm, hstep⟩ :=
    SurgeM.compute_run hs model c.signals c.clock c.question.place c.at_
  obtain ⟨answer, hanswer, hmade⟩ :=
    perform_of_compute hmodel hminutes hon hasks hrun hm
  exact ⟨answer, _, hanswer, .priced history m hon hasks hm hstep hmade⟩

/-- With surge pricing off, a question for a price is answered with the lowest
multiplier. -/
theorem exists_effect_of_disabled (hmodel : Angular model.atan2)
    (hminutes : ∀ trip, c.question = .quote trip →
      trip.minutes ≤ Double.int64Max)
    (hoff : c.enabled = false) (hasks : c.question.asksPrice = true) :
    ∃ answer s', (c.perform model).run s = .ok (answer, s') ∧
      c.Effect s answer s' := by
  suffices h : ∃ answer, (c.perform model).run s = .ok (answer, s) ∧
      ∀ m ∈ answer.multipliers, m = Surge.lowest by
    obtain ⟨answer, hanswer, hlowest⟩ := h
    exact ⟨answer, s, hanswer, .off hoff hasks hlowest⟩
  obtain ⟨clock, at_, enabled, signals, question⟩ := c
  cases hoff
  cases question with
  | multiplier p =>
      exact ⟨.multiplier Surge.lowest, rfl, by simp [PriceAnswer.multipliers]⟩
  | outlook p =>
      exact ⟨.outlook Surge.lowest Surge.lowest, rfl, by
        simp [PriceAnswer.multipliers]⟩
  | forecast p =>
      exact ⟨.forecast Surge.lowest, rfl, by simp [PriceAnswer.multipliers]⟩
  | quote trip =>
      obtain ⟨q, hquote, hsurge⟩ :=
        Trip.exists_quoteAt hmodel (hminutes trip rfl) Surge.isMultiplier_lowest
      have hquoted : (SurgeM.quote false model signals clock trip at_).run s =
          .ok (q, s) := by
        show (SurgeM.exactly (trip.quoteAt model Surge.lowest)).run s = _
        exact SurgeM.run_exactly hquote
      exact ⟨_, run_map hquoted, by simp [PriceAnswer.multipliers, hsurge]⟩
  | cached p => cases hasks

/-- Every call is answered, and does one of three things. -/
theorem exists_effect (hs : s.Regular) (hmodel : Angular model.atan2)
    (hminutes : ∀ trip, c.question = .quote trip →
      trip.minutes ≤ Double.int64Max) :
    ∃ answer s', (c.perform model).run s = .ok (answer, s') ∧
      c.Effect s answer s' := by
  cases hasks : c.question.asksPrice with
  | true =>
      cases hon : c.enabled with
      | true => exact exists_effect_of_enabled hs hmodel hminutes hon hasks
      | false => exact exists_effect_of_disabled hmodel hminutes hon hasks
  | false =>
      have hcached : ∃ p, c.question = .cached p := by
        cases hquestion : c.question with
        | cached p => exact ⟨p, rfl⟩
        | _ =>
            rw [hquestion] at hasks
            cases hasks
      obtain ⟨p, hquestion⟩ := hcached
      refine ⟨_, _, ?_, .looked p hquestion⟩
      unfold perform
      rw [hquestion]
      exact run_map (SurgeM.cached_run c.clock p s)

end PriceCall

/-! ## Runs -/

/-- Exchanges one after the other, each of which does what its call can do. -/
inductive SurgeState.Course : SurgeState → List PriceExchange → Prop
  | nil (s : SurgeState) : Course s []
  | cons {e : PriceExchange} {rest : List PriceExchange}
      (hbefore : e.before.Regular)
      (heffect : e.call.Effect e.before e.answer e.after)
      (hrest : Course e.after rest) :
      Course e.before (e :: rest)

/-- Every run is answered, call by call. -/
theorem SurgeModel.exists_course {model : SurgeModel}
    (hmodel : Angular model.atan2) {calls : List PriceCall}
    (hminutes : ∀ c ∈ calls, ∀ trip, c.question = .quote trip →
      trip.minutes ≤ Double.int64Max)
    {s : SurgeState} (hs : s.Regular) :
    ∃ exchanges, model.trace s calls = .ok exchanges ∧
      exchanges.map (·.call) = calls ∧
      s.Course exchanges := by
  induction calls generalizing s with
  | nil => exact ⟨[], rfl, rfl, .nil s⟩
  | cons c rest ih =>
      obtain ⟨answer, next, hrun, heffect⟩ :=
        PriceCall.exists_effect hs hmodel (hminutes c List.mem_cons_self)
      obtain ⟨exchanges, htrace, hcalls, hcourse⟩ :=
        ih (fun d hd => hminutes d (List.mem_cons_of_mem c hd))
          (heffect.regular hs)
      refine ⟨⟨c, s, answer, next⟩ :: exchanges, ?_, ?_, ?_⟩
      · rw [SurgeModel.trace, hrun]
        show (do
          let later ← model.trace next rest
          return PriceExchange.mk c s answer next :: later) = _
        rw [htrace]
        rfl
      · rw [List.map_cons, hcalls]
      · exact .cons (e := ⟨c, s, answer, next⟩) hs heffect hcourse

end Ridehail
