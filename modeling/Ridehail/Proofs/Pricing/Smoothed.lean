import Ridehail.Proofs.Pricing.Exchanges

/-!
# Multipliers over whole runs

Listeners and riders see multipliers, not the cache behind them.  What they can
rely on is told from the exchanges of a run alone: a multiplier is compared with
the last one that was computed for its cell, whenever that was, and a cached one
is that last one while it is young enough.

The cache is just as good as this history.  At any time from the last call on, a
cell is remembered at the last multiplier that was computed for it, for two
minutes: calls for other cells, reads, sweeps and calls with surge pricing off
make no difference.

## Main results

* `SurgeState.Recalls.effect` — after every call the cache is as good as the
  history.
* `SurgeModel.exists_exchanges` — so it is at every exchange of every run.
* `SurgeModel.multipliers_smoothed` — every exchange of every run fits what came
  before.
-/

namespace Ridehail

/-! ## The history of a cell -/

/-- When and at which multiplier an exchange has priced a cell, if it has: what
the cell is remembered at right afterwards. -/
def PriceExchange.priced? (e : PriceExchange) (cell : SurgeCell) :
    Option (Int × Decimal) :=
  if e.call.cell? = some cell then
    (e.after.prices.peek e.call.clock cell).map fun m => (e.call.clock, m)
  else none

/-- When a cell was priced last, and at which multiplier. -/
def lastPrice? (past : List PriceExchange) (cell : SurgeCell) :
    Option (Int × Decimal) :=
  past.reverse.findSome? (·.priced? cell)

/-- The last multiplier of a cell that is less than two minutes old. -/
def youngPrice? (past : List PriceExchange) (cell : SurgeCell) (clock : Int) :
    Option Decimal :=
  (lastPrice? past cell).bind fun last =>
    if clock - last.1 < priceTtl then some last.2 else none

/-- An exchange is as it should be after those before it. -/
structure PriceExchange.Fits (past : List PriceExchange)
    (e : PriceExchange) : Prop where
  /-- Every multiplier and every prediction is from one to five, in whole
  cents. -/
  bounded : ∀ m ∈ e.answer.multipliers, Surge.IsMultiplier m
  /-- A cell is given the multiplier that the answer is made from, and a
  prediction is no less.  It is within one half of a multiplier of the cell that
  is less than two minutes old. -/
  smoothed : ∀ cell, e.call.cell? = some cell →
    ∃ m, e.priced? cell = some (e.call.clock, m) ∧
      e.answer.MadeFrom m e.call.question ∧
      ∀ previous ∈ youngPrice? past cell e.call.clock,
        |m.value - previous.value| ≤ 1 / 2
  /-- What is cached is the last multiplier of the cell, while it is less than
  two minutes old. -/
  cached : ∀ p, e.call.question = .cached p →
    e.answer = .cached (youngPrice? past (SurgeCell.of p) e.call.clock)
  /-- With surge pricing off the answer is the lowest multiplier, and nothing is
  remembered or announced. -/
  off : e.call.enabled = false → e.call.question.asksPrice = true →
    (∀ m ∈ e.answer.multipliers, m = Surge.lowest) ∧ e.after = e.before

theorem lastPrice?_append (past : List PriceExchange) (e : PriceExchange)
    (cell : SurgeCell) :
    lastPrice? (past ++ [e]) cell =
      (e.priced? cell).or (lastPrice? past cell) := by
  rw [lastPrice?, List.reverse_append, List.reverse_singleton,
    List.singleton_append, List.findSome?_cons, lastPrice?]
  cases e.priced? cell <;> rfl

/-- An exchange that does not price a cell leaves its history alone. -/
theorem lastPrice?_append_of_none {past : List PriceExchange}
    {e : PriceExchange} {cell : SurgeCell} (h : e.priced? cell = none) :
    lastPrice? (past ++ [e]) cell = lastPrice? past cell := by
  rw [lastPrice?_append, h]
  rfl

theorem PriceExchange.priced?_of_ne {e : PriceExchange} {cell : SurgeCell}
    (h : e.call.cell? ≠ some cell) : e.priced? cell = none := if_neg h

/-! ## The cache and the history -/

/-- From the last of these exchanges on, every cell is remembered as its history
says. -/
def SurgeState.Recalls (s : SurgeState) (past : List PriceExchange) : Prop :=
  ∀ t, (∀ e ∈ past, e.call.clock ≤ t) →
    ∀ cell, s.prices.peek t cell = youngPrice? past cell t

theorem SurgeState.recalls_initial : Recalls {} [] := fun _ _ _ => rfl

namespace PriceCall

variable {c : PriceCall} {s s' : SurgeState} {answer : PriceAnswer}
  {past : List PriceExchange}

/-- The cell of a call that asks for a price while surge pricing is on. -/
theorem cell?_of_priced (hon : c.enabled = true)
    (hasks : c.question.asksPrice = true) :
    c.cell? = some (SurgeCell.of c.question.place) := by
  rw [cell?, hon, hasks]
  rfl

theorem cell?_of_off (hoff : c.enabled = false) : c.cell? = none := by
  rw [cell?, hoff]
  rfl

theorem cell?_of_cached {p : GeoPoint} (h : c.question = .cached p) :
    c.cell? = none := by
  rw [cell?, h, PriceQuestion.asksPrice, Bool.and_false]
  rfl

/-- A computation prices its cell at the computed multiplier. -/
theorem priced?_of_priced {history : HistoryMemory} {m : Decimal}
    (hs : s.Regular) (hon : c.enabled = true)
    (hasks : c.question.asksPrice = true) :
    PriceExchange.priced? ⟨c, s, answer,
      s.priced history c.clock c.question.place c.at_ m⟩
      (SurgeCell.of c.question.place) = some (c.clock, m) := by
  have hyoung : c.clock - c.clock < priceTtl := by
    rw [Int.sub_self]
    decide
  rw [PriceExchange.priced?, if_pos (cell?_of_priced hon hasks)]
  show ((s.priced history c.clock c.question.place c.at_ m).prices.peek c.clock
    (SurgeCell.of c.question.place)).map _ = _
  rw [hs.peek_priced_self le_rfl, if_pos hyoung]
  rfl

end PriceCall

section Effects

variable {c : PriceCall} {s s' : SurgeState} {answer : PriceAnswer}
  {past : List PriceExchange}

/-- After every call the cache is as good as the history. -/
theorem SurgeState.Recalls.effect (hrecalls : s.Recalls past) (hs : s.Regular)
    (heffect : c.Effect s answer s') :
    s'.Recalls (past ++ [⟨c, s, answer, s'⟩]) := by
  intro t ht cell
  have hbefore : s.prices.peek t cell = youngPrice? past cell t :=
    hrecalls t (fun e he => ht e (List.mem_append_left _ he)) cell
  have hclock : c.clock ≤ t :=
    ht _ (List.mem_append_right _ (List.mem_singleton_self _))
  unfold youngPrice?
  cases heffect with
  | off hoff hasks hanswer =>
      have hnone : c.cell? ≠ some cell := by
        rw [PriceCall.cell?_of_off hoff]
        nofun
      rw [lastPrice?_append_of_none (PriceExchange.priced?_of_ne hnone)]
      exact hbefore
  | looked p hquestion =>
      have hnone : c.cell? ≠ some cell := by
        rw [PriceCall.cell?_of_cached hquestion]
        nofun
      rw [lastPrice?_append_of_none (PriceExchange.priced?_of_ne hnone)]
      show (s.prices.get c.clock (SurgeCell.of p)).2.peek t cell = _
      rw [TimedCache.peek_get hclock]
      exact hbefore
  | priced history m hon hasks hm hstep hanswer =>
      by_cases hcell : cell = SurgeCell.of c.question.place
      · subst hcell
        rw [lastPrice?_append, PriceCall.priced?_of_priced hs hon hasks,
          hs.peek_priced_self hclock]
        rfl
      · have hother : c.cell? ≠ some cell := by
          rw [PriceCall.cell?_of_priced hon hasks]
          exact fun heq => hcell (Option.some.inj heq).symm
        rw [lastPrice?_append_of_none (PriceExchange.priced?_of_ne hother),
          hs.peek_priced_ne hclock hcell]
        exact hbefore

end Effects

/-! ## Runs -/

/-- An exchange in a run: the cache was as good as the history when it was
made. -/
structure PriceExchange.InRun (past : List PriceExchange)
    (e : PriceExchange) : Prop where
  regular : e.before.Regular
  effect : e.call.Effect e.before e.answer e.after
  recalls : e.before.Recalls past
  ordered : ∀ d ∈ past, d.call.clock ≤ e.call.clock

namespace PriceExchange.InRun

variable {past : List PriceExchange} {e : PriceExchange}

/-- A cell is remembered at the last multiplier of its history that is young
enough. -/
theorem peek_eq (h : e.InRun past) (cell : SurgeCell) :
    e.before.prices.peek e.call.clock cell =
      youngPrice? past cell e.call.clock :=
  h.recalls e.call.clock h.ordered cell

/-- An exchange in a run fits what came before. -/
theorem fits (h : e.InRun past) : e.Fits past := by
  have hs := h.regular
  have heffect := h.effect
  have hyoung := h.peek_eq
  obtain ⟨c, s, answer, s'⟩ := e
  change c.Effect s answer s' at heffect
  cases heffect with
  | off hoff hasks hanswer =>
      refine ⟨fun m hm => ?_, fun cell hcell => ?_, fun p hquestion => ?_,
        fun _ _ => ⟨hanswer, rfl⟩⟩
      · exact hanswer m hm ▸ Surge.isMultiplier_lowest
      · rw [PriceCall.cell?_of_off hoff] at hcell
        cases hcell
      · rw [hquestion] at hasks
        cases hasks
  | looked p hquestion =>
      refine ⟨fun m hm => ?_, fun cell hcell => ?_, fun q hsame => ?_,
        fun _ hasks => ?_⟩
      · exact hs.multipliers.of_peek (Option.mem_toList.1 hm)
      · rw [PriceCall.cell?_of_cached hquestion] at hcell
        cases hcell
      · cases hquestion.symm.trans hsame
        rw [hyoung]
      · rw [hquestion] at hasks
        cases hasks
  | priced history m hon hasks hm hstep hanswer =>
      refine ⟨hanswer.isMultiplier hm, fun cell hcell => ?_,
        fun p hquestion => ?_, fun hoff => ?_⟩
      · rw [PriceCall.cell?_of_priced hon hasks] at hcell
        cases hcell
        refine ⟨m, PriceCall.priced?_of_priced hs hon hasks, hanswer,
          fun previous hprevious => ?_⟩
        rw [← hyoung] at hprevious
        exact hstep previous hprevious
      · rw [hquestion] at hasks
        cases hasks
      · rw [hon] at hoff
        cases hoff

end PriceExchange.InRun

/-- All exchanges of a course are in a run, with what came before the course. -/
theorem SurgeState.Course.inRun {s : SurgeState}
    {exchanges past : List PriceExchange} (h : s.Course exchanges)
    (hrecalls : s.Recalls past)
    (hclock : (exchanges.map (·.call.clock)).Pairwise (· ≤ ·))
    (hpast : ∀ e ∈ past, ∀ later ∈ exchanges, e.call.clock ≤ later.call.clock) :
    ∀ before e rest, exchanges = before ++ e :: rest →
      e.InRun (past ++ before) := by
  induction h generalizing past with
  | nil s =>
      intro before e rest hsplit
      exact absurd hsplit.symm (by simp)
  | @cons first exchanges hbefore heffect hrest ih =>
      rw [List.map_cons, List.pairwise_cons] at hclock
      have hfirst : ∀ e ∈ past, e.call.clock ≤ first.call.clock := fun e he =>
        hpast e he first List.mem_cons_self
      have hnext : first.after.Recalls (past ++ [first]) :=
        hrecalls.effect hbefore heffect
      have hlater : ∀ e ∈ past ++ [first], ∀ later ∈ exchanges,
          e.call.clock ≤ later.call.clock := by
        intro e he later hin
        rcases List.mem_append.1 he with he | he
        · exact hpast e he later (List.mem_cons_of_mem first hin)
        · rw [List.mem_singleton.1 he]
          exact hclock.1 _ (List.mem_map_of_mem hin)
      intro before e rest hsplit
      cases before with
      | nil =>
          cases hsplit
          rw [List.append_nil]
          exact ⟨hbefore, heffect, hrecalls, hfirst⟩
      | cons d before =>
          cases hsplit
          rw [List.append_cons]
          exact ih hnext hclock.2 hlater before e rest rfl

/-- Every run by a clock that does not go back is answered, call by call, and
the cache is as good as the history all the time. -/
theorem SurgeModel.exists_exchanges {model : SurgeModel}
    (hmodel : Angular model.atan2) {calls : List PriceCall}
    (hclock : (calls.map (·.clock)).Pairwise (· ≤ ·))
    (hminutes : ∀ c ∈ calls, ∀ trip, c.question = .quote trip →
      trip.minutes ≤ Double.int64Max) :
    ∃ exchanges, model.trace {} calls = .ok exchanges ∧
      exchanges.map (·.call) = calls ∧
      SurgeState.Course {} exchanges ∧
      ∀ past e rest, exchanges = past ++ e :: rest → e.InRun past := by
  obtain ⟨exchanges, htrace, hcalls, hcourse⟩ :=
    SurgeModel.exists_course hmodel hminutes SurgeState.regular_initial
  have hsorted : (exchanges.map (·.call.clock)).Pairwise (· ≤ ·) := by
    rw [← hcalls, List.map_map] at hclock
    exact hclock
  have hnone : ∀ e ∈ ([] : List PriceExchange), ∀ later ∈ exchanges,
      e.call.clock ≤ later.call.clock := by
    intro e he
    cases he
  exact ⟨exchanges, htrace, hcalls, hcourse,
    hcourse.inRun SurgeState.recalls_initial hsorted hnone⟩

/-- However pricing is called, at times that do not go back and by the steady
clock, no call fails, and every exchange fits those before it: multipliers and
predictions stay between one and five, a multiplier is within one half of any of
its cell that is less than two minutes old, and what is cached is the last of
these. -/
theorem SurgeModel.multipliers_smoothed {model : SurgeModel}
    (hmodel : Angular model.atan2) {calls : List PriceCall}
    (hclock : (calls.map (·.clock)).Pairwise (· ≤ ·))
    (hminutes : ∀ c ∈ calls, ∀ trip, c.question = .quote trip →
      trip.minutes ≤ Double.int64Max) :
    ∃ exchanges, model.trace {} calls = .ok exchanges ∧
      exchanges.map (·.call) = calls ∧
      ∀ past e rest, exchanges = past ++ e :: rest → e.Fits past := by
  obtain ⟨exchanges, htrace, hcalls, -, hrun⟩ :=
    SurgeModel.exists_exchanges hmodel hclock hminutes
  exact ⟨exchanges, htrace, hcalls, fun past e rest hsplit =>
    (hrun past e rest hsplit).fits⟩

namespace SurgeModel.Example

/-- Where trips of the example begin and end. -/
def place : GeoPoint := ⟨40.65, -73.95⟩

/-- A platform on which all angles are zero. -/
def flat : SurgeModel := { atan2 := fun _ _ => 0.0 }

theorem angular_flat : Angular flat.atan2 := angular_zero

/-- A trip that goes nowhere and takes as long as can be. -/
def errand : Trip :=
  { pickup := place, destination := place, minutes := Double.int64Max,
    vehicle := "luxury" }

/-- Many riders wait, and the weather is as bad as a double can say. -/
def storm : SurgeSignals :=
  { market := some ⟨0, 50⟩, weather := 1.7976931348623157e308 }

/-- Many riders wait. -/
def crowd : SurgeSignals := { market := some ⟨0, 50⟩ }

/-- Many drivers wait. -/
def calm : SurgeSignals := { market := some ⟨50, 0⟩ }

/-- A price is quoted, eases while it is remembered, is asked for while surge
pricing is off, and is forgotten at last. -/
def calls : List PriceCall :=
  [{ clock := 0, at_ := ⟨1792411200000⟩, signals := storm,
     question := .quote errand },
    { clock := 1, at_ := ⟨1792411200001⟩, signals := crowd,
      question := .multiplier place },
    { clock := 120000, at_ := ⟨1792411320000⟩, signals := calm,
      question := .outlook place },
    { clock := 120001, at_ := ⟨1792411320001⟩, enabled := false,
      signals := calm, question := .forecast place },
    { clock := 239999, at_ := ⟨1792411439999⟩, signals := calm,
      question := .cached place },
    { clock := 240000, at_ := ⟨1792411440000⟩, signals := calm,
      question := .cached place }]

end SurgeModel.Example

open SurgeModel.Example in
/-- The theorem at a run of six calls. -/
theorem SurgeModel.multipliers_smoothed_example :
    Angular flat.atan2 ∧ (calls.map (·.clock)).Pairwise (· ≤ ·) ∧
      (∀ c ∈ calls, ∀ trip, c.question = .quote trip →
        trip.minutes ≤ Double.int64Max) ∧
      ∃ exchanges, flat.trace {} calls = .ok exchanges ∧
        exchanges.map (·.call) = calls ∧
        ∀ past e rest, exchanges = past ++ e :: rest → e.Fits past := by
  have hclock : (calls.map (·.clock)).Pairwise (· ≤ ·) := by decide
  have hminutes : ∀ c ∈ calls, ∀ trip, c.question = .quote trip →
      trip.minutes ≤ Double.int64Max := by
    intro c hc trip hquestion
    simp only [calls, List.mem_cons, List.not_mem_nil, or_false] at hc
    rcases hc with rfl | rfl | rfl | rfl | rfl | rfl <;> cases hquestion
    exact le_rfl
  exact ⟨angular_flat, hclock, hminutes,
    multipliers_smoothed angular_flat hclock hminutes⟩

open SurgeModel.Example in
example : (flat.trace {} calls).toOption.map (·.map fun e =>
    e.answer.multipliers.map fun m => (m.mantissa, m.scale)) =
      some [[(165, 2)], [(180, 2)], [(130, 2), (130, 2)], [(10, 1)],
        [(130, 2)], []] := by
  decide +kernel

end Ridehail
