import Ridehail.Proofs.Pricing.Smoothed

/-!
# What history is asked

History is behind a cache, and every question that it is asked is recorded.  A
computation asks about its slot of cell, local hour and weekday unless the slot
is remembered.  Whether it is remembered can be told from the record alone: from
a question on, its slot is remembered for an hour.  So what has been asked in a
run is a function of its calls, and of two questions about a slot the second one
comes an hour or more after the first.

The local hour is by the time of day and the age of an answer by the steady
clock, and neither says anything about the other.  Answers for other slots come
and go, and every 64th of them sweeps out what has expired.  A slot is none the
worse for it: its last answer is there for an hour, and gone after that.

## Main results

* `HistoryMemory.Recalls.known` — what is known about a slot, and what is asked
  for it.
* `PriceExchange.Made.readsThrough` — one exchange, from a memory that agrees
  with its record.
* `SurgeModel.history_read_through` — history is asked at most once in an hour
  about a slot, and every multiplier is made from the last answer.
-/

namespace Ridehail

/-! ## Records of questions -/

/-- The last question about a slot. -/
def lastQuery? (slot : HistorySlot) (queries : List HistoryQuery) :
    Option HistoryQuery :=
  (queries.filter (·.slot = slot)).getLast?

/-- What the last question about a slot came to, if it was asked less than an
hour ago. -/
def youngFactor? (slot : HistorySlot) (queries : List HistoryQuery)
    (clock : Int) : Option Float :=
  (lastQuery? slot queries).bind fun q =>
    if clock - q.clock < historyTtl then some q.factor else none

namespace HistoryQuery

/-- A question is due if nothing was asked about its slot in the hour before. -/
def Due (q : HistoryQuery) (queries : List HistoryQuery) : Prop :=
  ∀ d ∈ queries, d.slot = q.slot → historyTtl ≤ q.clock - d.clock

instance (q : HistoryQuery) (queries : List HistoryQuery) :
    Decidable (q.Due queries) :=
  inferInstanceAs
    (Decidable (∀ d ∈ queries, d.slot = q.slot →
      historyTtl ≤ q.clock - d.clock))

/-- Of two questions about a slot the later one comes an hour or more after the
other. -/
def Spaced (queries : List HistoryQuery) : Prop :=
  queries.Pairwise fun a b => a.slot = b.slot → historyTtl ≤ b.clock - a.clock

end HistoryQuery

section Records

variable {slot : HistorySlot} {queries : List HistoryQuery} {q d : HistoryQuery}

theorem lastQuery?_concat : lastQuery? slot (queries ++ [q]) =
    if q.slot = slot then some q else lastQuery? slot queries := by
  unfold lastQuery?
  by_cases hslot : q.slot = slot
  · simp [hslot]
  · simp [hslot]

/-- The record ends, as far as the slot is concerned, with the last question
about it. -/
theorem filter_of_lastQuery? (h : lastQuery? slot queries = some d) :
    ∃ earlier, queries.filter (·.slot = slot) = earlier ++ [d] :=
  List.getLast?_eq_some_iff.1 h

theorem mem_of_lastQuery? (h : lastQuery? slot queries = some d) :
    d ∈ queries ∧ d.slot = slot := by
  obtain ⟨earlier, hfilter⟩ := filter_of_lastQuery? h
  have hmem : d ∈ queries.filter (·.slot = slot) := by
    rw [hfilter]
    exact List.mem_concat_self
  obtain ⟨hin, hslot⟩ := List.mem_filter.1 hmem
  exact ⟨hin, of_decide_eq_true hslot⟩

theorem slot_ne_of_lastQuery? (h : lastQuery? slot queries = none)
    (hq : q ∈ queries) :
    q.slot ≠ slot := by
  intro hslot
  have hmem : q ∈ queries.filter (·.slot = slot) :=
    List.mem_filter.2 ⟨hq, decide_eq_true hslot⟩
  rw [List.getLast?_eq_none_iff.1 h] at hmem
  cases hmem

namespace HistoryQuery.Spaced

/-- A question that is due keeps the record spaced. -/
theorem concat (h : Spaced queries) (hq : q.Due queries) :
    Spaced (queries ++ [q]) := by
  refine List.pairwise_append.2 ⟨h, List.pairwise_singleton _ _,
    fun d hd e he hslot => ?_⟩
  obtain rfl := List.mem_singleton.1 he
  exact hq d hd hslot

/-- No question about a slot is later than the last one in the record. -/
theorem clock_le (h : Spaced queries) (hlast : lastQuery? slot queries = some d)
    (hq : q ∈ queries) (hslot : q.slot = slot) : q.clock ≤ d.clock := by
  obtain ⟨earlier, hfilter⟩ := filter_of_lastQuery? hlast
  have hown : Spaced (earlier ++ [d]) := hfilter ▸ h.filter _
  have hmem : q ∈ earlier ++ [d] :=
    hfilter ▸ List.mem_filter.2 ⟨hq, decide_eq_true hslot⟩
  rcases List.mem_append.1 hmem with hearlier | hself
  · have hgap :=
      (List.pairwise_append.1 hown).2.2 q hearlier d (List.mem_singleton_self d)
    have hsame : q.slot = d.slot := hslot.trans (mem_of_lastQuery? hlast).2.symm
    have hhour := hgap hsame
    unfold historyTtl at hhour
    omega
  · rw [List.mem_singleton.1 hself]

/-- A question is due exactly if the last one about its slot is an hour old, if
there is one. -/
theorem due_iff (h : Spaced queries) :
    q.Due queries ↔ youngFactor? q.slot queries q.clock = none := by
  unfold youngFactor?
  cases hlast : lastQuery? q.slot queries with
  | none =>
      refine iff_of_true (fun d hd hslot => ?_) rfl
      exact absurd hslot (slot_ne_of_lastQuery? hlast hd)
  | some last =>
      obtain ⟨hin, hslot⟩ := mem_of_lastQuery? hlast
      simp only [Option.bind_some, ite_eq_right_iff, reduceCtorEq,
        imp_false, not_lt]
      refine ⟨fun hdue => hdue last hin hslot, fun hhour d hd hsame => ?_⟩
      exact hhour.trans
        (Int.sub_le_sub_left (h.clock_le hlast hd hsame) q.clock)

end HistoryQuery.Spaced

end Records

/-! ## The memory of history -/

namespace HistoryMemory

variable {m : HistoryMemory} {now : Int} {q : HistoryQuery} {x : Float}

/-- From a time on, a slot is remembered with what the last question about it
came to, if that was asked less than an hour ago. -/
structure Recalls (m : HistoryMemory) (now : Int) : Prop where
  distinct : m.slots.Distinct
  ttl : m.slots.ttl = historyTtl
  spaced : HistoryQuery.Spaced m.queries
  peek_eq :
    ∀ t, now ≤ t → ∀ slot, m.slots.peek t slot = youngFactor? slot m.queries t

theorem recalls_initial (now : Int) : Recalls {} now where
  distinct := List.nodup_nil
  ttl := rfl
  spaced := .nil
  peek_eq _ _ _ := rfl

theorem Recalls.mono (h : m.Recalls now) {t : Int} (ht : now ≤ t) :
    m.Recalls t where
  distinct := h.distinct
  ttl := h.ttl
  spaced := h.spaced
  peek_eq t' ht' := h.peek_eq t' (ht.trans ht')

theorem known_of_some (hpeek : m.slots.peek q.clock q.slot = some x) :
    m.known q = (x, { m with slots := (m.slots.get q.clock q.slot).2 }) := by
  rw [known, hpeek]

theorem known_of_none (hpeek : m.slots.peek q.clock q.slot = none) : m.known q =
    (q.factor,
      { slots := (m.slots.get q.clock q.slot).2.insert q.clock q.slot q.factor
        queries := m.queries ++ [q] }) := by
  rw [known, hpeek]

/-- A slot that is remembered is read, and nothing is asked. -/
theorem Recalls.read (h : m.Recalls q.clock) :
    Recalls { m with slots := (m.slots.get q.clock q.slot).2 } q.clock where
  distinct := h.distinct.get q.clock q.slot
  ttl := (m.slots.ttl_get q.clock q.slot).trans h.ttl
  spaced := h.spaced
  peek_eq t ht slot := by
    show (m.slots.get q.clock q.slot).2.peek t slot = _
    rw [TimedCache.peek_get ht, h.peek_eq t ht]

/-- A question that is due is asked, and its answer is remembered for an
hour. -/
theorem Recalls.ask (h : m.Recalls q.clock) (hdue : q.Due m.queries) :
    Recalls
      { slots := (m.slots.get q.clock q.slot).2.insert q.clock q.slot q.factor
        queries := m.queries ++ [q] } q.clock where
  distinct := (h.distinct.get q.clock q.slot).insert q.clock q.slot q.factor
  ttl := by rw [TimedCache.ttl_insert, TimedCache.ttl_get, h.ttl]
  spaced := h.spaced.concat hdue
  peek_eq t ht slot := by
    have hdistinct := h.distinct.get q.clock q.slot
    unfold youngFactor?
    rw [lastQuery?_concat]
    by_cases hslot : q.slot = slot
    · subst hslot
      have hyoung : t < q.clock + historyTtl ↔ t - q.clock < historyTtl := by
        omega
      rw [TimedCache.peek_insert_self hdistinct ht, TimedCache.ttl_get,
        h.ttl, if_pos rfl]
      simp only [hyoung, Option.bind_some]
    · rw [TimedCache.peek_insert_ne hdistinct ht q.factor (Ne.symm hslot),
        TimedCache.peek_get ht, h.peek_eq t ht, if_neg hslot, youngFactor?]

/-- What is known about a slot is what the last question about it came to, which
is asked now if it is due, and not asked otherwise. -/
theorem Recalls.known (h : m.Recalls q.clock) :
    (m.known q).2.Recalls q.clock ∧
      (m.known q).2.queries = m.queries ++ [q].filter (·.Due m.queries) ∧
      ∃ d, lastQuery? q.slot (m.known q).2.queries = some d ∧
        (m.known q).1 = d.factor := by
  have hdue := h.spaced.due_iff (q := q)
  rw [← h.peek_eq q.clock le_rfl] at hdue
  cases hpeek : m.slots.peek q.clock q.slot with
  | some x =>
      have hquiet : ¬ q.Due m.queries := by simp [hdue, hpeek]
      rw [known_of_some hpeek]
      refine ⟨h.read, by simp [hquiet], ?_⟩
      -- What is remembered is what the last question came to.
      rw [h.peek_eq q.clock le_rfl] at hpeek
      obtain ⟨d, hlast, hyoung⟩ := Option.bind_eq_some_iff.1 hpeek
      obtain ⟨-, hfactor⟩ := Option.ite_none_right_eq_some.1 hyoung
      exact ⟨d, hlast, (Option.some.inj hfactor).symm⟩
  | none =>
      have hasked : q.Due m.queries := hdue.2 hpeek
      rw [known_of_none hpeek]
      refine ⟨h.ask hasked, by simp [hasked], q, ?_, rfl⟩
      rw [lastQuery?_concat, if_pos rfl]

end HistoryMemory

/-! ## Calls -/

namespace PriceCall

/-- The question of a call to history, if it computes a multiplier. -/
def query? (model : SurgeModel) (c : PriceCall) : Option HistoryQuery :=
  if c.enabled && c.question.asksPrice then
    some (SurgeM.historyQuery c.signals.history c.clock
      (model.slot c.question.place c.at_))
  else none

/-- What a call asks history after these questions: its own one, if that is
due. -/
def asks (model : SurgeModel) (c : PriceCall) (queries : List HistoryQuery) :
    List HistoryQuery :=
  (c.query? model).toList.filter (·.Due queries)

/-- The factors of a call, given what is known of history. -/
def factors (model : SurgeModel) (c : PriceCall) (history : Float) :
    SurgeFactors :=
  SurgeM.factorsGiven model c.signals c.question.place
    (c.at_.localTime model.offsetSeconds) history

end PriceCall

/-- What history is asked in a run of calls, one after the other. -/
def SurgeModel.asked (model : SurgeModel) (calls : List PriceCall) :
    List HistoryQuery :=
  calls.foldl (fun queries c => queries ++ c.asks model queries) []

theorem SurgeModel.asked_concat (model : SurgeModel) (calls : List PriceCall)
    (c : PriceCall) :
    model.asked (calls ++ [c]) =
      model.asked calls ++ c.asks model (model.asked calls) := by
  rw [asked, List.foldl_append]
  rfl

/-- How an exchange reads history, after those before it. -/
structure PriceExchange.ReadsThrough (model : SurgeModel)
    (past : List PriceExchange) (e : PriceExchange) : Prop where
  /-- The record is that of the calls so far: each asks its question if that is
  due. -/
  before : e.before.history.queries = model.asked (past.map (·.call))
  after : e.after.history.queries = model.asked ((past ++ [e]).map (·.call))
  /-- History is asked about a slot an hour or more after it was asked about it
  before. -/
  spaced : HistoryQuery.Spaced e.after.history.queries
  /-- A multiplier follows from the factors of the call and from what history
  answered when it was asked about the slot last, which may have been for this
  call. -/
  used : ∀ own, e.call.query? model = some own →
    ∃ q, lastQuery? own.slot e.after.history.queries = some q ∧ ∃ computed m,
      (e.call.factors model q.factor).weighted = .ok computed ∧
      Surge.smooth computed (youngPrice? past own.slot.cell e.call.clock) =
        .ok m ∧
      e.priced? own.slot.cell = some (e.call.clock, m) ∧
      e.answer.MadeFrom m e.call.question

namespace PriceCall

variable {model : SurgeModel} {c : PriceCall} {s s' : SurgeState}
  {answer : PriceAnswer} {q : HistoryQuery}

theorem query?_eq_some : c.query? model = some q ↔
    c.enabled = true ∧ c.question.asksPrice = true ∧
      SurgeM.historyQuery c.signals.history c.clock
        (model.slot c.question.place c.at_) = q := by
  simp [query?, and_assoc]

theorem clock_of_query? (h : c.query? model = some q) : q.clock = c.clock := by
  obtain ⟨-, -, rfl⟩ := query?_eq_some.1 h
  rfl

/-- A computation looks its slot up, and its multiplier follows from what is
known then. -/
theorem perform_of_query (hs : s.Regular) (hmodel : Angular model.atan2)
    (hminutes : ∀ trip, c.question = .quote trip →
      trip.minutes ≤ Double.int64Max)
    (hquery : c.query? model = some q) : ∃ answer computed m,
    (c.perform model).run s =
      .ok (answer, s.priced (s.history.known q).2 c.clock
        c.question.place c.at_ m) ∧
      (c.factors model (s.history.known q).1).weighted = .ok computed ∧
      Surge.smooth computed (s.prices.peek c.clock q.slot.cell) = .ok m ∧
      answer.MadeFrom m c.question := by
  obtain ⟨hon, hasks, rfl⟩ := query?_eq_some.1 hquery
  obtain ⟨computed, m, hweighted, hsmooth, hcompute, hm, -⟩ :=
    SurgeM.compute_run_of_history hs model
      (SurgeM.historyFactor_run c.signals.history c.clock
      (model.slot c.question.place c.at_) s)
  obtain ⟨answer, hanswer, hmade⟩ :=
    perform_of_compute hmodel hminutes hon hasks hcompute hm
  exact ⟨answer, computed, m, hanswer, hweighted, hsmooth, hmade⟩

/-- A call without a question leaves the memory of history as it is. -/
theorem history_of_no_query (hs : s.Regular) (hmodel : Angular model.atan2)
    (hminutes : ∀ trip, c.question = .quote trip →
      trip.minutes ≤ Double.int64Max)
    (hquery : c.query? model = none)
    (hrun : (c.perform model).run s = .ok (answer, s')) :
    s'.history = s.history := by
  obtain ⟨answer', after, hrun', heffect⟩ := exists_effect hs hmodel hminutes
  cases hrun.symm.trans hrun'
  cases heffect with
  | off hoff hasks hanswer => rfl
  | looked p hquestion => rfl
  | priced history m hon hasks hm hstep hanswer =>
      exact absurd (hquery.symm.trans (query?_eq_some.2 ⟨hon, hasks, rfl⟩))
        nofun

end PriceCall

/-! ## Exchanges -/

/-- An exchange that pricing makes, from a memory that agrees with its
record. -/
structure PriceExchange.Made (model : SurgeModel)
    (e : PriceExchange) : Prop where
  regular : e.before.Regular
  recalls : e.before.history.Recalls e.call.clock
  minutes : ∀ trip, e.call.question = .quote trip →
    trip.minutes ≤ Double.int64Max
  run : (e.call.perform model).run e.before = .ok (e.answer, e.after)

namespace PriceExchange.Made

variable {model : SurgeModel} {e : PriceExchange} {own : HistoryQuery}

/-- The multiplier of an exchange follows from what is known about its slot. -/
theorem priced (h : e.Made model) (hmodel : Angular model.atan2)
    (hquery : e.call.query? model = some own) : ∃ computed m,
    e.after.history = (e.before.history.known own).2 ∧
    (e.call.factors model (e.before.history.known own).1).weighted =
      .ok computed ∧
    Surge.smooth computed (e.before.prices.peek e.call.clock own.slot.cell) =
      .ok m ∧
    e.priced? own.slot.cell = some (e.call.clock, m) ∧
    e.answer.MadeFrom m e.call.question := by
  obtain ⟨call, before, answer, after⟩ := e
  obtain ⟨regular, -, minutes, run⟩ := h
  dsimp only at hquery regular minutes run ⊢
  obtain ⟨_, computed, m, hrun, hweighted, hsmooth, hmade⟩ :=
    PriceCall.perform_of_query regular hmodel minutes hquery
  cases run.symm.trans hrun
  obtain ⟨hon, hasks, rfl⟩ := PriceCall.query?_eq_some.1 hquery
  exact ⟨computed, m, rfl, hweighted, hsmooth,
    PriceCall.priced?_of_priced regular hon hasks, hmade⟩

/-- An exchange asks its question if that is due, and the memory still agrees
with the record. -/
theorem after_history (h : e.Made model) (hmodel : Angular model.atan2) :
    e.after.history.Recalls e.call.clock ∧ e.after.history.queries =
      e.before.history.queries ++
        e.call.asks model e.before.history.queries := by
  unfold PriceCall.asks
  cases hquery : e.call.query? model with
  | none =>
      rw [PriceCall.history_of_no_query h.regular hmodel h.minutes hquery h.run]
      exact ⟨h.recalls, (List.append_nil _).symm⟩
  | some own =>
      obtain ⟨-, -, hhistory, -⟩ := h.priced hmodel hquery
      have hrecalls := h.recalls
      rw [← PriceCall.clock_of_query? hquery] at hrecalls ⊢
      obtain ⟨hnext, hqueries, -⟩ := hrecalls.known
      rw [hhistory]
      exact ⟨hnext, hqueries⟩

/-- An exchange reads history through its memory. -/
theorem readsThrough {past : List PriceExchange} (h : e.Made model)
    (hin : e.InRun past)
    (hbefore : e.before.history.queries = model.asked (past.map (·.call)))
    (hmodel : Angular model.atan2) : e.ReadsThrough model past := by
  obtain ⟨hrecalls, hqueries⟩ := h.after_history hmodel
  refine ⟨hbefore, ?_, hrecalls.spaced, fun own hquery => ?_⟩
  · rw [List.map_append, List.map_singleton,
      SurgeModel.asked_concat, ← hbefore, hqueries]
  · obtain ⟨computed, m, hhistory, hweighted, hsmooth, hpriced, hanswer⟩ :=
      h.priced hmodel hquery
    have hrecalls := h.recalls
    rw [← PriceCall.clock_of_query? hquery] at hrecalls
    obtain ⟨-, -, q, hlast, hfactor⟩ := hrecalls.known
    rw [hin.peek_eq] at hsmooth
    rw [hfactor] at hweighted
    rw [hhistory]
    exact ⟨q, hlast, computed, m, hweighted, hsmooth, hpriced, hanswer⟩

end PriceExchange.Made

/-! ## Runs -/

namespace SurgeModel

variable {model : SurgeModel} {s : SurgeState}
  {past exchanges : List PriceExchange}

/-- A run goes on from what its first call leaves. -/
theorem trace_cons {c : PriceCall} {rest : List PriceCall}
    {answer : PriceAnswer} {next : SurgeState}
    (htrace : model.trace s (c :: rest) = .ok exchanges)
    (hrun : (c.perform model).run s = .ok (answer, next)) :
    ∃ later, model.trace next rest = .ok later ∧
      exchanges = ⟨c, s, answer, next⟩ :: later := by
  have heq : model.trace s (c :: rest) =
      (⟨c, s, answer, next⟩ :: ·) <$> model.trace next rest := by
    rw [trace, hrun]
    rfl
  rw [heq] at htrace
  cases hlater : model.trace next rest with
  | error fault =>
      rw [hlater] at htrace
      cases htrace
  | ok later =>
      rw [hlater] at htrace
      cases htrace
      exact ⟨later, rfl, rfl⟩

/-- At every exchange of a run the memory agrees with the record, and the record
is that of the calls before it. -/
theorem made_trace (hmodel : Angular model.atan2) {calls : List PriceCall}
    (hclock : (calls.map (·.clock)).Pairwise (· ≤ ·))
    (hminutes : ∀ c ∈ calls, ∀ trip, c.question = .quote trip →
      trip.minutes ≤ Double.int64Max)
    (htrace : model.trace s calls = .ok exchanges) (hs : s.Regular)
    (hrecalls : ∀ c ∈ calls, s.history.Recalls c.clock)
    (hqueries : s.history.queries = model.asked (past.map (·.call))) :
    ∀ before e rest, exchanges = before ++ e :: rest → e.Made model ∧
      e.before.history.queries =
        model.asked ((past ++ before).map (·.call)) := by
  induction calls generalizing s exchanges past with
  | nil =>
      intro before e rest hsplit
      cases htrace
      exact absurd hsplit.symm (by simp)
  | cons c rest ih =>
      have hfirst := hminutes c List.mem_cons_self
      rw [List.map_cons, List.pairwise_cons] at hclock
      obtain ⟨answer, next, hrun, heffect⟩ :=
        PriceCall.exists_effect hs hmodel hfirst
      have hmade : PriceExchange.Made model ⟨c, s, answer, next⟩ :=
        ⟨hs, hrecalls c List.mem_cons_self, hfirst, hrun⟩
      obtain ⟨hnext, hasked⟩ := hmade.after_history hmodel
      have hlog : next.history.queries =
          model.asked
            ((past ++ [PriceExchange.mk c s answer next]).map (·.call)) := by
        rw [List.map_append, List.map_singleton, asked_concat, ← hqueries]
        exact hasked
      obtain ⟨later, hlater, rfl⟩ := trace_cons htrace hrun
      intro before e rest hsplit
      cases before with
      | nil =>
          cases hsplit
          rw [List.append_nil]
          exact ⟨hmade, hqueries⟩
      | cons d before =>
          cases hsplit
          rw [List.append_cons]
          refine ih hclock.2 (fun d hd =>
            hminutes d (List.mem_cons_of_mem c hd)) hlater
            (heffect.regular hs) (fun d hd => ?_) hlog before e rest rfl
          exact hnext.mono (hclock.1 d.clock (List.mem_map_of_mem hd))

/-- However pricing is called, at times that do not go back by the steady clock,
no call fails, and history is read through its memory: it is asked at most once
in an hour about a slot, and every multiplier is made from what it answered when
it was asked about the slot last. -/
theorem history_read_through (hmodel : Angular model.atan2)
    {calls : List PriceCall} (hclock : (calls.map (·.clock)).Pairwise (· ≤ ·))
    (hminutes : ∀ c ∈ calls, ∀ trip, c.question = .quote trip →
      trip.minutes ≤ Double.int64Max) :
    ∃ exchanges, model.trace {} calls = .ok exchanges ∧
      exchanges.map (·.call) = calls ∧
      ∀ past e rest, exchanges = past ++ e :: rest →
        e.ReadsThrough model past := by
  obtain ⟨exchanges, htrace, hcalls, -, hrun⟩ :=
    exists_exchanges hmodel hclock hminutes
  refine ⟨exchanges, htrace, hcalls, fun past e rest hsplit => ?_⟩
  have hnone : ({} : SurgeState).history.queries =
      model.asked (([] : List PriceExchange).map (·.call)) := rfl
  obtain ⟨hmade, hqueries⟩ := made_trace hmodel hclock hminutes htrace
    SurgeState.regular_initial (fun c _ =>
      HistoryMemory.recalls_initial c.clock) hnone
    past e rest hsplit
  exact hmade.readsThrough (hrun past e rest hsplit) hqueries hmodel

namespace Example

/-- As many drivers as riders, and history says that this is a busy time. -/
def usual : SurgeSignals :=
  { market := some ⟨50, 50⟩, history := fun _ _ => some 2.5 }

/-- As many drivers as riders, and history has no number. -/
def unusual : SurgeSignals :=
  { market := some ⟨50, 50⟩, history := fun _ _ => some (0.0 / 0.0) }

/-- As many drivers as riders, and history knows nothing. -/
def unheard : SurgeSignals := { market := some ⟨50, 50⟩ }

/-- Another cell. -/
def elsewhere : GeoPoint := ⟨40.75, -73.95⟩

/-- History is asked at first, also about another cell.  What it said is still
good just before an hour is over, then history is asked again, and then for the
next local hour. -/
def visits : List PriceCall :=
  [{ clock := 0, at_ := ⟨1792411200000⟩, signals := usual,
     question := .multiplier place },
    { clock := 1, at_ := ⟨1792411200000⟩, signals := unheard,
      question := .forecast elsewhere },
    { clock := 3599999, at_ := ⟨1792411200001⟩, signals := unusual,
      question := .outlook place },
    { clock := 3600000, at_ := ⟨1792411200002⟩, signals := unusual,
      question := .multiplier place },
    { clock := 3600001, at_ := ⟨1792414800000⟩, signals := usual,
      question := .multiplier place }]

end Example

open Example in
/-- The theorem at a run of five calls, one of which finds its slot
remembered. -/
theorem history_read_through_visits :
    Angular flat.atan2 ∧ (visits.map (·.clock)).Pairwise (· ≤ ·) ∧
      (∀ c ∈ visits, ∀ trip, c.question = .quote trip →
        trip.minutes ≤ Double.int64Max) ∧
      (flat.asked visits).map (fun q =>
        (q.slot.cell == SurgeCell.of place, q.slot.hour, q.clock)) =
        [(true, 12, 0), (false, 12, 1), (true, 12, 3600000),
          (true, 13, 3600001)] ∧
      ∃ exchanges, flat.trace {} visits = .ok exchanges ∧
        exchanges.map (·.call) = visits ∧
        ∀ past e rest, exchanges = past ++ e :: rest →
          e.ReadsThrough flat past := by
  have hclock : (visits.map (·.clock)).Pairwise (· ≤ ·) := by decide
  have hminutes : ∀ c ∈ visits, ∀ trip, c.question = .quote trip →
      trip.minutes ≤ Double.int64Max := by
    intro c hc trip hquestion
    simp only [visits, List.mem_cons, List.not_mem_nil, or_false] at hc
    rcases hc with rfl | rfl | rfl | rfl | rfl <;> cases hquestion
  exact ⟨angular_flat, hclock, hminutes, by decide +kernel,
    history_read_through angular_flat hclock hminutes⟩

open Example in
example : (flat.trace {} visits).toOption.map (·.map fun e =>
    (e.after.history.queries.length,
      e.answer.multipliers.map fun m => (m.mantissa, m.scale))) =
      some [(1, [(102, 2)]), (2, [(101, 2)]), (2, [(102, 2), (102, 2)]),
        (3, [(100, 2)]), (4, [(102, 2)])] := by
  decide +kernel

end SurgeModel

end Ridehail
