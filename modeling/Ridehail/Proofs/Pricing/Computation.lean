import Ridehail.Pricing.Surge
import Ridehail.Proofs.Pricing.Multiplier
import Ridehail.Proofs.TimedCache

/-!
# One computation of a multiplier

A computation reads the factors of a place, reads what its cell is remembered
at, takes a step from there, remembers the outcome, and announces it if it is
news.  All this is one equation, `SurgeM.compute_run_of_history`, for every
state in which only multipliers are remembered, which is every state that
computations lead to.

## Main results

* `SurgeM.historyFactor_run` — what is known of history, and what is remembered
  then.
* `SurgeM.compute_run_of_history` — a computation succeeds, and what it leaves.
* `SurgeState.Regular.priced` — only multipliers are remembered afterwards.
-/

namespace Ridehail

/-- What is remembered of cells are multipliers, for two minutes and one for
each cell. -/
structure SurgeState.Regular (s : SurgeState) : Prop where
  distinct : s.prices.Distinct
  ttl : s.prices.ttl = priceTtl
  multipliers : s.prices.Remembers fun _ m => Surge.IsMultiplier m

theorem SurgeState.regular_initial : Regular {} where
  distinct := List.nodup_nil
  ttl := rfl
  multipliers := TimedCache.remembers_empty priceTtl

/-- The state once a cell was read and given a multiplier, which is announced if
it is news. -/
def SurgeState.priced (s : SurgeState) (history : HistoryMemory) (clock : Int)
    (p : GeoPoint) (at_ : Instant) (m : Decimal) : SurgeState where
  prices :=
    (s.prices.get clock (SurgeCell.of p)).2.insert clock (SurgeCell.of p) m
  history := history
  notices :=
    if SurgeM.isNews (s.prices.peek clock (SurgeCell.of p)) m then
      s.notices ++ [⟨SurgeCell.of p, p, m, at_⟩]
    else s.notices

/-- What an answer of history counts as: it is kept within bounds, and none
counts as one. -/
def HistoryQuery.factor (q : HistoryQuery) : Float :=
  Surge.boundHistory (q.answer.getD 1.0)

/-- What is known about a slot once history can be asked, and what is remembered
then: the question is asked only if the slot is not remembered. -/
def HistoryMemory.known (h : HistoryMemory) (q : HistoryQuery) :
    Float × HistoryMemory :=
  match h.slots.peek q.clock q.slot with
  | some x => (x, { h with slots := (h.slots.get q.clock q.slot).2 })
  | none =>
      (q.factor,
        { slots := (h.slots.get q.clock q.slot).2.insert q.clock q.slot q.factor
          queries := h.queries ++ [q] })

/-- What history is asked about for a place and time. -/
def SurgeModel.slot (model : SurgeModel) (p : GeoPoint) (at_ : Instant) :
    HistorySlot :=
  let local_ := at_.localTime model.offsetSeconds
  ⟨SurgeCell.of p, local_.time.hour, local_.weekday⟩

namespace SurgeState

variable {s : SurgeState} {history : HistoryMemory} {clock t : Int}
  {p : GeoPoint} {at_ : Instant} {m : Decimal}

/-- Reading a price leaves the state regular. -/
theorem Regular.read (h : s.Regular) (clock : Int) (cell : SurgeCell) :
    Regular { s with prices := (s.prices.get clock cell).2 } where
  distinct := h.distinct.get clock cell
  ttl := (s.prices.ttl_get clock cell).trans h.ttl
  multipliers := h.multipliers.get clock cell

theorem Regular.priced (h : s.Regular) (hm : Surge.IsMultiplier m) :
    (s.priced history clock p at_ m).Regular where
  distinct := (h.distinct.get clock _).insert clock _ m
  ttl := by
    rw [SurgeState.priced, TimedCache.ttl_insert, TimedCache.ttl_get, h.ttl]
  multipliers := (h.multipliers.get clock _).insert (h.distinct.get clock _) hm
    (fun _ _ _ hv => hv) clock

/-- A cell is remembered at its new multiplier for two minutes. -/
theorem Regular.peek_priced_self (h : s.Regular) (ht : clock ≤ t) :
    (s.priced history clock p at_ m).prices.peek t (SurgeCell.of p) =
      if t - clock < priceTtl then some m else none := by
  have httl : (s.prices.get clock (SurgeCell.of p)).2.ttl = priceTtl := by
    rw [TimedCache.ttl_get, h.ttl]
  rw [SurgeState.priced,
    TimedCache.peek_insert_self (h.distinct.get clock _) ht, httl]
  have hiff : t < clock + priceTtl ↔ t - clock < priceTtl := by omega
  simp only [hiff]

/-- What other cells are remembered at does not change. -/
theorem Regular.peek_priced_ne (h : s.Regular) (ht : clock ≤ t)
    {cell : SurgeCell} (hne : cell ≠ SurgeCell.of p) :
    (s.priced history clock p at_ m).prices.peek t cell =
      s.prices.peek t cell := by
  rw [SurgeState.priced,
    TimedCache.peek_insert_ne (h.distinct.get clock _) ht m hne,
    TimedCache.peek_get ht]

end SurgeState

namespace SurgeM

variable {α β : Type} {s s' : SurgeState}

/-- A sequence goes on from what its first part leaves. -/
theorem run_bind_ok {x : SurgeM α} {f : α → SurgeM β} {a : α}
    (h : x.run s = .ok (a, s')) :
    (x >>= f).run s = (f a).run s' := by
  rw [StateT.run_bind, h]
  rfl

theorem run_exactly {x : Except Decimal.Overflow α} {a : α} (h : x = .ok a) :
    (exactly x).run s = .ok (a, s) := by
  rw [h]
  rfl

/-! ## Reading -/

/-- The question to history that a slot gives rise to, with its answer. -/
def historyQuery (ask : Nat → Weekday → Option Float) (clock : Int)
    (slot : HistorySlot) :
    HistoryQuery := ⟨slot, clock, ask slot.hour slot.weekday⟩

/-- What is known about a slot comes from what is remembered, or else from
history, which is then asked. -/
theorem historyFactor_run (ask : Nat → Weekday → Option Float) (clock : Int)
    (slot : HistorySlot) (s : SurgeState) :
    (historyFactor ask clock slot).run s =
      .ok ((s.history.known (historyQuery ask clock slot)).1,
        { s with
          history := (s.history.known (historyQuery ask clock slot)).2 }) := by
  have hget : (get : SurgeM SurgeState).run s = .ok (s, s) := rfl
  unfold historyFactor HistoryMemory.known historyQuery
  rw [run_bind_ok hget, ← TimedCache.get_fst]
  rcases s.history.slots.get clock slot with ⟨_ | x, slots⟩ <;> rfl

/-- The factors of a place at a local time, given what is known of history. -/
def factorsGiven (model : SurgeModel) (signals : SurgeSignals) (p : GeoPoint)
    (local_ : LocalTime) (history : Float) : SurgeFactors where
  supplyDemand := marketFactor signals.market
  timeOfDay := Surge.timeOfDay local_
  weather := weatherFactor signals.weather
  events := venueFactor model.venues p local_.time
  density := densityFactor model.areas p
  history := history

theorem factors_run {model : SurgeModel} {signals : SurgeSignals} {clock : Int}
    {p : GeoPoint} {local_ : LocalTime} {s s' : SurgeState} {x : Float}
    (hhistory : (historyFactor signals.history clock
      ⟨SurgeCell.of p, local_.time.hour, local_.weekday⟩).run s = .ok (x, s')) :
    (factors model signals clock p local_).run s =
      .ok (factorsGiven model signals p local_ x, s') := by
  unfold factors
  rw [run_bind_ok hhistory]
  rfl

theorem cached_run (clock : Int) (p : GeoPoint) (s : SurgeState) :
    (cached clock p).run s = .ok (s.prices.peek clock (SurgeCell.of p),
      { s with prices := (s.prices.get clock (SurgeCell.of p)).2 }) := by
  rw [← TimedCache.get_fst]
  rfl

/-! ## Computing -/

/-- A computation gives the multiplier that follows from its factors and from
what the cell is remembered at, and leaves it remembered, and announced if it is
news.  The multiplier is within a step of what the cell was remembered at. -/
theorem compute_run_of_history (hs : s.Regular) (model : SurgeModel)
    {signals : SurgeSignals} {clock : Int} {p : GeoPoint} {at_ : Instant}
    {x : Float} {history : HistoryMemory}
    (hhistory : (historyFactor signals.history clock (model.slot p at_)).run s =
      .ok (x, { s with history := history })) : ∃ computed m,
    (factorsGiven model signals p (at_.localTime model.offsetSeconds)
      x).weighted = .ok computed ∧
      Surge.smooth computed (s.prices.peek clock (SurgeCell.of p)) = .ok m ∧
      (compute model signals clock p at_).run s =
        .ok (m, s.priced history clock p at_ m) ∧
      Surge.IsMultiplier m ∧
      ∀ previous ∈ s.prices.peek clock (SurgeCell.of p),
        |m.value - previous.value| ≤ 1 / 2 := by
  have hfactors :
    (factors model signals clock p (at_.localTime model.offsetSeconds)).run s =
      .ok (factorsGiven model signals p (at_.localTime model.offsetSeconds) x,
        { s with history := history }) := factors_run hhistory
  obtain ⟨computed, hweighted, hscale, hsize⟩ := SurgeFactors.exists_weighted
    (factorsGiven model signals p (at_.localTime model.offsetSeconds) x)
  obtain ⟨m, hsmooth, hm, hstep⟩ :=
    Surge.exists_smooth hscale hsize (s.prices.peek clock (SurgeCell.of p))
      fun previous hprevious => hs.multipliers.of_peek hprevious
  refine ⟨computed, m, hweighted, hsmooth, ?_, hm, hstep⟩
  unfold compute
  rw [run_bind_ok hfactors, run_bind_ok (run_exactly hweighted),
    run_bind_ok (cached_run _ _ _), run_bind_ok (run_exactly hsmooth),
    SurgeState.priced]
  split <;> rfl

/-- A computation succeeds, whatever history says. -/
theorem compute_run (hs : s.Regular) (model : SurgeModel)
    (signals : SurgeSignals) (clock : Int) (p : GeoPoint) (at_ : Instant) :
    ∃ m history,
    (compute model signals clock p at_).run s =
      .ok (m, s.priced history clock p at_ m) ∧
      Surge.IsMultiplier m ∧
      ∀ previous ∈ s.prices.peek clock (SurgeCell.of p),
        |m.value - previous.value| ≤ 1 / 2 := by
  obtain ⟨-, m, -, -, hrun, hm, hstep⟩ :=
    compute_run_of_history hs model
      (historyFactor_run signals.history clock (model.slot p at_) s)
  exact ⟨m, _, hrun, hm, hstep⟩

variable {model : SurgeModel} {signals : SurgeSignals} {clock : Int}
  {p : GeoPoint} {at_ : Instant}

/-- An outlook gives the computed multiplier and a prediction from it, and does
no more than compute the multiplier. -/
theorem outlook_run {m : Decimal}
    (hcompute : (compute model signals clock p at_).run s = .ok (m, s'))
    (hm : Surge.IsMultiplier m) :
    ∃ next, (outlook true model signals clock p at_).run s =
      .ok ((m, next), s') ∧
      Surge.IsMultiplier next ∧ m.value ≤ next.value := by
  obtain ⟨next, hnext, hmultiplier, hle⟩ :=
    Surge.exists_predictNextHour hm (at_.localTime model.offsetSeconds)
  refine ⟨next, ?_, hmultiplier, hle⟩
  show (do
    let now ← compute model signals clock p at_
    let next ← exactly
      (Surge.predictNextHour now (at_.localTime model.offsetSeconds))
    return (now, next) : SurgeM (Decimal × Decimal)).run s = _
  rw [run_bind_ok hcompute, run_bind_ok (run_exactly hnext)]
  rfl

end SurgeM

end Ridehail
