import Ridehail.Proofs.Pricing.Smoothed

/-!
# What listeners know of multipliers

Listeners know the multiplier of the last notice of a cell, for as long as no
other one comes, and take it to be the lowest one before any notice.  Whether a
multiplier is news is told by what the cell is remembered at, and that is
forgotten after two minutes.  A forgotten cell is taken for one that was never
announced: if it is given the lowest multiplier, nothing is announced.

So a run can leave listeners with a wrong multiplier in one way only, and any
exchange that goes this way does: a cell whose last notice was above the lowest
multiplier is given the lowest one when it is forgotten.

## Main results

* `PriceExchange.InRun.tells_iff` — an exchange that starts with listeners right
  leaves them right, unless it lapses.
* `SurgeModel.listeners_told_iff` — listeners are right after every exchange of
  a run if and only if none of them lapses.
* `SurgeModel.listeners_missed_lowest` — they may be wrong.
-/

namespace Ridehail

/-- What listeners take the multiplier of a cell to be: that of its last notice,
or the lowest one if it never had any. -/
def SurgeState.heard (s : SurgeState) (cell : SurgeCell) : Decimal :=
  ((s.notices.reverse.find? (·.cell = cell)).map (·.multiplier)).getD
    Surge.lowest

/-- Listeners are right about everything that is remembered, young or not. -/
def SurgeState.Attuned (s : SurgeState) : Prop :=
  s.prices.Remembers fun cell m => (s.heard cell).value = m.value

/-- After an exchange that has priced a cell, listeners take its multiplier to
be the one that the answer was made from. -/
def PriceExchange.Tells (e : PriceExchange) : Prop :=
  ∀ cell, e.call.cell? = some cell →
    ∃ m, e.priced? cell = some (e.call.clock, m) ∧
      e.answer.MadeFrom m e.call.question ∧
      (e.after.heard cell).value = m.value

/-- An exchange gives a cell the lowest multiplier when listeners take it to
have another one, and no multiplier of the cell is less than two minutes old. -/
def PriceExchange.Lapses (past : List PriceExchange)
    (e : PriceExchange) : Prop :=
  ∃ cell m, e.call.cell? = some cell ∧ e.priced? cell = some (e.call.clock, m) ∧
    m.value = 1 ∧
    youngPrice? past cell e.call.clock = none ∧ (e.before.heard cell).value ≠ 1

namespace SurgeState

variable {s : SurgeState} {history : HistoryMemory} {clock : Int} {p : GeoPoint}
  {at_ : Instant} {m : Decimal}

theorem attuned_initial : Attuned {} := TimedCache.remembers_empty priceTtl

/-! ## Notices -/

theorem heard_priced_of_news
    (h : SurgeM.isNews (s.prices.peek clock (SurgeCell.of p)) m = true) :
    (s.priced history clock p at_ m).heard (SurgeCell.of p) = m := by
  simp [heard, priced, h]

theorem heard_priced_of_not_news
    (h : SurgeM.isNews (s.prices.peek clock (SurgeCell.of p)) m = false)
      (cell : SurgeCell) :
    (s.priced history clock p at_ m).heard cell = s.heard cell := by
  simp [heard, priced, h]

theorem heard_priced_ne {cell : SurgeCell} (hne : cell ≠ SurgeCell.of p) :
    (s.priced history clock p at_ m).heard cell = s.heard cell := by
  cases hnews : SurgeM.isNews (s.prices.peek clock (SurgeCell.of p)) m with
  | false => exact heard_priced_of_not_news hnews cell
  | true => simp [heard, priced, hnews, hne.symm]

/-- A multiplier that is no news is the remembered one, or the lowest one. -/
theorem value_of_not_news (hm : Surge.IsMultiplier m)
    {previous : Option Decimal} (h : SurgeM.isNews previous m = false) :
    (∃ r, previous = some r ∧ r.value = m.value) ∨
      (previous = none ∧ m.value = 1) := by
  cases previous with
  | some r =>
      have hsame : r.same m = true := by simpa [SurgeM.isNews] using h
      exact .inl ⟨r, rfl, Decimal.same_iff_value.1 hsame⟩
  | none =>
      have hle : ¬ Surge.lowest.value < m.value := by
        rw [← Decimal.lt_iff_value]
        simpa [SurgeM.isNews] using h
      rw [Surge.value_lowest] at hle
      exact .inr ⟨rfl, le_antisymm (not_lt.1 hle) hm.one_le⟩

/-- Listeners are right about a cell that was just priced, unless it was
forgotten, has the lowest multiplier now, and was last announced at another
one. -/
theorem Attuned.heard_priced_iff (h : s.Attuned) (hm : Surge.IsMultiplier m) :
    ((s.priced history clock p at_ m).heard (SurgeCell.of p)).value = m.value ↔
      ¬ (m.value = 1 ∧ s.prices.peek clock (SurgeCell.of p) = none ∧
        (s.heard (SurgeCell.of p)).value ≠ 1) := by
  cases hnews : SurgeM.isNews (s.prices.peek clock (SurgeCell.of p)) m with
  | true =>
      rw [heard_priced_of_news hnews]
      refine iff_of_true rfl ?_
      rintro ⟨hone, hnone, -⟩
      rw [hnone] at hnews
      have hlt : Surge.lowest.value < m.value := Decimal.lt_iff_value.1 hnews
      rw [Surge.value_lowest, hone] at hlt
      exact lt_irrefl 1 hlt
  | false =>
      rw [heard_priced_of_not_news hnews]
      rcases value_of_not_news hm hnews with ⟨r, hr, hvalue⟩ | ⟨hnone, hone⟩
      · rw [h.of_peek hr, hr]
        exact iff_of_true hvalue (by simp)
      · rw [hone]
        simp [hnone]

/-- Listeners stay right about everything remembered if they are right about the
new price. -/
theorem Attuned.priced (h : s.Attuned) (hs : s.Regular)
    (hheard : ((s.priced history clock p at_ m).heard (SurgeCell.of p)).value =
      m.value) :
    (s.priced history clock p at_ m).Attuned := by
  refine (h.get clock (SurgeCell.of p)).insert (hs.distinct.get clock _)
    hheard ?_ clock
  intro cell hne v hv
  rw [heard_priced_ne hne]
  exact hv

end SurgeState

/-! ## Exchanges -/

namespace PriceExchange

variable {past : List PriceExchange} {e : PriceExchange}

/-- An exchange that prices no cell has nothing to tell. -/
theorem tells_iff_of_none (h : e.call.cell? = none) :
    e.Tells ↔ ¬ e.Lapses past := by
  refine iff_of_true (fun cell hcell => ?_) ?_
  · rw [h] at hcell
    cases hcell
  · rintro ⟨cell, m, hcell, -⟩
    rw [h] at hcell
    cases hcell

/-- An exchange that starts with listeners right leaves them right, unless it
lapses. -/
theorem InRun.tells_iff (h : e.InRun past) (hattuned : e.before.Attuned) :
    e.Tells ↔ ¬ e.Lapses past := by
  have hs := h.regular
  have heffect := h.effect
  have hyoung := h.peek_eq
  obtain ⟨c, s, answer, s'⟩ := e
  change c.Effect s answer s' at heffect
  cases heffect with
  | off hoff hasks hanswer =>
      exact tells_iff_of_none (PriceCall.cell?_of_off hoff)
  | looked p hquestion =>
      exact tells_iff_of_none (PriceCall.cell?_of_cached hquestion)
  | priced history m hon hasks hm hstep hanswer =>
      have hpriced : priced? ⟨c, s, answer,
          s.priced history c.clock c.question.place c.at_ m⟩
          (SurgeCell.of c.question.place) = some (c.clock, m) :=
        PriceCall.priced?_of_priced hs hon hasks
      have hheard : ((s.priced history c.clock c.question.place c.at_ m).heard
          (SurgeCell.of c.question.place)).value = m.value ↔ _ :=
            hattuned.heard_priced_iff hm
      constructor
      · rintro htells ⟨cell, r, hcell, hr, hone, hnone, hlast⟩
        obtain ⟨q, hq, -, hvalue⟩ := htells cell hcell
        cases (PriceCall.cell?_of_priced hon hasks).symm.trans hcell
        cases hpriced.symm.trans hr
        cases hpriced.symm.trans hq
        exact hheard.1 hvalue ⟨hone, (hyoung _).trans hnone, hlast⟩
      · intro hlapses cell hcell
        cases (PriceCall.cell?_of_priced hon hasks).symm.trans hcell
        refine ⟨m, hpriced, hanswer, hheard.2 ?_⟩
        rintro ⟨hone, hnone, hlast⟩
        exact hlapses ⟨_, m, hcell, hpriced, hone,
          (hyoung _).symm.trans hnone, hlast⟩

/-- Listeners stay right about everything remembered if they are told of what is
priced. -/
theorem InRun.attuned (h : e.InRun past) (hattuned : e.before.Attuned)
    (htells : e.Tells) :
    e.after.Attuned := by
  have hs := h.regular
  have heffect := h.effect
  obtain ⟨c, s, answer, s'⟩ := e
  change c.Effect s answer s' at heffect
  cases heffect with
  | off hoff hasks hanswer => exact hattuned
  | looked p hquestion => exact hattuned.get c.clock (SurgeCell.of p)
  | priced history m hon hasks hm hstep hanswer =>
      obtain ⟨r, hr, -, hheard⟩ :=
        htells _ (PriceCall.cell?_of_priced hon hasks)
      rw [PriceCall.priced?_of_priced hs hon hasks] at hr
      cases hr
      exact hattuned.priced hs hheard

end PriceExchange

/-! ## Runs -/

/-- In a course that starts with listeners right they are right after every
exchange if and only if none of the exchanges lapses. -/
theorem SurgeState.Course.tells_iff {s : SurgeState}
    {exchanges past : List PriceExchange} (h : s.Course exchanges)
    (hattuned : s.Attuned)
    (hrun : ∀ before e rest, exchanges = before ++ e :: rest →
      e.InRun (past ++ before)) :
    (∀ e ∈ exchanges, e.Tells) ↔
      ∀ before e rest, exchanges = before ++ e :: rest →
        ¬ e.Lapses (past ++ before) := by
  induction h generalizing past with
  | nil s => simp
  | @cons first exchanges hbefore heffect hrest ih =>
      have hfirst : first.InRun past := by
        simpa using hrun [] first exchanges rfl
      have hlater : ∀ before e rest, exchanges = before ++ e :: rest →
          e.InRun (past ++ [first] ++ before) := by
        intro before e rest hsplit
        rw [← List.append_cons]
        exact hrun (first :: before) e rest (by rw [hsplit, List.cons_append])
      rw [List.forall_mem_cons]
      constructor
      · rintro ⟨htells, hall⟩ before e rest hsplit
        have hnext := hfirst.attuned hattuned htells
        cases before with
        | nil =>
            cases hsplit
            rw [List.append_nil]
            exact (hfirst.tells_iff hattuned).1 htells
        | cons d before =>
            cases hsplit
            rw [List.append_cons]
            exact (ih hnext hlater).1 hall before e rest rfl
      · intro hall
        have htells : first.Tells := by
          refine (hfirst.tells_iff hattuned).2 ?_
          simpa using hall [] first exchanges rfl
        refine ⟨htells, (ih (hfirst.attuned hattuned htells) hlater).2 ?_⟩
        intro before e rest hsplit
        rw [← List.append_cons]
        exact hall (first :: before) e rest (by rw [hsplit, List.cons_append])

/-- Listeners are right after every exchange of a run if and only if none of the
exchanges gives a forgotten cell the lowest multiplier when its last notice was
of another one. -/
theorem SurgeModel.listeners_told_iff {model : SurgeModel}
    (hmodel : Angular model.atan2) {calls : List PriceCall}
    (hclock : (calls.map (·.clock)).Pairwise (· ≤ ·))
    (hminutes : ∀ c ∈ calls, ∀ trip, c.question = .quote trip →
      trip.minutes ≤ Double.int64Max) :
    ∃ exchanges, model.trace {} calls = .ok exchanges ∧
      exchanges.map (·.call) = calls ∧
      ((∀ e ∈ exchanges, e.Tells) ↔
        ∀ past e rest, exchanges = past ++ e :: rest → ¬ e.Lapses past) := by
  obtain ⟨exchanges, htrace, hcalls, hcourse, hrun⟩ :=
    SurgeModel.exists_exchanges hmodel hclock hminutes
  refine ⟨exchanges, htrace, hcalls, ?_⟩
  have hinitial : ∀ past e rest, exchanges = past ++ e :: rest →
      e.InRun ([] ++ past) := hrun
  exact hcourse.tells_iff SurgeState.attuned_initial hinitial

namespace SurgeModel.Example

/-- Many riders wait at a place, and two minutes later many drivers. -/
def easing : List PriceCall :=
  [{ clock := 0, at_ := ⟨1792411200000⟩, signals := crowd,
     question := .multiplier place },
    { clock := 120000, at_ := ⟨1792411320000⟩, signals := calm,
      question := .multiplier place }]

/-- The multiplier of the first call. -/
def high : Decimal := .cents 180

/-- The multiplier of the second call. -/
def low : Decimal := .cents 100

end SurgeModel.Example

open SurgeModel.Example in
/-- The theorem at a run of two calls, the second of which lapses. -/
theorem SurgeModel.listeners_told_iff_easing :
    Angular flat.atan2 ∧ (easing.map (·.clock)).Pairwise (· ≤ ·) ∧
      (∀ c ∈ easing, ∀ trip, c.question = .quote trip →
        trip.minutes ≤ Double.int64Max) ∧
      ∃ exchanges, flat.trace {} easing = .ok exchanges ∧
        exchanges.map (·.call) = easing ∧
        ((∀ e ∈ exchanges, e.Tells) ↔
          ∀ past e rest, exchanges = past ++ e :: rest → ¬ e.Lapses past) := by
  have hclock : (easing.map (·.clock)).Pairwise (· ≤ ·) := by decide
  have hminutes : ∀ c ∈ easing, ∀ trip, c.question = .quote trip →
      trip.minutes ≤ Double.int64Max := by
    intro c hc trip hquestion
    simp only [easing, List.mem_cons, List.not_mem_nil, or_false] at hc
    rcases hc with rfl | rfl <;> cases hquestion
  exact ⟨angular_flat, hclock, hminutes,
    listeners_told_iff angular_flat hclock hminutes⟩

open SurgeModel.Example in
theorem SurgeModel.Example.easing_trace :
    (flat.trace {} easing).toOption.map (·.map fun e =>
      (e.call.cell?, (e.priced? (SurgeCell.of place)).map (·.2),
        e.after.heard (SurgeCell.of place))) =
      some [(some (SurgeCell.of place), some high, high),
        (some (SurgeCell.of place), some low, high)] := by
  decide +kernel

open SurgeModel.Example in
/-- Listeners may be left with a wrong multiplier: a cell is announced at 1.8
and given 1.0 two minutes later, and the last notice is still that of 1.8. -/
theorem SurgeModel.listeners_missed_lowest :
    ∃ exchanges, flat.trace {} easing = .ok exchanges ∧
      ∃ e ∈ exchanges, ¬ e.Tells := by
  have htrace := easing_trace
  cases hexchanges : flat.trace {} easing with
  | error overflow =>
      rw [hexchanges] at htrace
      cases htrace
  | ok exchanges =>
      rw [hexchanges] at htrace
      obtain ⟨first, rest, rfl, -, hrest⟩ :=
        List.map_eq_cons_iff.1 (Option.some.inj htrace)
      obtain ⟨last, rest, rfl, hlast, -⟩ := List.map_eq_cons_iff.1 hrest
      refine ⟨_, rfl, last, by simp, fun htells => ?_⟩
      obtain ⟨hcell, hpriced, hheard⟩ : _ ∧ _ ∧ _ := by
        simpa only [Prod.mk.injEq] using hlast
      obtain ⟨m, hm, -, hvalue⟩ := htells _ hcell
      rw [hm] at hpriced
      have hlow : m = low := Option.some.inj hpriced
      rw [hheard, hlow] at hvalue
      have hne : high.value ≠ low.value := by
        rw [show high.value = 180 / 10 ^ 2 from rfl,
          show low.value = 100 / 10 ^ 2 from rfl]
        norm_num
      exact hne hvalue

end Ridehail
