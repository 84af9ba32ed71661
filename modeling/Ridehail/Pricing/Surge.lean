import Ridehail.Event.Notifier
import Ridehail.Pricing.Places
import Ridehail.TimedCache

/-!
# The multiplier in force

Multipliers are kept per cell, a point rounded to a thousandth of a degree, and
follow the computed ones step by step. The last multiplier of a cell is
remembered for two minutes, what history says about a cell, hour and weekday for
an hour. A change of a cell's multiplier is announced, and a question to history
is recorded.

Two clocks are involved: the wall clock says which local time it is, the steady
clock says how old a remembered value is.

## Main definitions

* `SurgeCell`, `HistorySlot` — what multipliers and answers of history are kept
  for.
* `SurgeModel`, `SurgeSignals` — what is known once and for all, and what is
  looked up for a computation.
* `SurgeState`, `SurgeM` — what is remembered, asked and announced, and
  computations on it; `SurgeM.askHistory` is the way in which history is asked.
* `SurgeM.multiplier`, `SurgeM.outlook`, `SurgeM.cached` — the multiplier of a
  place.
-/

namespace Ridehail

/-! ## Cells -/

/-- A latitude and longitude in thousandths of a degree. -/
structure SurgeCell where
  lat : Int
  lng : Int
  deriving DecidableEq, Repr, Inhabited

namespace SurgeCell

/-- The cell of a point. -/
def of (p : GeoPoint) : SurgeCell :=
  ⟨Double.nearestInt64 (p.lat * 1000.0), Double.nearestInt64 (p.lng * 1000.0)⟩

/-- Thousandths of a degree as degrees with three places. -/
def degrees (thousandths : Int) : String :=
  Double.fixedText 3 (Double.ofInt thousandths / 1000.0)

/-- The text of a cell. -/
def text (cell : SurgeCell) : String :=
  degrees cell.lat ++ ":" ++ degrees cell.lng

end SurgeCell

/-! ## Signals -/

/-- Drivers and rides around a place. -/
structure Market where
  available : Nat
  pending : Nat
  deriving DecidableEq, Repr, Inhabited

/-- What is looked up about a place: the market, if that succeeds, the weather,
and what history says about an hour and weekday. -/
structure SurgeSignals where
  market : Option Market
  weather : Float := 1.0
  history : Nat → Weekday → Option Float := fun _ _ => none

/-- Where demand is high by nature, the time zone in seconds ahead of UTC, and
how the platform computes angles, for the distances of trips. -/
structure SurgeModel where
  venues : List Venue := defaultVenues
  areas : List DenseArea := defaultAreas
  offsetSeconds : Int := 0
  atan2 : Float → Float → Float := Float.atan2

/-! ## State -/

/-- What history is asked about. -/
structure HistorySlot where
  cell : SurgeCell
  hour : Nat
  weekday : Weekday
  deriving DecidableEq, Repr, Inhabited

/-- A question that history was asked: about which slot, at which time of the
steady clock, and what it answered. -/
structure HistoryQuery where
  slot : HistorySlot
  clock : Int
  answer : Option Float
  deriving Repr

/-- The announcement of a new multiplier. -/
structure SurgeNotice where
  cell : SurgeCell
  place : GeoPoint
  multiplier : Decimal
  timestamp : Instant
  deriving DecidableEq, Repr, Inhabited

/-- The topic of announcements. -/
def surgeUpdates : String := "surge-updates"

/-- The announcement as it is sent. -/
def SurgeNotice.delivery (n : SurgeNotice) : Delivery :=
  .topic surgeUpdates <| .object
    [ ("cell", .string n.cell.text),
      ("lat", .ofFloat n.place.lat),
      ("lng", .ofFloat n.place.lng),
      ("multiplier", n.multiplier.toJson),
      ("level", .string (Surge.level n.multiplier)),
      ("timestamp", n.timestamp.toJson) ]

/-- How long a multiplier is remembered, in milliseconds. -/
def priceTtl : Int := 120000

/-- How long an answer of history is remembered, in milliseconds. -/
def historyTtl : Int := 3600000

/-- What is remembered of history, and all questions that it was asked so
far. -/
structure HistoryMemory where
  slots : TimedCache HistorySlot Float := .empty historyTtl
  queries : List HistoryQuery := []
  deriving Repr

/-- What is remembered of multipliers and of history, and all announcements so
far. -/
structure SurgeState where
  prices : TimedCache SurgeCell Decimal := .empty priceTtl
  history : HistoryMemory := {}
  notices : List SurgeNotice := []
  deriving Repr

/-- Computations of multipliers. -/
abbrev SurgeM := StateT SurgeState (Except Decimal.Overflow)

namespace SurgeM

/-- A decimal computation. -/
def exactly {α : Type} (x : Except Decimal.Overflow α) : SurgeM α :=
  StateT.lift x

/-! ## Factors -/

/-- The factor of the market; a failed look-up counts as a balanced market. -/
def marketFactor : Option Market → Float
  | some m => Surge.supplyDemand m.available m.pending
  | none => 1.0

/-- The factor of the weather; what is no positive number counts as clear. -/
def weatherFactor (x : Float) : Float :=
  if x.isFinite && x > 0.0 then x else 1.0

/-- Asks history about a slot. Every question is recorded with its answer. -/
def askHistory (ask : Nat → Weekday → Option Float) (clock : Int)
    (slot : HistorySlot) : SurgeM (Option Float) := do
  let answer := ask slot.hour slot.weekday
  modify fun s =>
    { s with history.queries := s.history.queries ++ [⟨slot, clock, answer⟩] }
  return answer

/-- What history says about a slot, which is asked only if that is not
remembered. -/
def historyFactor (ask : Nat → Weekday → Option Float) (clock : Int)
    (slot : HistorySlot) : SurgeM Float := do
  let s ← get
  let (known, slots) := s.history.slots.get clock slot
  set { s with history.slots := slots }
  match known with
  | some x => return x
  | none =>
      let x := Surge.boundHistory ((← askHistory ask clock slot).getD 1.0)
      modify fun s =>
        { s with history.slots := s.history.slots.insert clock slot x }
      return x

/-- The factors of a place at a local time. -/
def factors (model : SurgeModel) (signals : SurgeSignals) (clock : Int)
    (p : GeoPoint) (local_ : LocalTime) : SurgeM SurgeFactors := do
  let history ←
    historyFactor signals.history clock
      ⟨SurgeCell.of p, local_.time.hour, local_.weekday⟩
  return { supplyDemand := marketFactor signals.market
           timeOfDay := Surge.timeOfDay local_
           weather := weatherFactor signals.weather
           events := venueFactor model.venues p local_.time
           density := densityFactor model.areas p
           history }

/-! ## Multipliers -/

/-- The remembered multiplier of a place. -/
def cached (clock : Int) (p : GeoPoint) : SurgeM (Option Decimal) := do
  let s ← get
  let (known, prices) := s.prices.get clock (SurgeCell.of p)
  set { s with prices }
  return known

/-- Whether a multiplier is news: it differs from the remembered one, or it is
the first one and not the lowest. -/
def isNews (previous : Option Decimal) (multiplier : Decimal) : Bool :=
  match previous with
  | some p => !p.same multiplier
  | none => Surge.lowest.lt multiplier

/-- Remembers the multiplier of a place. -/
def remember (clock : Int) (p : GeoPoint) (multiplier : Decimal) :
    SurgeM Unit :=
  modify fun s =>
    { s with prices := s.prices.insert clock (SurgeCell.of p) multiplier }

/-- Announces the multiplier of a place. -/
def announce (p : GeoPoint) (multiplier : Decimal) (timestamp : Instant) :
    SurgeM Unit :=
  modify fun s =>
    { s with
      notices := s.notices ++ [⟨SurgeCell.of p, p, multiplier, timestamp⟩] }

/-- Computes the multiplier of a place from the signals, remembers it, and
announces it if it is news. -/
def compute (model : SurgeModel) (signals : SurgeSignals) (clock : Int)
    (p : GeoPoint) (at_ : Instant) : SurgeM Decimal := do
  let f ← factors model signals clock p (at_.localTime model.offsetSeconds)
  let computed ← exactly f.weighted
  let previous ← cached clock p
  let multiplier ← exactly (Surge.smooth computed previous)
  remember clock p multiplier
  if isNews previous multiplier then announce p multiplier at_
  return multiplier

/-- The multiplier of a place: the lowest one while surge pricing is off, which
is neither remembered nor announced. -/
def multiplier (enabled : Bool) (model : SurgeModel) (signals : SurgeSignals)
    (clock : Int) (p : GeoPoint) (at_ : Instant) : SurgeM Decimal :=
  if enabled then compute model signals clock p at_ else return Surge.lowest

/-- The multiplier of a place and the one to expect in an hour. -/
def outlook (enabled : Bool) (model : SurgeModel) (signals : SurgeSignals)
    (clock : Int) (p : GeoPoint) (at_ : Instant) :
    SurgeM (Decimal × Decimal) := do
  if !enabled then return (Surge.lowest, Surge.lowest)
  let now ← compute model signals clock p at_
  let next ← exactly
    (Surge.predictNextHour now (at_.localTime model.offsetSeconds))
  return (now, next)

end SurgeM

end Ridehail
