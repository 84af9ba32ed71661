import Ridehail.Decimal.Arithmetic
import Ridehail.Decimal.Double
import Ridehail.Time.Local

/-!
# The surge multiplier

Six factors describe a place and time: how scarce drivers are, the time of day,
the weather, events, how dense the area is, and what has been usual there. Their
weighted sum, rounded to two places, is the computed multiplier. The multiplier
in force follows it by steps of at most one half and stays between one and five.

## Main definitions

* `SurgeFactors`, `SurgeFactors.weighted` — the factors and their weighted sum.
* `Surge.supplyDemand`, `Surge.timeOfDay`, `Surge.boundHistory` — single
  factors.
* `Surge.smooth` — the step from the previous multiplier to the next.
* `Surge.predictNextHour`, `Surge.level` — the outlook and the name of a level.
-/

namespace Ridehail

/-- The factors of a place and time; one is neutral. -/
structure SurgeFactors where
  supplyDemand : Float
  timeOfDay : Float
  weather : Float
  events : Float
  density : Float
  history : Float
  deriving DecidableEq, Repr, Inhabited

namespace SurgeFactors

/-- Nothing out of the ordinary. -/
def neutral : SurgeFactors := ⟨1.0, 1.0, 1.0, 1.0, 1.0, 1.0⟩

/-- Whether all factors are numerically equal. -/
def same (f g : SurgeFactors) : Bool :=
  f.supplyDemand == g.supplyDemand && f.timeOfDay == g.timeOfDay &&
    f.weather == g.weather
    && f.events == g.events && f.density == g.density && f.history == g.history

/-- The factors in the order of their weights. -/
def toList (f : SurgeFactors) : List Float :=
  [f.supplyDemand, f.timeOfDay, f.weather, f.events, f.density, f.history]

/-- The weight of each factor; together they make one. -/
def weights : List Decimal :=
  [Decimal.cents 40, Decimal.cents 25, Decimal.cents 15, Decimal.cents 10,
    Decimal.cents 5, Decimal.cents 5]

/-- The sum of `total` and of each value times its weight, from left to
right. -/
def accumulate (total : Decimal) :
    List (Decimal × Decimal) → Except Decimal.Overflow Decimal
  | [] => .ok total
  | (value, weight) :: rest => do
      let share ← value.mul weight
      accumulate (← total.add share) rest

/-- The weighted sum of the factors, rounded to two places. -/
def weighted (f : SurgeFactors) : Except Decimal.Overflow Decimal := do
  let sum ← accumulate Decimal.zero
    ((f.toList.map Decimal.ofDouble).zip weights)
  return sum.roundCents

end SurgeFactors

namespace Surge

/-! ## Single factors -/

/-- The share of pending rides from which demand counts as high. -/
def highDemand : Float := 0.8

/-- The share of pending rides from which demand counts as critical. -/
def criticalDemand : Float := 0.95

/-- The factor of the share of pending rides among drivers and rides
together. -/
def supplyDemand (available pending : Nat) : Float :=
  let total := Decimal.doubleOfNat (max (available + pending) 1)
  let share := Decimal.doubleOfNat pending / total
  if share ≥ criticalDemand then 3.0
  else if share ≥ highDemand then 1.5 + (share - highDemand) * 10.0
  else 1.0

/-- The morning and evening rush. -/
def isRushHour (t : TimeOfDay) : Bool :=
  t.strictlyBetween 7 10 || t.strictlyBetween 17 20

/-- The evening hours in which events draw people. -/
def isEventTime (t : TimeOfDay) : Bool := t.strictlyBetween 18 23

/-- The factor of a local time: rush hour before night before weekend. -/
def timeOfDay (local_ : LocalTime) : Float :=
  if isRushHour local_.time then 1.8
  else if local_.time.isNight then 1.5
  else if local_.weekday.isWeekend then 1.2
  else 1.0

/-- The least that history counts for. -/
def historyLow : Float := 0.8

/-- The most that history counts for. -/
def historyHigh : Float := 1.4

/-- A recorded factor brought within bounds; what is no number is neutral. -/
def boundHistory (x : Float) : Float :=
  if !x.isFinite then 1.0
  else if x < historyLow then historyLow
  else if x > historyHigh then historyHigh
  else x

/-! ## The multiplier -/

/-- The least multiplier. -/
def lowest : Decimal := Decimal.tenths 10

/-- The greatest multiplier. -/
def highest : Decimal := Decimal.tenths 50

/-- The most that a multiplier changes from one computation to the next. -/
def step : Decimal := Decimal.tenths 5

/-- The computed multiplier, no further from the previous one than a step. -/
def limitStep (computed previous : Decimal) :
    Except Decimal.Overflow Decimal := do
  let change ← computed.sub previous
  if step.lt change.abs then
    if change.isNegative then previous.sub step else previous.add step
  else return computed

/-- The multiplier that follows the previous one, if there is one. -/
def smooth (computed : Decimal) (previous : Option Decimal) :
    Except Decimal.Overflow Decimal := do
  let next ← match previous with
    | none => .ok computed
    | some p => limitStep computed p
  return next.clamp lowest highest

/-- What the coming hour usually multiplies a multiplier by. -/
def nextHourFactor (nextHour : Nat) : Decimal :=
  if nextHour = 17 ∨ nextHour = 8 then Decimal.tenths 12
  else if 22 ≤ nextHour then Decimal.tenths 11
  else Decimal.one

/-- The multiplier to expect in an hour. -/
def predictNextHour (current : Decimal) (local_ : LocalTime) :
    Except Decimal.Overflow Decimal := do
  let product ← current.mul (nextHourFactor ((local_.time.hour + 1) % 24))
  return product.roundCents.clamp lowest highest

/-- The name of a multiplier's level. -/
def level (multiplier : Decimal) : String :=
  let m := multiplier.toDouble
  if m ≥ 4.0 then "Very High Demand"
  else if m ≥ 2.5 then "High Demand"
  else if m ≥ 1.8 then "Increased Demand"
  else if m ≥ 1.3 then "Moderate Demand"
  else "Normal Pricing"

end Surge

end Ridehail
