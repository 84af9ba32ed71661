import Ridehail.Decimal.Reader
import Ridehail.Double.Printer
import Ridehail.Geo.Point

/-!
# Decimals and doubles

Distances and demand factors enter a price as doubles and leave it as JSON
numbers. `ofDouble` keeps about fifteen digits of a double; it works in whole
numbers below `mantissaLimit`, trading the powers of two of the binary form for
powers of ten. `toDouble` goes back.

## Main definitions

* `ofDouble` — the decimal near a double, zero for what is no number or far too
  large.
* `toDouble` — the double of a decimal, its fraction rounded to the places the
  decimal has.
* `toJson`, `decoder` — a decimal as a JSON number, and back.
-/

namespace Ridehail.Decimal

/-! ## From a double -/

/-- A whole number below `mantissaLimit` with the powers of five and ten it
still has to be multiplied by. -/
structure Trade where
  bits : Nat
  ten : Int

/-- Trades `fives` halvings for powers of ten: an even number is halved, an odd
one takes a factor of five if there is room, and else loses its last bit. -/
def Trade.halve (t : Trade) : Nat → Trade
  | 0 => t
  | fives + 1 =>
      if t.bits % 2 = 0 then Trade.halve ⟨t.bits / 2, t.ten + 1⟩ fives
      else if t.bits * 5 < mantissaLimit then
        Trade.halve ⟨t.bits * 5, t.ten⟩ fives
      else Trade.halve ⟨t.bits / 2, t.ten + 1⟩ fives

/-- Trades `fives` doublings for powers of ten: a number with room is doubled,
and else divided by five. -/
def Trade.double (t : Trade) : Nat → Trade
  | 0 => t
  | fives + 1 =>
      if t.bits * 2 < mantissaLimit then
        Trade.double ⟨t.bits * 2, t.ten - 1⟩ fives
      else Trade.double ⟨t.bits / 5, t.ten⟩ fives

/-- Multiplies the remaining powers of ten in, if there is room. -/
def Trade.multiplyOut? (bits : Nat) : Nat → Option Nat
  | 0 => some bits
  | tens + 1 =>
      if bits * 10 < mantissaLimit then multiplyOut? (bits * 10) tens else none

/-- Drops `places` digits one at a time, each rounding half up the number left.
A number that vanishes is not rounded up again. -/
def Trade.dropPlaces (bits : Nat) : Nat → Nat
  | 0 => bits
  | places + 1 =>
      if bits / 10 = 0 then 0
      else dropPlaces (if 5 ≤ bits % 10 then bits / 10 + 1
      else bits / 10) places

/-- Drops digits, each rounding half up, while the number has more bits than a
double's mantissa and places are left. -/
def Trade.dropExcess (bits : Nat) : Nat → Nat × Nat
  | 0 => (bits, 0)
  | scale + 1 =>
      if bits < twoPow 52 then (bits, scale + 1)
      else dropExcess (if 5 ≤ bits % 10 then bits / 10 + 1 else bits / 10) scale

/-- The decimal near a finite double. -/
def ofExact (e : Double.Exact) : Decimal :=
  let t : Trade := ⟨e.mantissa, e.exponent⟩
  let t := if e.exponent < 0 then t.halve (-e.exponent).toNat else
    t.double e.exponent.toNat
  let whole : Option (Nat × Nat) :=
    if 0 < t.ten then
      (Trade.multiplyOut? t.bits t.ten.toNat).map fun bits => (bits, 0)
    else
      let scale := (-t.ten).toNat
      some (Trade.dropPlaces t.bits (scale - 28), min scale 28)
  match whole with
  | none => zero
  | some (bits, scale) =>
      let (bits, scale) := Trade.dropExcess bits scale
      let (bits, scale) := stripZeros bits scale
      (mk? e.negative bits scale).getD zero

/-- The decimal near a double; `NaN`, an infinity and a magnitude of at least
`mantissaLimit` give zero. -/
def ofDouble (x : Float) : Decimal :=
  match Double.value? x with
  | none => zero
  | some e =>
      if e.mantissa = 0 || mantissaLimit ≤ e.ratio.1 / e.ratio.2 then zero
      else ofExact e

/-! ## To a double -/

/-- The nearest double of a natural. -/
def doubleOfNat (n : Nat) : Float := Float.ofScientific n false 0

/-- The double of the magnitude: whole part and fraction are converted apart and
their sum is rounded to the decimal's own places. -/
def magnitudeToDouble (d : Decimal) : Float :=
  let unit := tenPow d.scale
  let whole := doubleOfNat (d.mantissa / unit)
  let fraction := doubleOfNat (d.mantissa % unit) / doubleOfNat unit
  if d.scale = 0 ∨ d.mantissa % unit = 0 then whole
  else Double.roundHalfAway ((whole + fraction) * doubleOfNat unit) /
    doubleOfNat unit

/-- The double of a decimal. A zero without places has no sign. -/
def toDouble (d : Decimal) : Float :=
  if d.negative && (d.scale != 0 || d.mantissa != 0) then -d.magnitudeToDouble
  else d.magnitudeToDouble

/-! ## In JSON -/

/-- A decimal as a JSON number, its double. -/
def toJson (d : Decimal) : Json := .ofFloat d.toDouble

/-- Reads a text as a decimal, anything else being of the wrong shape. -/
def ofText (text : String) : Except Refusal Decimal :=
  match read text with
  | .ok d => .ok d
  | .error _ => .error .shape

/-- Reads a decimal from an integer, from a number by way of its shortest text,
or from a string. -/
def decoder : Decoder Decimal
  | .int n => ofText (intText n)
  | .float x => ofText (Double.shortestText x)
  | .string s => ofText s
  | d => .error (Decoder.mismatch d)

end Ridehail.Decimal
