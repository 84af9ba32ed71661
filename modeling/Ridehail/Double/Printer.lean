import Ridehail.Double.Basic
import Ridehail.Number.Digits

/-!
# Text of a double

Two texts of a double are written. `fixedText` shows the exact value with a
given number of places, halves going to the even neighbour. `shortestText` shows
the fewest digits that still read back as the same double and never uses an
exponent. Both are computed from the exact value in natural arithmetic.

The doubles that read as `x` form an interval around `x` whose ends are half a
step away; the ends belong to it exactly when the mantissa of `x` is even. For
`n = 1, 2, … 17` digits the two neighbours of `x` on the grid of `n`-digit
decimals are tried, and the first grid with a neighbour inside the interval
gives the digits.
-/

namespace Ridehail.Double

/-! ## A given number of places -/

/-- The text of an exact value with `places` digits after the point. -/
def Exact.fixedText (places : Nat) (e : Exact) : String :=
  let scaled := roundDiv .toEven (e.ratio.1 * tenPow places) e.ratio.2
  let digits := pointedDigits places scaled
  String.ofList (if e.negative then '-' :: digits else digits)

/-- The text of a double that is no number. -/
def specialText (x : Float) : String :=
  if x.isNaN then "NaN" else if signBit x then "-inf" else "inf"

/-- The exact value with `places` digits after the point, the sign kept even
when every digit is zero. -/
def fixedText (places : Nat) (x : Float) : String :=
  match value? x with
  | none => specialText x
  | some e => e.fixedText places

/-! ## The fewest digits that read back -/

/-- The decimal `digits * 10 ^ exponent`. -/
structure Scientific where
  digits : Nat
  exponent : Int
  deriving DecidableEq, Repr

/-- The position of the leading digit of `num / den`, zero for the units. -/
def leadingPlace (num den : Nat) : Int :=
  if den ≤ num then (digitCount (num / den) - 1 : Nat)
  else -(digitCount ((den + num - 1) / num - 1) : Int)

/-- The quarter steps below, at and above a double: the ends of the interval of
numbers that read as it. Below a power of two the step is half as wide. -/
def Exact.lowEnd (e : Exact) : Nat :=
  if e.mantissa = twoPow 52 ∧ -1074 < e.exponent then 4 * e.mantissa - 1
  else 4 * e.mantissa - 2

@[inherit_doc Exact.lowEnd]
def Exact.highEnd (e : Exact) : Nat := 4 * e.mantissa + 2

/-- Whether `candidate * unit`, in quarter steps of size `step`, reads as the
double. -/
def Exact.reads (e : Exact) (unit step candidate : Nat) : Bool :=
  let point := candidate * unit
  let low := e.lowEnd * step
  let high := e.highEnd * step
  if e.mantissa % 2 = 0 then low ≤ point && point ≤ high
  else low < point && point < high

/-- The decimal nearest to the value with its last digit at `place`, if one
reads as the double. -/
def Exact.onGrid? (e : Exact) (place : Int) : Option Scientific :=
  let quarter := e.exponent - 2
  let unit := tenPow place.toNat * twoPow (-quarter).toNat
  let step := twoPow quarter.toNat * tenPow (-place).toNat
  let value := 4 * e.mantissa * step
  let below := value / unit
  let above := below + 1
  let nearBelow := value - below * unit
  let nearAbove := above * unit - value
  match e.reads unit step below, e.reads unit step above with
  | false, false => none
  | true, false => some ⟨below, place⟩
  | false, true => some ⟨above, place⟩
  | true, true =>
      if nearBelow < nearAbove || (nearBelow = nearAbove && below % 2 = 0) then
        some ⟨below, place⟩
      else some ⟨above, place⟩

/-- Moves one trailing zero of the digits into the exponent. -/
def Scientific.trim (s : Scientific) : Scientific :=
  if s.digits % 10 = 0 then ⟨s.digits / 10, s.exponent + 1⟩ else s

/-- The shortest decimal that reads as a nonzero value. -/
def Exact.shortest (e : Exact) : Scientific :=
  let lead := leadingPlace e.ratio.1 e.ratio.2
  let found := (List.range 17).findSome? fun (more : Nat) =>
    e.onGrid? (lead - more)
  (found.getD ⟨0, 0⟩).trim

/-- The digits of a decimal, written without an exponent. -/
def Scientific.positional (s : Scientific) : List Char :=
  if 0 ≤ s.exponent then decimalDigits (s.digits * tenPow s.exponent.toNat)
  else pointedDigits (-s.exponent).toNat s.digits

/-- The fewest digits that read back as `x`, without an exponent and without a
fraction for a whole number. -/
def shortestText (x : Float) : String :=
  match value? x with
  | none => specialText x
  | some e =>
      let digits := if e.mantissa = 0 then ['0'] else e.shortest.positional
      String.ofList (if e.negative then '-' :: digits else digits)

end Ridehail.Double
