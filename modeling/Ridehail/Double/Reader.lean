import Ridehail.Double.Basic
import Ridehail.Number.Digits

/-!
# Reading a double

A decimal `± digits * 10 ^ exponent` is brought to the nearest double by
`ofDecimal`, which first settles the magnitudes that are certainly infinite or
certainly zero, so that no exponent makes it compute a huge power of ten.
`readText?` reads the free form of the settings and query strings: an optional
sign, then `inf`, `infinity` or `nan` in any case, or digits with an optional
point and exponent; `readDatum?` also keeps the sign of a `nan`.
-/

namespace Ridehail.Double

/-- The positive infinity. -/
def infinity : Float := 1.0 / 0.0

/-- The one `NaN`. -/
def notANumber : Float := 0.0 / 0.0

/-- The double nearest to `± digits * 10 ^ exponent`. A value of more than 310
places before the point is infinite and one with 330 zeros after it is zero. -/
def ofDecimal (negative : Bool) (digits : Nat) (exponent : Int) : Float :=
  let places : Int := digitCount digits + exponent
  let magnitude :=
    if digits = 0 then 0.0
    else if 310 < places then infinity
    else if places < -330 then 0.0
    else if 0 ≤ exponent then Float.ofScientific digits false exponent.toNat
    else Float.ofScientific digits true (-exponent).toNat
  if negative then -magnitude else magnitude

/-- The value of the exponent part of a number: `e` or `E`, an optional sign and
at least one digit, or nothing at all. -/
def readExponent? : List Char → Option Int
  | [] => some 0
  | c :: cs =>
      if c = 'e' || c = 'E' then
        match cs with
        | '-' :: ds => (readDigits? ds).map fun n => -(n : Int)
        | '+' :: ds => (readDigits? ds).map fun n => (n : Int)
        | ds => (readDigits? ds).map fun n => (n : Int)
      else none

/-- Reads digits with an optional point and exponent; at least one digit has to
stand before or after the point. -/
def readMagnitude? (negative : Bool) (cs : List Char) : Option Float :=
  let whole := cs.takeWhile isDigit
  let rest := cs.dropWhile isDigit
  let (fraction, rest) := match rest with
    | '.' :: more => (more.takeWhile isDigit, more.dropWhile isDigit)
    | _ => ([], rest)
  if whole.isEmpty && fraction.isEmpty then none
  else (readExponent? rest).map fun exponent =>
    ofDecimal negative (digitsValue (whole ++ fraction))
      (exponent - fraction.length)

/-- Reads a double from text: a sign, then a special name or a decimal. -/
def readText? (text : String) : Option Float :=
  let (negative, cs) := match text.toList with
    | '-' :: cs => (true, cs)
    | '+' :: cs => (false, cs)
    | cs => (false, cs)
  let name := String.ofList (cs.map Char.toLower)
  if name = "inf" || name = "infinity" then
    some (if negative then -infinity else infinity)
  else if name = "nan" then some notANumber
  else readMagnitude? negative cs

/-- Reads a double from text, keeping the sign of a `NaN`. -/
def readDatum? (text : String) : Option Datum :=
  (readText? text).map fun value =>
    ⟨value, value.isNaN && text.toList.head? = some '-'⟩

end Ridehail.Double
