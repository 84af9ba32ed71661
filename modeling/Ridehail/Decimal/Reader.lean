import Ridehail.Decimal.Basic

/-!
# Reading a decimal

The plain form is an optional sign, then digits with at most one point among
them; `_` may stand anywhere after the first digit. Digits after the point that
do not fit any more are dropped, and the first dropped one rounds. A text that
is not in plain form may be a plain decimal, `e` or `E`, and a whole exponent of
at most 28 either way; a negative one that leaves too many places drops the last
digits, rounding half up.

## Main definitions

* `ReadError` — why a text is not a decimal, and `ReadError.message`.
* `readPlain` — the plain form.
* `read` — either form; the error is that of the form the text looks like.
-/

namespace Ridehail.Decimal

/-- Why a text is not a decimal. -/
inductive ReadError where
  | empty
  | noDigits
  | twoPoints
  | leadingSeparator
  | unknownCharacter
  | tooManyDigits
  | roundsOver
  | badExponent
  | exponentTooLarge (places : Nat)
  | tooLarge
  deriving DecidableEq, Repr

/-- The wording of a read error. -/
def ReadError.message : ReadError → String
  | .empty => "Invalid decimal: empty"
  | .noDigits => "Invalid decimal: no digits found"
  | .twoPoints => "Invalid decimal: two decimal points"
  | .leadingSeparator => "Invalid decimal: must start lead with a number"
  | .unknownCharacter => "Invalid decimal: unknown character"
  | .tooManyDigits => "Invalid decimal: overflow from too many digits"
  | .roundsOver => "Invalid decimal: overflow from mantissa after rounding"
  | .badExponent => "Failed to parse"
  | .exponentTooLarge places =>
      "Scale exceeds the maximum precision allowed: " ++
        natText places ++ " > 28"
  | .tooLarge => "Number exceeds maximum value that can be represented."

/-- Why a character cannot stand where it does. -/
def misplaced (c : Char) : ReadError :=
  if c = '.' then .twoPoints else if c = '_' then .leadingSeparator
  else .unknownCharacter

/-! ## The plain form -/

/-- What has been read of a plain decimal: the digits so far, how many of them
stand after the point, and whether the point and any digit have been seen. -/
structure Progress where
  mantissa : Nat
  places : Nat
  pointSeen : Bool
  digitSeen : Bool

/-- Nothing read yet. -/
def Progress.start : Progress := ⟨0, 0, false, false⟩

/-- The rest behind the last digit that fits may hold digits and separators. -/
def checkDropped : List Char → Except ReadError Unit
  | [] => .ok ()
  | c :: cs =>
      if isDigit c || c = '_' then checkDropped cs else .error (misplaced c)

/-- A mantissa is short if its digits without the last one are worth less than
this, which is a little under `2 ^ 64 / 10`. -/
def shortLimit : Nat := 1844674407370954906

/-- Whether the digits dropped behind `p` round it up. Their first one decides.
Separators before it are passed over behind a long mantissa; behind a short one
a separator counts as a dropped zero. -/
def roundsUp (p : Progress) (cs : List Char) : Bool :=
  let dropped :=
    if p.mantissa / 10 < shortLimit then cs else cs.dropWhile (· = '_')
  match dropped with
  | c :: _ => isDigit c && 5 ≤ digitValue c
  | [] => false

/-- The decimal read when `cs` does not fit any more: its first digit rounds,
and a mantissa rounded past 96 bits gives up one place. -/
def finishDropped (negative : Bool) (p : Progress) (cs : List Char) :
    Except ReadError Decimal := do
  checkDropped cs
  if !roundsUp p cs then
    match mk? negative p.mantissa p.places with
    | some d => .ok d
    | none => .error .tooManyDigits
  else
    match mk? negative (p.mantissa + 1) p.places with
    | some d => .ok d
    | none =>
        if p.places = 0 then .error .roundsOver
        else
          match mk? negative ((p.mantissa + 5) / 10) (p.places - 1) with
          | some d => .ok d
          | none => .error .roundsOver

/-- Reads the characters after the sign. -/
def readDigits (negative : Bool) (p : Progress) :
    List Char → Except ReadError Decimal
  | [] =>
      if !p.digitSeen then .error .noDigits
      else
        match mk? negative p.mantissa p.places with
        | some d => .ok d
        | none => .error .tooManyDigits
  | c :: cs =>
      if p.digitSeen && p.pointSeen && p.places = 28 then
        finishDropped negative p (c :: cs)
      else if isDigit c then
        let mantissa := 10 * p.mantissa + digitValue c
        if mantissa < mantissaLimit then
          readDigits negative
            ⟨mantissa, if p.pointSeen then p.places + 1 else 0,
              p.pointSeen, true⟩ cs
        else if p.pointSeen then finishDropped negative p (c :: cs)
        else .error .tooManyDigits
      else if c = '.' && !p.pointSeen then
        readDigits negative { p with pointSeen := true } cs
      else if c = '_' && p.digitSeen then readDigits negative p cs
      else .error (misplaced c)

/-- Reads a decimal in plain form. -/
def readPlain (cs : List Char) : Except ReadError Decimal :=
  match cs with
  | [] => .error .empty
  | '-' :: cs => readDigits true .start cs
  | '+' :: cs => readDigits false .start cs
  | cs => readDigits false .start cs

/-! ## With an exponent -/

/-- The largest exponent that can be written, a 32-bit number. -/
def exponentLimit : Nat := 4294967295

/-- Reads the size of an exponent. -/
def readExponentSize (cs : List Char) : Except ReadError Nat :=
  match readNat? cs with
  | some n => if n ≤ exponentLimit then .ok n else .error .badExponent
  | none => .error .badExponent

/-- `d * 10 ^ -places`: more places, the digits beyond the last possible place
being rounded off, halves up. The sign stays even if no other digit does. -/
def shiftDown (d : Decimal) (places : Nat) : Except ReadError Decimal :=
  if h : places ≤ 28 then
    let kept := d.withScale (min d.scale (28 - places)) (Nat.min_le_left _ _)
    .ok { kept with
      scale := min d.scale (28 - places) + places
      scale_le := by have := Nat.min_le_right d.scale (28 - places); omega }
  else .error (.exponentTooLarge places)

/-- `d * 10 ^ places`: fewer places, and a larger mantissa once they run out. -/
def shiftUp (d : Decimal) (places : Nat) : Except ReadError Decimal :=
  if places ≤ d.scale then
    match mk? d.negative d.mantissa (d.scale - places) with
    | some shifted => .ok shifted
    | none => .error .tooLarge
  else if 28 < places then .error (.exponentTooLarge places)
  else
    match mk? d.negative (d.mantissa * tenPow (places - d.scale)) 0 with
    | some shifted => .ok shifted
    | none => .error .tooLarge

/-- Whether a character introduces an exponent. -/
def isExponentMark (c : Char) : Bool := c = 'e' || c = 'E'

/-- Reads a decimal with an exponent after the first `e` or `E`. -/
def readScientific (cs : List Char) : Except ReadError Decimal := do
  let d ← readPlain (cs.takeWhile fun c => !isExponentMark c)
  match (cs.dropWhile fun c => !isExponentMark c).drop 1 with
  | '-' :: size => shiftDown d (← readExponentSize size)
  | size => shiftUp d (← readExponentSize size)

/-- Reads a decimal in either form. -/
def readChars (cs : List Char) : Except ReadError Decimal :=
  match readPlain cs with
  | .ok d => .ok d
  | .error e => if cs.any isExponentMark then readScientific cs else .error e

/-- Reads a decimal in either form. -/
def read (text : String) : Except ReadError Decimal := readChars text.toList

end Ridehail.Decimal
