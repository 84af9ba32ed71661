import Ridehail.Json.Basic
import Ridehail.Double.Printer

/-!
# Writing JSON

The compact text of a value: no blanks, members in their order, strings with the
two-character escapes where JSON has them and `\u00xx` for the other control
characters. A double is written with its shortest digits and with a point or an
exponent, so that it is read back as a double.
-/

namespace Ridehail.Json

/-- The hexadecimal digit of a number below sixteen. -/
def hexDigit (n : Nat) : Char :=
  if n < 10 then Char.ofNat (48 + n) else Char.ofNat (87 + n)

/-- A character inside a string. -/
def escape (c : Char) : List Char :=
  match c with
  | '"' => ['\\', '"']
  | '\\' => ['\\', '\\']
  | '\n' => ['\\', 'n']
  | '\r' => ['\\', 'r']
  | '\t' => ['\\', 't']
  | c =>
      if c.toNat < 32 then
        ['\\', 'u', '0', '0', hexDigit (c.toNat / 16), hexDigit (c.toNat % 16)]
      else [c]

/-- A string with its quotes. -/
def quoted (s : String) : String :=
  "\"" ++ String.ofList (s.toList.flatMap escape) ++ "\""

/-- The digits of a positive double. They are written out while their first one
stands at most sixteen places before the point and at most five behind it;
further out one digit stands before the point and an exponent after the
digits. -/
def scientificChars (s : Double.Scientific) : List Char :=
  let digits := decimalDigits s.digits
  let lead : Int := digits.length + s.exponent
  if -5 < lead && lead ≤ 16 then
    if 0 ≤ s.exponent then s.positional ++ ['.', '0'] else s.positional
  else
    let fraction := digits.drop 1
    digits.take 1 ++ (if fraction.isEmpty then [] else '.' :: fraction)
      ++ 'e' :: (intText (lead - 1)).toList

/-- A double; one that is no number is `null`. -/
def floatText (x : Float) : String :=
  match Double.value? x with
  | none => "null"
  | some e =>
      let digits := if e.mantissa = 0 then ['0', '.', '0'] else
        scientificChars e.shortest
      String.ofList (if e.negative then '-' :: digits else digits)

mutual

/-- The compact text of a value. -/
def text : Json → String
  | .null => "null"
  | .bool b => if b then "true" else "false"
  | .int n => intText n
  | .float x => floatText x
  | .string s => quoted s
  | .array items => "[" ++ ",".intercalate (itemTexts items) ++ "]"
  | .object members => "\x7b" ++ ",".intercalate (memberTexts members) ++ "\x7d"

/-- The texts of the items of an array. -/
def itemTexts : List Json → List String
  | [] => []
  | item :: rest => text item :: itemTexts rest

/-- The texts of the members of an object. -/
def memberTexts : List (String × Json) → List String
  | [] => []
  | (key, value) :: rest =>
      (quoted key ++ ":" ++ text value) :: memberTexts rest

end

mutual

/-- Replaces every double by the string that `render` gives for it. -/
def withFloats (render : Float → String) : Json → Json
  | .float x => .string (render x)
  | .array items => .array (itemsWithFloats render items)
  | .object members => .object (membersWithFloats render members)
  | v => v

/-- Replaces the doubles in the items of an array. -/
def itemsWithFloats (render : Float → String) : List Json → List Json
  | [] => []
  | item :: rest => withFloats render item :: itemsWithFloats render rest

/-- Replaces the doubles in the members of an object. -/
def membersWithFloats (render : Float → String) :
    List (String × Json) → List (String × Json)
  | [] => []
  | (key, value) :: rest =>
      (key, withFloats render value) :: membersWithFloats render rest

end

end Ridehail.Json
