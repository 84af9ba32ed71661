import Ridehail.Json.Reader

/-!
# Ride identifiers

A ride is identified by 128 bits, written as 32 lower-case hexadecimal digits in
groups of 8, 4, 4, 4 and 12. Reading also takes upper case, the digits without
hyphens, and the grouped form in braces or after `urn:uuid:` in any case.

## Main definitions

* `RideId` — the type, ordered as its text is.
* `RideId.text`, `RideId.read?` — writing and reading.
* `RideId.ofSerial` — the identifier of the `n`-th ride drawn.
-/

namespace Ridehail

/-- The 128 bits that identify a ride. -/
structure RideId where
  bits : BitVec 128
  deriving DecidableEq, Repr, Inhabited

namespace RideId

/-- The lower-case hexadecimal digit of a number below sixteen. -/
def hexChar (n : Nat) : Char :=
  if n < 10 then Char.ofNat (48 + n) else Char.ofNat (87 + n)

/-- The last `width` hexadecimal digits of `n`, most significant first. -/
def hexDigits (n : Nat) : Nat → List Char
  | 0 => []
  | width + 1 => hexChar (n / twoPow (4 * width) % 16) :: hexDigits n width

/-- The grouped text as characters. -/
def chars (id : RideId) : List Char :=
  let digits := hexDigits id.bits.toNat 32
  digits.take 8 ++ '-' :: (digits.drop 8).take 4 ++
    '-' :: (digits.drop 12).take 4
    ++ '-' :: (digits.drop 16).take 4 ++ '-' :: digits.drop 20

/-- The grouped text. -/
def text (id : RideId) : String := String.ofList id.chars

/-- Reads 32 hexadecimal digits. -/
def readDigits? (cs : List Char) : Option RideId :=
  if cs.length = 32 then (hexDigits? cs).map fun n => ⟨BitVec.ofNat 128 n⟩
    else none

/-- Reads the grouped form. -/
def readGrouped? (cs : List Char) : Option RideId :=
  let hyphens := [cs[8]?, cs[13]?, cs[18]?, cs[23]?]
  if cs.length = 36 && hyphens.all (· == some '-') then
    readDigits? (cs.take 8 ++ (cs.drop 9).take 4 ++ (cs.drop 14).take 4
      ++ (cs.drop 19).take 4 ++ cs.drop 24)
  else none

/-- What may precede the grouped form, in any case. -/
def scheme : List Char := "urn:uuid:".toList

/-- Reads an identifier in any of its forms. -/
def readChars? (cs : List Char) : Option RideId :=
  if cs.length = 32 then readDigits? cs
  else if cs.length = 36 then readGrouped? cs
  else if cs.length = 38 then
    if cs.head? = some '{' && cs.getLast? = some '}' then
      readGrouped? (cs.drop 1).dropLast
    else none
  else if cs.length = 45 && (cs.take 9).map Char.toLower = scheme then
    readGrouped? (cs.drop 9)
  else none

/-- Reads an identifier in any of its forms. -/
def read? (text : String) : Option RideId := readChars? text.toList

/-- The order of the texts, which is that of the numbers. -/
def le (a b : RideId) : Bool := a.bits.toNat ≤ b.bits.toNat

/-- The identifier of the `n`-th ride drawn: the serial number in the last 48
bits, the marks of a random identifier, and a first octet that scatters
consecutive rides. -/
def ofSerial (n : Nat) : RideId :=
  let octet := 167 * n % 256
  let marks := 0x4000 * twoPow 64 + 0x8000 * twoPow 48
  ⟨BitVec.ofNat 128 (octet * twoPow 120 + marks + n % twoPow 48)⟩

end RideId

end Ridehail
