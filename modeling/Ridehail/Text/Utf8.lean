import Ridehail.Number.Power

/-!
# UTF-8

Reading bytes as characters. A byte sequence that is no character is taken up to
where it stops being the beginning of one, and reported as one defect; what
follows is read afresh.

## Main definitions

* `Utf8.encode` — the bytes of a text.
* `Utf8.decode` — the characters of some bytes, `none` for each defect.
* `Utf8.read?`, `Utf8.readLossy` — refusing defects, or putting U+FFFD for them.
-/

namespace Ridehail.Utf8

/-- The bytes of a text. -/
def encode (text : String) : List UInt8 :=
  text.toList.flatMap String.utf8EncodeChar

/-- How a sequence goes on after its first byte: how many bytes follow and in
which range the next one has to be. -/
structure Lead where
  follow : Nat
  low : Nat
  high : Nat
  deriving DecidableEq, Repr

/-- What a first byte announces. The ranges leave out overlong forms, surrogates
and what is beyond the last code point. -/
def lead? (b : Nat) : Option Lead :=
  if b < 0x80 then some ⟨0, 0x80, 0xbf⟩
  else if b < 0xc2 then none
  else if b < 0xe0 then some ⟨1, 0x80, 0xbf⟩
  else if b = 0xe0 then some ⟨2, 0xa0, 0xbf⟩
  else if b = 0xed then some ⟨2, 0x80, 0x9f⟩
  else if b < 0xf0 then some ⟨2, 0x80, 0xbf⟩
  else if b = 0xf0 then some ⟨3, 0x90, 0xbf⟩
  else if b < 0xf4 then some ⟨3, 0x80, 0xbf⟩
  else if b = 0xf4 then some ⟨3, 0x80, 0x8f⟩
  else none

/-- The following bytes as far as they are there and in range. -/
def followers : Nat → Nat → Nat → List UInt8 → List Nat
  | 0, _, _, _ => []
  | _, _, _, [] => []
  | follow + 1, low, high, b :: rest =>
      if low ≤ b.toNat && b.toNat ≤ high then
        b.toNat :: followers follow 0x80 0xbf rest else []

/-- The code point of a first byte and the bytes that follow it. -/
def codePoint (b : Nat) (rest : List Nat) : Nat :=
  let head := if rest.isEmpty then b else b % twoPow (6 - rest.length)
  rest.foldl (fun n c => n * 64 + c % 64) head

/-- The character that begins with `b`, if there is one, and how many of the
bytes that follow are taken. -/
def next (b : UInt8) (bytes : List UInt8) : Option Char × Nat :=
  match lead? b.toNat with
  | none => (none, 0)
  | some lead =>
      let rest := followers lead.follow lead.low lead.high bytes
      if rest.length = lead.follow then
        (some (Char.ofNat (codePoint b.toNat rest)), rest.length)
      else (none, rest.length)

/-- The characters of some bytes, `none` for each defect. -/
def decode : List UInt8 → List (Option Char)
  | [] => []
  | b :: bytes => (next b bytes).1 :: decode (bytes.drop (next b bytes).2)
termination_by bytes => bytes.length
decreasing_by simp only [List.length_drop, List.length_cons]; omega

/-- The text of some bytes that have no defect. -/
def read? (bytes : List UInt8) : Option String :=
  ((decode bytes).mapM id).map String.ofList

/-- The text of some bytes with U+FFFD for each defect. -/
def readLossy (bytes : List UInt8) : String :=
  String.ofList ((decode bytes).map fun c => c.getD '\ufffd')

end Ridehail.Utf8
