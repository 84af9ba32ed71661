import Ridehail.Json.Reader
import Ridehail.Text.Utf8

/-!
# Percent encoding

In a path, `%` and two hexadecimal digits stand for a byte; in a query, `+` also
stands for a blank. A `%` that is not followed by two digits stands for itself.

## Main definitions

* `Percent.decodeBytes` — the bytes that are meant.
* `Percent.segment?`, `Percent.formText` — a path segment, a piece of a query.
* `Percent.encodeText`, `Percent.encodeForm` — writing.
-/

namespace Ridehail.Percent

/-- The value of a byte that is a hexadecimal digit. -/
def hexByte? (b : UInt8) : Option Nat := hexValue? (Char.ofNat b.toNat)

/-- The bytes with each `%XX` replaced by the byte it stands for. -/
def decodeBytes : List UInt8 → List UInt8
  | [] => []
  | b :: high :: low :: rest =>
      if b = 0x25 then
        match hexByte? high, hexByte? low with
        | some h, some l => UInt8.ofNat (16 * h + l) :: decodeBytes rest
        | _, _ => b :: decodeBytes (high :: low :: rest)
      else b :: decodeBytes (high :: low :: rest)
  | b :: rest => b :: decodeBytes rest

/-- The text of a path segment, unless its bytes are no text. -/
def segment? (raw : String) : Option String :=
  Utf8.read? (decodeBytes (Utf8.encode raw))

/-- The text of a piece of a query. -/
def formText (raw : String) : String :=
  Utf8.readLossy
    (decodeBytes ((Utf8.encode raw).map fun b => if b = 0x2b then 0x20 else b))

/-- A byte as `%XX`. -/
def encodeByte (b : UInt8) : List Char :=
  let digit (n : Nat) : Char :=
    if n < 10 then Char.ofNat (48 + n) else Char.ofNat (55 + n)
  ['%', digit (b.toNat / 16), digit (b.toNat % 16)]

/-- A text with every character that is not kept written as `%XX`. -/
def encodeText (keep : Char → Bool) (text : String) : String :=
  String.ofList <| text.toList.flatMap fun c =>
    if keep c then [c] else (String.utf8EncodeChar c).flatMap encodeByte

/-- Whether a character is a visible one of ASCII. -/
def isVisible (c : Char) : Bool := 0x20 < c.toNat && c.toNat < 0x7f

/-- The visible characters that cannot stand in a path. -/
def specialInPath : List Char :=
  ['"', '#', '<', '>', '?', '\x60', '\x7b', '\x7d']

/-- The visible characters that cannot stand in a query. -/
def specialInQuery : List Char := ['"', '#', '<', '>', '\x27']

/-- The characters of a path that are written as they are. -/
def keptInPath (c : Char) : Bool := isVisible c && !specialInPath.contains c

/-- The characters of a query that are written as they are. -/
def keptInQuery (c : Char) : Bool := isVisible c && !specialInQuery.contains c

/-- A piece of a query: letters, digits and `*-._` as they are, a blank as
`+`. -/
def encodeForm (text : String) : String :=
  String.ofList <| text.toList.flatMap fun c =>
    if c = ' ' then ['+']
    else if c.isAlphanum || ['*', '-', '.', '_'].contains c then [c]
    else (String.utf8EncodeChar c).flatMap encodeByte

end Ridehail.Percent
