import Ridehail.Json.Basic
import Ridehail.Double.Scaled

/-!
# Reading JSON

A text is first cut into tokens, which stops at the first character that starts
none, and the tokens are then put together by a machine with a stack of open
containers. Both steps always give an answer: where the grammar is violated, the
value being read is broken and every open container stays unclosed.

A numeral that is no integer is read by scaling, which is quick and may miss the
nearest double by a little.

## Main definitions

* `Token.lex` — the tokens of a text.
* `Document.ofTokens` — the first document of a token sequence, and what is
  left.
* `Document.read`, `Document.readWhole?` — reading a text whose rest does not
  matter, and one that has to be a single value.
-/

namespace Ridehail

/-! ## Strings -/

/-- A piece of a string: a character as it stands, or a UTF-16 unit written in
hexadecimal. -/
inductive StringPiece where
  | char (c : Char)
  | unit (n : Nat)

/-- The value of a hexadecimal digit. -/
def hexValue? (c : Char) : Option Nat :=
  if isDigit c then some (c.toNat - 48)
  else if 'a' ≤ c && c ≤ 'f' then some (c.toNat - 87)
  else if 'A' ≤ c && c ≤ 'F' then some (c.toNat - 55)
  else none

/-- The value of a run of hexadecimal digits. -/
def hexDigits? (cs : List Char) : Option Nat :=
  cs.foldl (fun value c => do return 16 * (← value) + (← hexValue? c)) (some 0)

/-- The character that a backslash and `c` stand for. -/
def unescape? (c : Char) : Option Char :=
  match c with
  | '"' => some '"'
  | '\\' => some '\\'
  | '/' => some '/'
  | 'b' => some '\x08'
  | 'f' => some '\x0c'
  | 'n' => some '\n'
  | 'r' => some '\r'
  | 't' => some '\t'
  | _ => none

/-- The pieces of a string up to its closing quote, and how many characters they
and the quote take. -/
def scanString? : List Char → Option (List StringPiece × Nat)
  | [] => none
  | '"' :: _ => some ([], 1)
  | '\\' :: 'u' :: a :: b :: c :: d :: cs => do
      let n ← hexDigits? [a, b, c, d]
      let (pieces, size) ← scanString? cs
      return (.unit n :: pieces, size + 6)
  | '\\' :: e :: cs => do
      let c ← unescape? e
      let (pieces, size) ← scanString? cs
      return (.char c :: pieces, size + 2)
  | c :: cs => do
      if c.toNat < 32 then none
      let (pieces, size) ← scanString? cs
      return (.char c :: pieces, size + 1)

/-- Whether a UTF-16 unit opens a surrogate pair. -/
def isHighSurrogate (n : Nat) : Bool := 0xD800 ≤ n && n < 0xDC00

/-- Whether a UTF-16 unit closes a surrogate pair. -/
def isLowSurrogate (n : Nat) : Bool := 0xDC00 ≤ n && n < 0xE000

/-- The characters of the pieces, unless a surrogate stands alone. -/
def joinPieces? : List StringPiece → Option (List Char)
  | [] => some []
  | .char c :: rest => (joinPieces? rest).map (c :: ·)
  | .unit high :: .unit low :: rest =>
      if isHighSurrogate high && isLowSurrogate low then
        let c := Char.ofNat (0x10000 + (high - 0xD800) * 0x400 + (low - 0xDC00))
        (joinPieces? rest).map (c :: ·)
      else if isHighSurrogate high || isLowSurrogate high then none
      else (joinPieces? (.unit low :: rest)).map (Char.ofNat high :: ·)
  | .unit n :: rest =>
      if isHighSurrogate n || isLowSurrogate n then none
      else (joinPieces? rest).map (Char.ofNat n :: ·)

/-! ## Numbers -/

/-- The digits of a number and the parts it is made of. -/
structure Numeral where
  negative : Bool
  whole : List Char
  fraction : Option (List Char)
  exponent : Option Int
  size : Nat

/-- The exponent at the head of `cs` and its size: zero characters if there is
none, nothing if it has no digits. -/
def scanExponent? (cs : List Char) : Option (Option Int × Nat) :=
  match cs with
  | mark :: more =>
      if mark = 'e' || mark = 'E' then
        let (negative, signSize, more) := match more with
          | '-' :: rest => (true, 1, rest)
          | '+' :: rest => (false, 1, rest)
          | rest => (false, 0, rest)
        let digits := more.takeWhile isDigit
        if digits.isEmpty then none
        else
          let n : Int := digitsValue digits
          some (some (if negative then -n else n), 1 + signSize + digits.length)
      else some (none, 0)
  | [] => some (none, 0)

/-- The fraction at the head of `cs` and its size: zero characters if there is
none, nothing if it has no digits. -/
def scanFraction? (cs : List Char) : Option (Option (List Char) × Nat) :=
  match cs with
  | '.' :: more =>
      let digits := more.takeWhile isDigit
      if digits.isEmpty then none else some (some digits, 1 + digits.length)
  | _ => some (none, 0)

/-- The number at the head of `cs`; a whole part has no leading zero. -/
def scanNumber? (cs : List Char) : Option Numeral := do
  let (negative, signSize, cs) := match cs with
    | '-' :: rest => (true, 1, rest)
    | rest => (false, 0, rest)
  let whole := cs.takeWhile isDigit
  if whole.isEmpty || (whole.head? = some '0' && 1 < whole.length) then none
  let (fraction, fractionSize) ← scanFraction? (cs.drop whole.length)
  let (exponent, exponentSize) ← scanExponent?
    (cs.drop (whole.length + fractionSize))
  return ⟨negative, whole, fraction, exponent,
    signSize + whole.length + fractionSize + exponentSize⟩

/-- Whether a numeral stays an integer: no point, no exponent, 64 bits, and not
a negative zero. -/
def Numeral.integer? (n : Numeral) : Option Int :=
  if n.fraction.isSome || n.exponent.isSome then none
  else
    let value := digitsValue n.whole
    if n.negative then
      if value = 0 || twoPow 63 < value then none else some (-(value : Int))
    else if value < twoPow 64 then some value else none

/-- The document of a numeral; one beyond the doubles denotes nothing. -/
def Document.ofNumeral (n : Numeral) : Document :=
  match n.integer? with
  | some value => .int value
  | none =>
      match Double.scaled? n.negative n.whole (n.fraction.getD [])
        (n.exponent.getD 0) with
      | some x => .float x
      | none => .unreadable

/-! ## Tokens -/

/-- A token of JSON. -/
inductive Token where
  | openArray
  | closeArray
  | openObject
  | closeObject
  | comma
  | colon
  /-- A whole value other than an array or object. -/
  | leaf (d : Document)
  /-- A string that denotes no text. -/
  | obscure
  /-- Characters that start no token. -/
  | bad

/-- The token of a scanned string. -/
def Token.ofPieces (pieces : List StringPiece) : Token :=
  match joinPieces? pieces with
  | some cs => .leaf (.string (String.ofList cs))
  | none => .obscure

/-- The whitespace of JSON. -/
def isJsonBlank (c : Char) : Bool := c = ' ' || c = '\t' || c = '\n' || c = '\r'

/-- The token at the head of `c :: cs` and how many characters of `cs` belong to
it; blanks belong to no token. -/
def Token.next (c : Char) (cs : List Char) : Option Token × Nat :=
  if isJsonBlank c then (none, 0)
  else
    match c with
    | '[' => (some .openArray, 0)
    | ']' => (some .closeArray, 0)
    | '{' => (some .openObject, 0)
    | '}' => (some .closeObject, 0)
    | ',' => (some .comma, 0)
    | ':' => (some .colon, 0)
    | '"' =>
        match scanString? cs with
        | some (pieces, size) => (some (.ofPieces pieces), size)
        | none => (some .bad, 0)
    | 't' =>
        if "rue".toList.isPrefixOf cs then (some (.leaf (.bool true)), 3)
        else (some .bad, 0)
    | 'f' =>
        if "alse".toList.isPrefixOf cs then (some (.leaf (.bool false)), 4)
        else (some .bad, 0)
    | 'n' =>
        if "ull".toList.isPrefixOf cs then (some (.leaf .null), 3)
        else (some .bad, 0)
    | _ =>
        if c = '-' || isDigit c then
          match scanNumber? (c :: cs) with
          | some n => (some (.leaf (.ofNumeral n)), n.size - 1)
          | none => (some .bad, 0)
        else (some .bad, 0)

/-- The tokens of a text, up to and including the first bad one. -/
def Token.lex : List Char → List Token
  | [] => []
  | c :: cs =>
      match Token.next c cs with
      | (none, _) => Token.lex cs
      | (some .bad, _) => [.bad]
      | (some token, size) => token :: Token.lex (cs.drop size)
  termination_by cs => cs.length
  decreasing_by
    all_goals (simp only [List.length_drop, List.length_cons]; omega)

/-! ## Documents -/

/-- An open container with what it holds so far, last first; an object also
remembers the key whose value is being read. Behind a key that denotes no text
an object takes up nothing more. -/
inductive OpenContainer where
  | array (items : List Document)
  | object (members : List (String × Document)) (key : String)
  | obscured (members : List (String × Document))

/-- The container with a complete value added. -/
def OpenContainer.push (d : Document) : OpenContainer → OpenContainer
  | .array items => .array (d :: items)
  | .object members key => .object ((key, d) :: members) key
  | .obscured members => .obscured members

/-- The container with the key of its next member. -/
def OpenContainer.withKey (key : String) : OpenContainer → OpenContainer
  | .object members _ => .object members key
  | container => container

/-- The container whose next member has a key that denotes no text. -/
def OpenContainer.withoutKey : OpenContainer → OpenContainer
  | .object members _ => .obscured members
  | container => container

/-- The document of a container that ends here. -/
def OpenContainer.finish (closed : Bool) : OpenContainer → Document
  | .array items => .array items.reverse closed
  | .object members _ => .object members.reverse closed
  | .obscured members =>
      if closed then .obscured members.reverse
      else .object members.reverse false

/-- The whole document when reading stops at the value `d`. -/
def OpenContainer.abandon (d : Document) : List OpenContainer → Document
  | [] => d
  | container :: outer => abandon ((container.push d).finish false) outer

/-- What may come next. -/
inductive Expectation where
  | value
  | firstItem
  | firstKey
  | key
  | colon
  | next

/-- What comes after a comma in a container. -/
def OpenContainer.afterComma : OpenContainer → Expectation
  | .array _ => .value
  | _ => .key

/-- The document when the next token is not one that may come. -/
def OpenContainer.fail (e : Expectation) (open_ : List OpenContainer) :
    Document :=
  match e, open_ with
  | .value, _ => abandon .broken open_
  | .colon, _ => abandon .broken open_
  | _, container :: outer => abandon (container.finish false) outer
  | _, [] => .broken

/-- Reads one document; `open_` holds the open containers, innermost first. -/
def Document.parse :
    List Token → Expectation → List OpenContainer → Document × List Token
  | [], e, open_ => (OpenContainer.fail e open_, [])
  | token :: rest, e, open_ =>
      let complete (d : Document) (outer : List OpenContainer) :
        Document × List Token :=
        match outer with
        | [] => (d, rest)
        | container :: outer =>
            Document.parse rest .next (container.push d :: outer)
      match e, token, open_ with
      | .value, .leaf d, _ => complete d open_
      | .firstItem, .leaf d, _ => complete d open_
      | .value, .openArray, _ =>
          Document.parse rest .firstItem (.array [] :: open_)
      | .firstItem, .openArray, _ =>
          Document.parse rest .firstItem (.array [] :: open_)
      | .value, .openObject, _ =>
          Document.parse rest .firstKey (.object [] "" :: open_)
      | .firstItem, .openObject, _ =>
          Document.parse rest .firstKey (.object [] "" :: open_)
      | .firstItem, .closeArray, container :: outer =>
          complete (container.finish true) outer
      | .firstKey, .closeObject, container :: outer =>
          complete (container.finish true) outer
      | .value, .obscure, _ => complete .unreadable open_
      | .firstItem, .obscure, _ => complete .unreadable open_
      | .firstKey, .leaf (.string key), container :: outer =>
          Document.parse rest .colon (container.withKey key :: outer)
      | .key, .leaf (.string key), container :: outer =>
          Document.parse rest .colon (container.withKey key :: outer)
      | .firstKey, .obscure, container :: outer =>
          Document.parse rest .colon (container.withoutKey :: outer)
      | .key, .obscure, container :: outer =>
          Document.parse rest .colon (container.withoutKey :: outer)
      | .colon, .colon, _ => Document.parse rest .value open_
      | .next, .comma, container :: outer =>
          Document.parse rest container.afterComma (container :: outer)
      | .next, .closeArray, .array items :: outer =>
          complete (OpenContainer.finish true (.array items)) outer
      | .next, .closeObject, .object members key :: outer =>
          complete (OpenContainer.finish true (.object members key)) outer
      | .next, .closeObject, .obscured members :: outer =>
          complete (OpenContainer.finish true (.obscured members)) outer
      | _, _, _ => (OpenContainer.fail e open_, rest)

/-- The first document of a token sequence and the tokens after it. -/
def Document.ofTokens (tokens : List Token) : Document × List Token :=
  Document.parse tokens .value []

/-- The first document of a text; what follows it is not looked at. -/
def Document.read (text : String) : Document :=
  (Document.ofTokens (Token.lex text.toList)).1

/-- The document of a text that holds nothing else. -/
def Document.readWhole? (text : String) : Option Document :=
  match Document.ofTokens (Token.lex text.toList) with
  | (d, []) => some d
  | _ => none

end Ridehail
