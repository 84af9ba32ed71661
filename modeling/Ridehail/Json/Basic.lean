/-!
# JSON values and documents

`Json` is a complete value: the payload of an event, the body of an answer. A
`Document` is what a text turned out to hold, which may be less: a syntax error
leaves the containers it happened in unclosed and the value it replaced
`broken`, and a token may be well formed and still stand for no value
(`unreadable`: a number beyond the doubles, a string with half a surrogate
pair).

Keeping the readable part in front of an error matters because a record is
decoded in document order, so a field of the wrong type is reported before a
syntax error that follows it.

## Main definitions

* `Json`, `Document` — the two types.
* `Document.ofJson`, `Document.toJson?` — a value is a document, and a document
  without defects is a value.
-/

namespace Ridehail

/-- A JSON value. Integers and doubles are told apart, members keep their
order. -/
inductive Json where
  | null
  | bool (b : Bool)
  | int (n : Int)
  | float (x : Float)
  | string (s : String)
  | array (items : List Json)
  | object (members : List (String × Json))
  deriving Inhabited

/-- What a text holds as far as it can be read. -/
inductive Document where
  | null
  | bool (b : Bool)
  | int (n : Int)
  | float (x : Float)
  | string (s : String)
  /-- A well-formed token that denotes no value. -/
  | unreadable
  /-- The items before the closing bracket or before a syntax error. -/
  | array (items : List Document) (closed : Bool)
  /-- The members before the closing brace or before a syntax error. -/
  | object (members : List (String × Document)) (closed : Bool)
  /-- A well-formed object, read up to a key that denotes no text. -/
  | obscured (members : List (String × Document))
  /-- A syntax error in place of a value. -/
  | broken
  deriving Inhabited

/-- Whether a value can be passed over: no syntax error happened inside it. -/
def Document.intact : Document → Bool
  | .array _ closed => closed
  | .object _ closed => closed
  | .broken => false
  | _ => true

mutual

/-- A value as a document. -/
def Document.ofJson : Json → Document
  | .null => .null
  | .bool b => .bool b
  | .int n => .int n
  | .float x => .float x
  | .string s => .string s
  | .array items => .array (Document.ofItems items) true
  | .object members => .object (Document.ofMembers members) true

/-- The items of an array as documents. -/
def Document.ofItems : List Json → List Document
  | [] => []
  | item :: rest => Document.ofJson item :: Document.ofItems rest

/-- The members of an object as documents. -/
def Document.ofMembers : List (String × Json) → List (String × Document)
  | [] => []
  | (key, value) :: rest =>
      (key, Document.ofJson value) :: Document.ofMembers rest

end

mutual

/-- The value of a document without defects. -/
def Document.toJson? : Document → Option Json
  | .null => some .null
  | .bool b => some (.bool b)
  | .int n => some (.int n)
  | .float x => some (.float x)
  | .string s => some (.string s)
  | .array items closed =>
      if closed then (Document.toItems? items).map .array else none
  | .object members closed =>
      if closed then (Document.toMembers? members).map .object else none
  | .unreadable => none
  | .obscured _ => none
  | .broken => none

/-- The values of documents without defects. -/
def Document.toItems? : List Document → Option (List Json)
  | [] => some []
  | item :: rest => do return (← item.toJson?) :: (← Document.toItems? rest)

/-- The members of documents without defects. -/
def Document.toMembers? :
    List (String × Document) → Option (List (String × Json))
  | [] => some []
  | (key, value) :: rest => do
    return (key, ← value.toJson?) :: (← Document.toMembers? rest)

end

mutual

/-- Turning a value into a document loses nothing. -/
@[simp] theorem Document.toJson?_ofJson (v : Json) :
    (Document.ofJson v).toJson? = some v := by
  cases v with
  | array items =>
      simp [Document.ofJson, Document.toJson?, Document.toItems?_ofItems items]
  | object members =>
      simp [Document.ofJson, Document.toJson?,
        Document.toMembers?_ofMembers members]
  | _ => rfl

/-- Turning items into documents loses nothing. -/
theorem Document.toItems?_ofItems (items : List Json) :
    Document.toItems? (Document.ofItems items) = some items := by
  cases items with
  | nil => rfl
  | cons item rest =>
      simp [Document.ofItems, Document.toItems?, Document.toJson?_ofJson item,
        Document.toItems?_ofItems rest]

/-- Turning members into documents loses nothing. -/
theorem Document.toMembers?_ofMembers (members : List (String × Json)) :
    Document.toMembers? (Document.ofMembers members) = some members := by
  cases members with
  | nil => rfl
  | cons member rest =>
      obtain ⟨key, value⟩ := member
      simp [Document.ofMembers, Document.toMembers?,
        Document.toJson?_ofJson value, Document.toMembers?_ofMembers rest]

end

namespace Json

/-- The value of an optional thing: `null` if it is missing. -/
def ofOption {α : Type} (encode : α → Json) : Option α → Json
  | none => .null
  | some a => encode a

/-- The first member of an object with a given key. -/
def member? (key : String) : Json → Option Json
  | .object members => members.lookup key
  | _ => none

end Json

end Ridehail
