import Ridehail.Json.Basic
import Ridehail.Double.Basic

/-!
# Decoding documents

A decoder looks at a document in reading order and gives a value or the first
refusal it meets: `syntax` where the text stops being JSON, `shape` where it is
JSON of another kind than the record calls for.

A record is written as an object, in any order and with unknown members passed
over, or as an array of all its fields in order. `RecordDecoder` lists the
fields of a record and builds its value, so a record is described once and both
forms are read from that description.

## Main definitions

* `Refusal`, `Decoder` — the outcome and the type of decoders.
* `Decoder.text`, `Decoder.float`, `Decoder.int64`, `Decoder.bool`,
  `Decoder.choice`, `Decoder.list`, `Decoder.optional` — values.
* `RecordDecoder` with `required`, `optional`, `defaulted` and the operations of
  an applicative functor — records.
-/

namespace Ridehail

/-- Why a document is not the value it should be. -/
inductive Refusal where
  /-- The text is not JSON from here on. -/
  | malformed
  /-- The text is JSON of another shape. -/
  | shape
  deriving DecidableEq, Repr

/-- A way to read a value from a document. -/
abbrev Decoder (α : Type) := Document → Except Refusal α

namespace Decoder

variable {α β : Type}

/-- The refusal of a document that is not of the kind asked for. A container is
refused at its opening bracket, a single token after it has been read. -/
def mismatch : Document → Refusal
  | .broken => .malformed
  | .unreadable => .malformed
  | _ => .shape

/-- A string. -/
def text : Decoder String
  | .string s => .ok s
  | d => .error (mismatch d)

/-- A truth value. -/
def bool : Decoder Bool
  | .bool b => .ok b
  | d => .error (mismatch d)

/-- A number, as a double. -/
def float : Decoder Float
  | .int n => .ok (Double.ofInt n)
  | .float x => .ok x
  | d => .error (mismatch d)

/-- An integer of 64 bits. -/
def int64 : Decoder Int
  | .int n =>
    if Double.int64Min ≤ n && n ≤ Double.int64Max then .ok n else .error .shape
  | d => .error (mismatch d)

/-- A value that may be `null`. -/
def nullable (decode : Decoder α) : Decoder (Option α)
  | .null => .ok none
  | d => (decode d).map some

/-- A string that a partial reading turns into a value. -/
def parsed (read? : String → Option α) : Decoder α := fun d => do
  match read? (← text d) with
  | some a => return a
  | none => .error .shape

/-- The named value that is the only key of an object with the value `null`. -/
def onlyKey (ofName? : String → Option α) (closed : Bool) :
    List (String × Document) → Except Refusal α
  | [] => .error .malformed
  | (name, value) :: more =>
      match ofName? name with
      | none => .error .shape
      | some a =>
          match value with
          | .null => if more.isEmpty && closed then .ok a else .error .malformed
          | d => .error (mismatch d)

/-- One of several named values: its name, or an object with that name as its
only key and `null` as the value. -/
def choice (ofName? : String → Option α) : Decoder α
  | .string name =>
      match ofName? name with
      | some a => .ok a
      | none => .error .shape
  | .object members closed => onlyKey ofName? closed members
  | .obscured members => onlyKey ofName? false members
  | _ => .error .malformed

/-- Every item of a list. -/
def items (decode : Decoder α) : List Document → Except Refusal (List α)
  | [] => .ok []
  | d :: rest => do
      let a ← decode d
      return a :: (← items decode rest)

/-- An array of values. -/
def list (decode : Decoder α) : Decoder (List α)
  | .array documents closed => do
      let values ← items decode documents
      if closed then return values else .error .malformed
  | d => .error (mismatch d)

/-- Any complete value. -/
def json : Decoder Json := fun d =>
  match d.toJson? with
  | some v => .ok v
  | none => .error .malformed

end Decoder

/-! ## Records -/

/-- What has to be known of a field to walk over a record: its name, a check of
its value, and whether it may be missing from the array form too. -/
structure RecordField where
  name : String
  check : Document → Except Refusal Unit
  mayMiss : Bool

/-- A record: its fields in order, and how to build the value from the documents
of the fields that are present. -/
structure RecordDecoder (α : Type) where
  fields : List RecordField
  build : List (String × Document) → Except Refusal α

namespace RecordDecoder

variable {α β : Type}

/-- The record without fields. -/
protected def pure (a : α) : RecordDecoder α := ⟨[], fun _ => .ok a⟩

/-- The fields of one record followed by those of another. -/
protected def seq (f : RecordDecoder (α → β)) (x : Unit → RecordDecoder α) :
    RecordDecoder β where
  fields := f.fields ++ (x ()).fields
  build members := do
    let g ← f.build members
    let a ← (x ()).build members
    return g a

instance : Applicative RecordDecoder where
  pure := RecordDecoder.pure
  seq := RecordDecoder.seq

/-- A field that has to be present. -/
def required (name : String) (decode : Decoder α) : RecordDecoder α where
  fields := [⟨name, fun d => (decode d).map fun _ => (), false⟩]
  build members :=
    match members.lookup name with
    | some d => decode d
    | none => .error .shape

/-- A field that may be missing or `null`. -/
def optional (name : String) (decode : Decoder α) :
    RecordDecoder (Option α) where
  fields :=
    [⟨name, fun d => (Decoder.nullable decode d).map fun _ => (), false⟩]
  build members :=
    match members.lookup name with
    | some d => Decoder.nullable decode d
    | none => .ok none

/-- A field with a value of its own when it is missing. -/
def defaulted (name : String) (value : α) (decode : Decoder α) :
    RecordDecoder α where
  fields := [⟨name, fun d => (decode d).map fun _ => (), true⟩]
  build members :=
    match members.lookup name with
    | some d => decode d
    | none => .ok value

/-- Walks over the members of an object. Each known member is checked as it is
met and must not come twice, each unknown one is passed over. -/
def checkMembers (fields : List RecordField) (seen : List (String × Document)) :
    List (String × Document) → Except Refusal (List (String × Document))
  | [] => .ok seen
  | (key, value) :: rest => do
      match fields.find? fun field => field.name = key with
      | none =>
          if value.intact then checkMembers fields seen rest
          else .error .malformed
      | some field =>
          if (seen.lookup key).isSome then .error .shape
          else
            field.check value
            checkMembers fields (seen ++ [(key, value)]) rest

/-- Walks over the items of an array, which are the fields in order. -/
def checkItems (closed : Bool) :
    List RecordField → List Document → Except Refusal (List (String × Document))
  | [], [] => if closed then .ok [] else .error .malformed
  | [], _ :: _ => .error .malformed
  | field :: fields, [] =>
      if !closed then .error .malformed
      else if field.mayMiss then checkItems closed fields []
      else .error .shape
  | field :: fields, item :: items => do
      field.check item
      return (field.name, item) :: (← checkItems closed fields items)

/-- Reads a record from either of its forms. -/
def decode (r : RecordDecoder α) : Decoder α
  | .object members closed => do
      let found ← checkMembers r.fields [] members
      if closed then r.build found else .error .malformed
  | .obscured members => do
      let _ ← checkMembers r.fields [] members
      .error .malformed
  | .array items closed => do
      let found ← checkItems closed r.fields items
      r.build found
  | d => .error (Decoder.mismatch d)

end RecordDecoder

end Ridehail
