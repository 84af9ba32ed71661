import Ridehail.Http.Message

/-!
# Queries

A query is a list of names and values. A field that is asked for must not be
given twice; fields that nobody asks for do not matter.
-/

namespace Ridehail

/-- The names and values of a query. -/
abbrev Query := List (String × String)

namespace Query

/-- A name and a value, divided by the first `=`. -/
def pair (piece : List Char) : String × String :=
  let (name, value) := splitFirst '=' piece
  (Percent.formText (String.ofList name),
    Percent.formText (String.ofList (value.getD [])))

/-- The names and values of the pieces between `&`, empty pieces left out. -/
def read (text : List Char) : Query :=
  ((splitAll '&' text).filter fun piece => !piece.isEmpty).map pair

/-- The value of a field that may be missing. -/
def text? (q : Query) (name : String) : Option (Option String) :=
  match q.filter fun field => field.1 = name with
  | [] => some none
  | [field] => some (some field.2)
  | _ => none

/-- The value of a field that may be missing, read as something. -/
def optional? {α : Type} (q : Query) (name : String)
    (read? : String → Option α) : Option (Option α) := do
  match ← q.text? name with
  | none => some none
  | some text => return some (← read? text)

/-- The value of a field that has to be given, read as something. -/
def required? {α : Type} (q : Query) (name : String)
    (read? : String → Option α) : Option α := do
  ← q.optional? name read?

end Query

/-- The query of a request. -/
def Request.fields (r : Request) : Query := Query.read r.query

end Ridehail
