/-!
# Media types

A body is taken as JSON if its media type says so: `application/json` or a type
with the suffix `+json`, in any case, with or without parameters. A media type
that is not well formed, or not in ASCII, says nothing.
-/

namespace Ridehail.MediaType

/-- Whether a character may stand in a name. -/
def isTokenChar (c : Char) : Bool :=
  c.isAlphanum || "!#$%&'*+-.^_\x60|~".toList.contains c

/-- Whether a character may stand between quotes. -/
def isQuotedChar (c : Char) : Bool := 31 < c.toNat && c.toNat ≠ 127

/-- Whether some characters are nothing or blanks and then another parameter,
which `more` checks. -/
def parametersAfter (more : List Char → Bool) (cs : List Char) : Bool :=
  match cs.dropWhile (· = ' ') with
  | [] => true
  | ';' :: rest => more rest
  | _ => false

/-- What follows a quoted value, given what follows its opening quote. The value
has at least one character; the first may be a quote itself, and the next quote
closes. -/
def afterQuoted? : List Char → Option (List Char)
  | [] => none
  | first :: cs =>
      if !isQuotedChar first then none
      else
        match cs.dropWhile fun c => isQuotedChar c && c ≠ '"' with
        | '"' :: rest => some rest
        | _ => none

/-- Whether some characters are parameters, `name=value` or `name="value"`,
divided by semicolons; blanks may stand before each. `fuel` is at least their
number. -/
def wellFormedParameters : Nat → List Char → Bool
  | 0, _ => true
  | fuel + 1, cs =>
      let cs := cs.dropWhile (· = ' ')
      let name := cs.takeWhile isTokenChar
      match cs, cs.drop name.length with
      | [], _ => true
      | _, '=' :: '"' :: value =>
          match afterQuoted? value with
          | some rest => !name.isEmpty &&
            parametersAfter (wellFormedParameters fuel) rest
          | none => false
      | _, '=' :: value =>
          let text := value.takeWhile isTokenChar
          match value.drop text.length with
          | [] => !name.isEmpty
          | ';' :: rest => !name.isEmpty && !text.isEmpty &&
            wellFormedParameters fuel rest
          | _ => false
      | _, _ => false

/-- The part before the last `+`, and what follows it. -/
def splitSuffix (cs : List Char) : List Char × Option (List Char) :=
  let suffix := (cs.reverse.takeWhile (· ≠ '+')).reverse
  if suffix.length + 1 < cs.length then
    (cs.take (cs.length - suffix.length - 1), some suffix)
  else (cs, none)

/-- Whether a media type is one of JSON. -/
def isJson (text : String) : Bool :=
  let cs := text.toList
  let type := cs.takeWhile isTokenChar
  match cs.drop type.length with
  | '/' :: rest =>
      let subtype := rest.takeWhile isTokenChar
      let tail := rest.drop subtype.length
      let wellFormed := match tail with
        | [] => true
        | ';' :: parameters =>
            wellFormedParameters (parameters.length + 1) parameters
        | _ => false
      let (base, suffix) := splitSuffix (subtype.map Char.toLower)
      cs.all (·.toNat < 128) && wellFormed &&
        type.map Char.toLower = "application".toList
        && (base = "json".toList || suffix = some "json".toList)
  | _ => false

end Ridehail.MediaType
