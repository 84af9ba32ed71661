import Ridehail.Flags
import Ridehail.Http.Exchange

/-!
# Flags behind a link

Flags that another service decides. Whatever goes wrong, the default holds: when
the service is not to be asked, does not answer, refuses, or answers with
something else.
-/

namespace Ridehail

/-- Why the service of the flags gave no answer. -/
inductive FlagError where
  | network (message : String)
  | http (status : Nat)
  | parse (message : String)
  deriving DecidableEq, Repr

/-- The wording of a flag error. -/
def FlagError.message : FlagError → String
  | .network m => "Network error: " ++ m
  | .http status => "HTTP error " ++ natText status
  | .parse m => "Parse error: " ++ m

/-- Flags behind a link. -/
structure RemoteFlags where
  url : ServiceUrl
  /-- Whether the service is to be asked at all. -/
  enabled : Bool
  link : Call → Exchange

namespace RemoteFlags

/-- Asks for something about a flag in a context. -/
def ask {α : Type} (f : RemoteFlags) (path context : String)
    (reply : Decoder α) : Except FlagError α := do
  let r ← (f.link (f.url.call "GET" path [("context", context)])).mapError
    .network
  if !HttpStatus.isSuccess r.status then throw (.http r.status)
  match readValue reply r.body with
  | some a => return a
  | none => throw (.parse "unexpected reply")

/-- Whether a flag is on in a context. -/
def isEnabled (f : RemoteFlags) (name context : String) : Bool :=
  if !f.enabled then defaultFlag name
  else
    match f.ask ("/flags/" ++ name) context
      (RecordDecoder.optional "enabled" Decoder.bool).decode with
    | .ok (some on) => on
    | _ => defaultFlag name

/-- The rollout percentage of a flag in a context. -/
def percentage (f : RemoteFlags) (name context : String) : Float :=
  if !f.enabled then defaultPercentage
  else
    match f.ask ("/flags/" ++ name ++ "/percentage") context
        (RecordDecoder.optional "percentage" Decoder.float).decode with
    | .ok (some x) =>
        if x.isFinite then Flags.boundPercentage x else defaultPercentage
    | _ => defaultPercentage

end RemoteFlags

end Ridehail
