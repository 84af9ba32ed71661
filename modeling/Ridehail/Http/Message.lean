import Ridehail.Failure
import Ridehail.Http.Percent
import Ridehail.Text.Basic

/-!
# Requests and responses

What the service is asked over HTTP and what it answers: a status and a JSON
body, or no body. A failure is answered with its status and its wording.

## Main definitions

* `Request`, `Request.path`, `Request.query` — a request and the parts of its
  target.
* `Response`, `HttpFailure` — answers; `HttpFailure.ofKind` says how each kind
  of failure is answered.
-/

namespace Ridehail

/-! ## Requests -/

/-- A request. -/
structure Request where
  method : String
  target : String
  contentType : Option String := none
  body : String := ""
  deriving DecidableEq, Repr, Inhabited

namespace Request

/-- Whether a character may stand in the scheme of a target. -/
def isSchemeChar (c : Char) : Bool := c.isAlphanum || ['+', '-', '.'].contains c

/-- Whether a character ends the authority of a target. -/
def endsAuthority (c : Char) : Bool := ['/', '?', '#'].contains c

/-- A target without the scheme and the authority that may stand before its
path. -/
def withoutAuthority (target : List Char) : List Char :=
  match target.dropWhile isSchemeChar with
  | ':' :: '/' :: '/' :: rest => rest.dropWhile fun c => !endsAuthority c
  | _ => target

/-- The target without scheme, authority and fragment. -/
def place (r : Request) : List Char :=
  (splitFirst '#' (withoutAuthority r.target.toList)).1

/-- The path of the target. -/
def path (r : Request) : List Char := (splitFirst '?' r.place).1

/-- The query of the target, empty if there is none. -/
def query (r : Request) : List Char := ((splitFirst '?' r.place).2).getD []

/-- The segments of the path, as they are written. -/
def segments (r : Request) : List String :=
  (splitAll '/' r.path).map String.ofList

end Request

/-! ## Responses -/

/-- A response. -/
structure Response where
  status : Nat
  body : Option Json := none
  deriving Inhabited

namespace Response

/-- A response with a body. -/
def json (status : Nat) (body : Json) : Response :=
  { status, body := some body }

/-- A response without a body. -/
def empty (status : Nat) : Response := { status }

end Response

/-- A failure as it is answered. -/
inductive HttpFailure where
  | internal (message : String)
  | notFound (message : String)
  | badRequest (message : String)
  | conflict (message : String)
  | unavailable (message : String)
  deriving DecidableEq, Repr

namespace HttpFailure

/-- The status of the answer. -/
def status : HttpFailure → Nat
  | .internal _ => 500
  | .notFound _ => 404
  | .badRequest _ => 400
  | .conflict _ => 409
  | .unavailable _ => 503

/-- The wording in the answer. -/
def message : HttpFailure → String
  | .internal m => m
  | .notFound m => m
  | .badRequest m => m
  | .conflict m => m
  | .unavailable m => m

/-- The wording with the kind of the failure in front. -/
def describe : HttpFailure → String
  | .internal m => "Internal server error: " ++ m
  | .notFound m => "Not found: " ++ m
  | .badRequest m => "Bad request: " ++ m
  | .conflict m => "Conflict: " ++ m
  | .unavailable m => "Service unavailable: " ++ m

/-- How a failure of a kind is answered. -/
def ofKind (kind : FailureKind) (detail : String) : HttpFailure :=
  match kind with
  | .notFound => .notFound detail
  | .validation => .badRequest detail
  | .invalidState => .conflict detail
  | .conflict => .conflict detail
  | .externalService => .unavailable detail
  | .storage => .internal detail

/-- How a failure of the service is answered. -/
def ofError (e : DispatchError) : HttpFailure := ofKind e.kind e.detail

/-- The answer. -/
def response (f : HttpFailure) : Response :=
  .json f.status (.object [("error", .string f.message)])

end HttpFailure

end Ridehail
