import Ridehail.Http.Percent
import Ridehail.Json.Decoder
import Ridehail.Text.Basic

/-!
# Calls to other services

A call is made over a link, which may fail. What comes back is a status and a
text; a status below 300 and from 200 on means success, and some failures are
expected to pass.

## Main definitions

* `Call`, `Reply`, `Exchange` — what is sent, what comes back, and what came of
  it.
* `HttpStatus.isSuccess`, `isTransient`, `phrase` — what a status says.
* `ServiceUrl.ofText`, `ServiceUrl.locate` — where calls go.
-/

namespace Ridehail

/-- A call: the method, where it goes, and the body if there is one. -/
structure Call where
  method : String
  url : String
  body : Option Json := none
  deriving Inhabited

/-- What comes back from a call. -/
structure Reply where
  status : Nat
  body : String
  deriving DecidableEq, Repr, Inhabited

/-- What came of one attempt at a call: a reply, or why there is none. -/
abbrev Exchange := Except String Reply

namespace HttpStatus

/-- Success. -/
def isSuccess (status : Nat) : Bool := 200 ≤ status && status < 300

/-- Failures that are expected to pass: those of the server, and too many
calls. -/
def isTransient (status : Nat) : Bool :=
  (500 ≤ status && status < 600) || status = 429

/-- The standard phrases of statuses that mean no success. -/
def phrases : List (Nat × String) :=
  [ (300, "Multiple Choices"), (301, "Moved Permanently"), (302, "Found"),
    (303, "See Other"), (304, "Not Modified"), (305, "Use Proxy"),
    (307, "Temporary Redirect"), (308, "Permanent Redirect"),
    (400, "Bad Request"), (401, "Unauthorized"), (402, "Payment Required"),
    (403, "Forbidden"), (404, "Not Found"), (405, "Method Not Allowed"),
    (406, "Not Acceptable"), (407, "Proxy Authentication Required"),
    (408, "Request Timeout"), (409, "Conflict"), (410, "Gone"),
    (411, "Length Required"), (412, "Precondition Failed"),
    (413, "Payload Too Large"), (414, "URI Too Long"),
    (415, "Unsupported Media Type"), (416, "Range Not Satisfiable"),
    (417, "Expectation Failed"), (418, "I'm a teapot"),
    (421, "Misdirected Request"), (422, "Unprocessable Entity"),
    (423, "Locked"), (424, "Failed Dependency"), (426, "Upgrade Required"),
    (428, "Precondition Required"), (429, "Too Many Requests"),
    (431, "Request Header Fields Too Large"),
    (451, "Unavailable For Legal Reasons"), (500, "Internal Server Error"),
    (501, "Not Implemented"), (502, "Bad Gateway"),
    (503, "Service Unavailable"), (504, "Gateway Timeout"),
    (505, "HTTP Version Not Supported"), (506, "Variant Also Negotiates"),
    (507, "Insufficient Storage"), (508, "Loop Detected"),
    (510, "Not Extended"), (511, "Network Authentication Required") ]

/-- The phrase of a status. -/
def phrase (status : Nat) : String := (phrases.lookup status).getD "error"

end HttpStatus

/-- The address of a service, without slashes at its end. -/
structure ServiceUrl where
  base : String
  deriving DecidableEq, Repr, Inhabited

namespace ServiceUrl

/-- The address in a text. -/
def ofText (text : String) : ServiceUrl :=
  ⟨String.ofList (text.toList.reverse.dropWhile (· = '/')).reverse⟩

/-- The query of an address: what was given of it, if anything was, and then the
parameters. -/
def query (given : Option String) (parameters : List (String × String)) :
    String :=
  let written := parameters.map fun p =>
    Percent.encodeForm p.1 ++ "=" ++ Percent.encodeForm p.2
  match given with
  | none => if written.isEmpty then "" else "?" ++ "&".intercalate written
  | some text =>
      "?" ++ "&".intercalate (if text.isEmpty then written else text :: written)

/-- Where a path of the service is, asked with some parameters. A `?` in the
path begins a query and a `#` ends it; what cannot stand in an address is
percent-encoded. -/
def locate (s : ServiceUrl) (path : String)
    (parameters : List (String × String) := []) : String :=
  let (place, given) := splitFirst '?' (splitFirst '#' path.toList).1
  let given :=
    given.map fun q => Percent.encodeText Percent.keptInQuery (String.ofList q)
  s.base ++ Percent.encodeText Percent.keptInPath (String.ofList place) ++
    query given parameters

/-- A call of a path of the service that sends something. -/
def send (s : ServiceUrl) (method path : String) (body : Json) : Call :=
  { method, url := s.locate path, body := some body }

/-- A call of a path of the service that sends nothing. -/
def call (s : ServiceUrl) (method path : String)
    (parameters : List (String × String) := []) : Call :=
  { method, url := s.locate path parameters }

end ServiceUrl

/-- A value in a text that holds nothing else. -/
def readValue {α : Type} (decode : Decoder α) (text : String) : Option α := do
  (decode (← Document.readWhole? text)).toOption

end Ridehail
