import Ridehail.Http.Exchange
import Ridehail.Index.Basic

/-!
# An index behind a link

An index that is another service. Questions are asked again while the failures
are of the kind that passes and there is time; changes are sent once.

## Main definitions

* `RemoteIndex` — where the index is, and what comes of calls to it.
* `RemoteIndex.settle` — the outcome of a question that was asked several times.
-/

namespace Ridehail

/-- An index behind a link. The link says what each attempt at a call comes to,
as many attempts as there is time for. -/
structure RemoteIndex where
  url : ServiceUrl
  link : Call → List Exchange

namespace RemoteIndex

/-! ## Questions -/

/-- What an attempt at a question comes to: an answer or a failure for good, or
a failure that may pass. -/
inductive Verdict (α : Type) where
  | final (result : Except IndexError α)
  | again (e : IndexError)

/-- The outcome of a question after some attempts; `last` is the failure before
them. -/
def settle {α : Type} (judge : Exchange → Verdict α) (last : IndexError) :
    List Exchange → Except IndexError α
  | [] => .error last
  | attempt :: rest =>
      match judge attempt with
      | .final result => result
      | .again e => settle judge e rest

/-- Reads the value in the text of a reply. -/
def readReply {α : Type} (decode : Decoder α) (text : String) :
    Except IndexError α :=
  match readValue decode text with
  | some a => .ok a
  | none => .error (.parse "unexpected reply")

/-- Judges an attempt whose success carries a value. -/
def judge {α : Type} (decode : Decoder α) : Exchange → Verdict α
  | .error why => .again (.network why)
  | .ok reply =>
      if HttpStatus.isTransient reply.status then
        .again (.http reply.status "Server error")
      else if !HttpStatus.isSuccess reply.status then
        .final (.error (.http reply.status "Client error"))
      else .final (readReply decode reply.body)

/-- The failure when there was no time for any attempt. -/
def noAttempt : IndexError := .network "no attempt was made"

/-- The question for the nearest drivers. -/
def nearestCall (url : ServiceUrl) (p : GeoPoint) (count : Nat)
    (radiusKm : Float) : Call :=
  url.send "POST" "/drivers/nearest" <| .object
    [ ("lat", .ofFloat p.lat), ("lng", .ofFloat p.lng),
      ("maxCount", .int count), ("maxRadiusKm", .ofFloat radiusKm) ]

/-- The drivers in the answer. -/
def nearestReply : Decoder (List Candidate) :=
  (RecordDecoder.required "drivers"
    (Decoder.list Candidate.record.decode)).decode

/-- The path of a driver. -/
def driverPath (driver : DriverId) : String := "/drivers/" ++ driver

/-- Judges an attempt at the question for a driver, who may be unknown. -/
def judgeFind : Exchange → Verdict (Option IndexedDriver)
  | .ok reply =>
      if reply.status = 404 then .final (.ok none)
      else
        match judge IndexedDriver.record.decode (.ok reply) with
        | .final result => .final (result.map some)
        | .again e => .again e
  | .error why => .again (.network why)

/-! ## Changes -/

/-- The change of a driver's location and status. -/
def putCall (url : ServiceUrl) (driver : DriverId) (p : GeoPoint)
    (status : DriverStatus) : Call :=
  url.send "PUT" (driverPath driver ++ "/location") <| .object
    [("lat", .ofFloat p.lat), ("lng", .ofFloat p.lng),
      ("status", status.toJson)]

/-- What a reply to a change means. -/
def acknowledged : Option Exchange → Except IndexError Bool
  | none => .error noAttempt
  | some (.error why) => .error (.network why)
  | some (.ok reply) =>
      if reply.status = 404 then .ok false
      else if !HttpStatus.isSuccess reply.status then
        .error (.http reply.status (HttpStatus.phrase reply.status))
      else readReply (RecordDecoder.required "success" Decoder.bool).decode
        reply.body

instance : DriverIndex RemoteIndex where
  nearest p count radiusKm i :=
    (settle (judge nearestReply) noAttempt
      (i.link (nearestCall i.url p count radiusKm)), i)
  put _ driver p status i :=
    (acknowledged (i.link (putCall i.url driver p status)).head?, i)
  remove driver i :=
    (acknowledged (i.link (i.url.call "DELETE" (driverPath driver))).head?, i)
  find driver i :=
    (settle judgeFind noAttempt (i.link (i.url.call "GET" (driverPath driver))),
      i)

end RemoteIndex

end Ridehail
