import Ridehail.Event.Notifier
import Ridehail.Proofs.Decimal.ToDouble
import Ridehail.Proofs.Json.Records
import Ridehail.Proofs.Ride.Id
import Ridehail.Proofs.Store.Readback

/-!
# Steps of rides read from their messages

The notifier reads the steps of rides from the messages they were sent as.  A
step is sendable if its coordinates are numbers and its whole numbers have 64
bits; then everything but the fare is read as it was written.  The fare goes
through a double, so it may come back as another decimal, and if it is too close
to the bound of mantissas the step is not read.

## Main results

* `Notifier.exists_rideEvent?_published` — a sendable step is read, up to its
  fare.
* `Notifier.rideEvent?_published_of_le` — a step with too large a fare is not.
-/

namespace Ridehail

/-- A number of minutes between two instants of 64 bits has 64 bits. -/
theorem Instant.isInt64_wholeMinutesUntil {t later : Instant}
    (ht : IsInt64 t.ms) (hlater : IsInt64 later.ms) :
    IsInt64 (t.wholeMinutesUntil later) := by
  have habs : (t.wholeMinutesUntil later).natAbs =
      (later.ms - t.ms).natAbs / 60000 :=
    Int.natAbs_tdiv _ _
  unfold IsInt64 Double.int64Min Double.int64Max at *
  omega

/-! ## Points -/

/-- Both coordinates are numbers. -/
def GeoPoint.IsFinite (p : GeoPoint) : Prop :=
  p.lat.isFinite = true ∧ p.lng.isFinite = true

theorem GeoPoint.isFinite_of_inRange {p : GeoPoint} (h : p.inRange = true) :
    p.IsFinite := by
  simp only [GeoPoint.inRange, GeoPoint.within, Bool.and_eq_true] at h
  exact ⟨h.1.1.1, h.2.1.1⟩

theorem isFinite_of_beq {x y : Float} (h : (x == y) = true)
    (hy : y.isFinite = true) :
    x.isFinite = true := by
  have hequal : x.toModel.unpack.beq y.toModel.unpack = true := h
  have hfinite : y.toModel.unpack.isFinite = true := hy
  show x.toModel.unpack.isFinite = true
  revert hequal hfinite
  cases x.toModel.unpack with
  | zero s => exact fun _ _ => rfl
  | finite s m e hm => exact fun _ _ => rfl
  | notANumber => exact fun hequal _ => by cases hequal
  | infinity s =>
      cases y.toModel.unpack with
      | infinity t => exact fun _ hfinite => by cases hfinite
      | notANumber => exact fun _ hfinite => by cases hfinite
      | _ => cases s <;> exact fun hequal _ => by cases hequal

/-- What is numerically the same as a point is finite as that is. -/
theorem GeoPoint.Same.isFinite {p q : GeoPoint} (h : p.Same q)
    (hq : q.IsFinite) : p.IsFinite :=
  ⟨isFinite_of_beq h.1 hq.1, isFinite_of_beq h.2 hq.2⟩

theorem GeoPoint.decode_toJson {p : GeoPoint} (h : p.IsFinite) :
    GeoPoint.record.decode (Document.ofJson p.toJson) = .ok p := by
  have hjson : Document.ofJson p.toJson =
      .object [("lat", .float p.lat), ("lng", .float p.lng)] true := by
    rw [toJson, Json.ofFloat, Json.ofFloat, if_pos h.1, if_pos h.2]
    rfl
  rw [hjson]
  generalize hmembers : [("lat", Document.float p.lat), ("lng", .float p.lng)] =
    members
  have hnames : members.map Prod.fst = ["lat", "lng"] := hmembers ▸ rfl
  have hlat : (RecordDecoder.required "lat" Decoder.float).Reads
      members p.lat :=
    RecordDecoder.reads_required (d := .float p.lat) (hmembers ▸ rfl) rfl
  have hlng : (RecordDecoder.required "lng" Decoder.float).Reads
      members p.lng :=
    RecordDecoder.reads_required (d := .float p.lng) (hmembers ▸ rfl) rfl
  exact RecordDecoder.decode_of_reads ((hlat.map GeoPoint.mk).seq hlng) hnames
    (hnames ▸ by decide)

/-! ## Steps -/

namespace RideEvent

/-- The coordinates are numbers and the whole numbers have 64 bits. -/
structure Sendable (e : RideEvent) : Prop where
  pickup : e.pickup.IsFinite
  destination : ∀ p ∈ e.destination, p.IsFinite
  estimateMinutes : ∀ n ∈ e.estimateMinutes, IsInt64 n
  durationMinutes : ∀ n ∈ e.durationMinutes, IsInt64 n
  timestamp : IsInt64 e.timestamp.ms

/-- The members of a step that was written. -/
def members (e : RideEvent) : List (String × Document) :=
  [ ("eventType", .string e.kind.name),
    ("rideId", .string e.ride.text),
    ("riderId", .string e.rider),
    ("driverId", Document.ofJson (.ofOption .string e.driver)),
    ("pickup", Document.ofJson e.pickup.toJson),
    ("destination", Document.ofJson (.ofOption GeoPoint.toJson e.destination)),
    ("fareAmount", Document.ofJson (.ofOption Decimal.toJson e.fare)),
    ("estimatedDurationMinutes",
      Document.ofJson (.ofOption .int e.estimateMinutes)),
    ("actualDurationMinutes",
      Document.ofJson (.ofOption .int e.durationMinutes)),
    ("initiatedBy", Document.ofJson (.ofOption .string e.initiatedBy)),
    ("timestamp", .int e.timestamp.ms) ]

theorem ofJson_toJson (e : RideEvent) :
    Document.ofJson e.toJson = .object e.members true := rfl

/-- The names of the fields of a step. -/
def fieldNames : List String :=
  ["eventType", "rideId", "riderId", "driverId", "pickup",
    "destination", "fareAmount", "estimatedDurationMinutes",
    "actualDurationMinutes", "initiatedBy", "timestamp"]

theorem nodup_members (e : RideEvent) : (e.members.map Prod.fst).Nodup := by
  show fieldNames.Nodup
  decide

variable {e : RideEvent}

/-- A sendable step is read, and only its fare can come back as another one. -/
theorem decode_toJson (h : e.Sendable) {fare : Option Decimal}
    (hfare : Decoder.nullable Decimal.decoder
      (Document.ofJson (.ofOption Decimal.toJson e.fare)) = .ok fare) :
    RideEvent.record.decode (Document.ofJson e.toJson) = .ok { e with
      fare := fare } := by
  have hkind :
      (RecordDecoder.required "eventType"
        (Decoder.choice RideEventKind.ofName?)).Reads
      e.members e.kind :=
    RecordDecoder.reads_required rfl
      (Decoder.choice_name (RideEventKind.ofName?_name e.kind))
  have hride : (RecordDecoder.required "rideId" RideId.decoder).Reads
      e.members e.ride :=
    RecordDecoder.reads_required rfl
      (Decoder.parsed_string (RideId.read?_text e.ride))
  have hrider : (RecordDecoder.required "riderId" Decoder.text).Reads
      e.members e.rider :=
    RecordDecoder.reads_required rfl rfl
  have hdriver : (RecordDecoder.optional "driverId" Decoder.text).Reads
      e.members e.driver :=
    RecordDecoder.reads_optional rfl
      (Decoder.nullable_ofOption (fun a _ => rfl) fun a h => by cases h)
  have hpickup : (RecordDecoder.required "pickup" GeoPoint.record.decode).Reads
      e.members
      e.pickup :=
        RecordDecoder.reads_required rfl (GeoPoint.decode_toJson h.pickup)
  have hdestination :
      (RecordDecoder.optional "destination" GeoPoint.record.decode).Reads
        e.members
      e.destination := by
    refine RecordDecoder.reads_optional rfl
      (Decoder.nullable_ofOption ?_ fun a h => by cases h)
    exact fun p hp => GeoPoint.decode_toJson (h.destination p hp)
  have hamount : (RecordDecoder.optional "fareAmount" Decimal.decoder).Reads
      e.members fare :=
    RecordDecoder.reads_optional rfl hfare
  have hestimate :
      (RecordDecoder.optional "estimatedDurationMinutes" Decoder.int64).Reads
        e.members
      e.estimateMinutes := by
    refine RecordDecoder.reads_optional rfl
      (Decoder.nullable_ofOption ?_ fun a h => by cases h)
    exact fun n hn => Decoder.int64_of_le (h.estimateMinutes n hn)
  have hduration :
      (RecordDecoder.optional "actualDurationMinutes" Decoder.int64).Reads
        e.members
      e.durationMinutes := by
    refine RecordDecoder.reads_optional rfl
      (Decoder.nullable_ofOption ?_ fun a h => by cases h)
    exact fun n hn => Decoder.int64_of_le (h.durationMinutes n hn)
  have hinitiated : (RecordDecoder.optional "initiatedBy" Decoder.text).Reads
      e.members e.initiatedBy :=
    RecordDecoder.reads_optional rfl
      (Decoder.nullable_ofOption (fun a _ => rfl) fun a h => by cases h)
  have htimestamp : (RecordDecoder.required "timestamp" Instant.decoder).Reads
      e.members e.timestamp := by
    refine RecordDecoder.reads_required (d := .int e.timestamp.ms) rfl ?_
    rw [Instant.decoder, Decoder.int64_of_le h.timestamp]
    rfl
  rw [ofJson_toJson]
  exact RecordDecoder.decode_of_reads
    ((((((((((((hkind.map RideEvent.mk).seq hride).seq
    hrider).seq hdriver).seq hpickup).seq hdestination).seq hamount).seq
    hestimate).seq
    hduration).seq hinitiated).seq htimestamp)) rfl e.nodup_members

/-- The field of the fare. -/
theorem find?_fareAmount :
    RideEvent.record.fields.find? (fun field => field.name = "fareAmount") =
    some ⟨"fareAmount", fun d =>
      (Decoder.nullable Decimal.decoder d).map fun _ => (), false⟩ := rfl

/-- A step whose fare cannot be read is not read. -/
theorem decode_ne_ok {d : Decimal} {refusal : Refusal} (hd : e.fare = some d)
    (h : Decoder.nullable Decimal.decoder (Document.ofJson d.toJson) =
      .error refusal)
    (found : RideEvent) :
    RideEvent.record.decode (Document.ofJson e.toJson) ≠ .ok found := by
  have hmember : ("fareAmount", Document.ofJson d.toJson) ∈ e.members := by
    have hsixth : e.members[6]? = some ("fareAmount",
        Document.ofJson (.ofOption Decimal.toJson e.fare)) := rfl
    rw [hd] at hsixth
    exact List.mem_of_getElem? hsixth
  rw [ofJson_toJson]
  refine RecordDecoder.decode_ne_ok (e := refusal) hmember find?_fareAmount ?_
  dsimp only
  rw [h]
  rfl

end RideEvent

namespace Notifier

variable {e : RideEvent}

theorem rideEvent?_published (e : RideEvent) :
    rideEvent? (Event.ride e).published =
      (RideEvent.record.decode (Document.ofJson e.toJson)).toOption := by
  rw [rideEvent?, if_neg (fun h => h rfl)]
  rfl

/-- A sendable step is read, and only its fare can come back as another one. -/
theorem exists_rideEvent?_published (h : e.Sendable)
    (hfare : ∀ d ∈ e.fare, |d.value| < Double.wholeLimit) :
    ∃ fare, rideEvent? (Event.ride e).published = some { e with
      fare := fare } := by
  obtain ⟨fare, hdecoded⟩ : ∃ fare, Decoder.nullable Decimal.decoder
      (Document.ofJson (.ofOption Decimal.toJson e.fare)) = .ok fare := by
    cases hd : e.fare with
    | none => exact ⟨none, rfl⟩
    | some d =>
        obtain ⟨d', hread⟩ := Decimal.exists_decoder_toJson (hfare d hd)
        exact ⟨some d', Decoder.nullable_of_ok hread fun h => by cases h⟩
  refine ⟨fare, ?_⟩
  rw [rideEvent?_published, RideEvent.decode_toJson h hdecoded]
  rfl

/-- A step with a fare that is too close to the bound of mantissas is not
read. -/
theorem rideEvent?_published_of_le {d : Decimal} (hd : e.fare = some d)
    (h : Double.wholeLimit ≤ |d.value|) :
    rideEvent? (Event.ride e).published = none := by
  rw [rideEvent?_published]
  cases hdecode : RideEvent.record.decode (Document.ofJson e.toJson) with
  | error refusal => rfl
  | ok found =>
      exact absurd hdecode
        (RideEvent.decode_ne_ok hd (Decimal.nullable_toJson_of_le h) found)

end Notifier

end Ridehail
