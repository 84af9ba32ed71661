import Ridehail.Http.Command

/-!
# What can come of reading a request

A request is read part by part, and each part can be faulty in its own way.
Whatever is found, the answer to a faulty request puts the blame on the request.
And a command that has been read is one that can be carried out: its places are
in range, and its minutes fit into 64 bits.

`Reading.Gives` says both of a part at once, so that each part is looked at only
once, in the order in which requests are read.

## Main results

* `Command.gives_read` — every request is read as an admissible command, or
  refused as faulty.
-/

namespace Ridehail

/-! ## Records -/

namespace RecordDecoder

variable {α β : Type} {P : α → Prop} {Q : β → Prop}

/-- Whatever value a record is read as, `P` holds of it. -/
def Yields (r : RecordDecoder α) (P : α → Prop) : Prop :=
  ∀ members a, r.build members = .ok a → P a

theorem yields_true (r : RecordDecoder α) : r.Yields fun _ => True :=
  fun _ _ _ => trivial

theorem Yields.seq {f : RecordDecoder (α → β)} {x : RecordDecoder α}
    (hf : f.Yields fun g => ∀ a, P a → Q (g a)) (hx : x.Yields P) :
    (f <*> x).Yields Q := by
  intro members b h
  change (do
    let g ← f.build members
    let a ← x.build members
    return g a) = Except.ok b at h
  cases hg : f.build members with
  | error e =>
      rw [hg] at h
      cases h
  | ok g =>
      cases ha : x.build members with
      | error e =>
          rw [hg, ha] at h
          cases h
      | ok a =>
          rw [hg, ha] at h
          cases h
          exact hf members g hg a (hx members a ha)

theorem Yields.map {x : RecordDecoder α} {g : α → β} (hx : x.Yields P)
    (hg : ∀ a, P a → Q (g a)) :
    (g <$> x).Yields Q := by
  have hpure : (pure g : RecordDecoder (α → β)).Yields fun g =>
      ∀ a, P a → Q (g a) := by
    intro members g' h
    cases h
    exact hg
  exact hpure.seq hx

/-- What holds of the values of a field holds of an optional one that is
there. -/
theorem yields_optional {name : String} {decode : Decoder α}
    (h : ∀ d a, decode d = .ok a → P a) :
    (RecordDecoder.optional name decode).Yields fun found =>
      ∀ a ∈ found, P a := by
  intro members found hbuild
  have hnullable : ∀ d, Decoder.nullable decode d = .ok found →
      ∀ a ∈ found, P a := by
    intro d hd a ha
    unfold Decoder.nullable at hd
    split at hd
    · cases hd
      cases ha
    · rename_i hne
      cases hdecode : decode d with
      | error e =>
          rw [hdecode] at hd
          cases hd
      | ok b =>
          rw [hdecode] at hd
          cases hd
          cases ha
          exact h d _ hdecode
  unfold optional at hbuild
  dsimp only at hbuild
  split at hbuild
  · exact hnullable _ hbuild
  · cases hbuild
    intro a ha
    cases ha

/-- A document that is read as a record has been read from its members or
items. -/
theorem exists_build_of_decode {r : RecordDecoder α} {d : Document} {a : α}
    (h : r.decode d = .ok a) : ∃ members, r.build members = .ok a := by
  unfold decode at h
  split at h
  · rename_i members closed
    cases hfound : checkMembers r.fields [] members with
    | error e =>
        rw [hfound] at h
        cases h
    | ok found =>
        rw [hfound] at h
        change (if closed = true then r.build found else .error .malformed) =
          .ok a at h
        split at h
        · exact ⟨found, h⟩
        · cases h
  · rename_i members
    cases hfound : checkMembers r.fields [] members with
    | error e =>
        rw [hfound] at h
        cases h
    | ok found =>
        rw [hfound] at h
        cases h
  · rename_i items closed
    cases hfound : checkItems closed r.fields items with
    | error e =>
        rw [hfound] at h
        cases h
    | ok found =>
        rw [hfound] at h
        exact ⟨found, h⟩
  · cases h

theorem Yields.of_decode {r : RecordDecoder α} (hr : r.Yields P) {d : Document}
    {a : α} (h : r.decode d = .ok a) : P a := by
  obtain ⟨members, hbuild⟩ := exists_build_of_decode h
  exact hr members a hbuild

end RecordDecoder

/-- An integer of 64 bits is one. -/
theorem Decoder.int64_le {d : Document} {n : Int}
    (h : Decoder.int64 d = .ok n) :
    n ≤ Double.int64Max := by
  unfold int64 at h
  split at h
  · split at h
    · rename_i m hrange
      cases h
      simp only [Bool.and_eq_true, decide_eq_true_eq] at hrange
      exact hrange.2
    · cases h
  · cases h

theorem EstimateRequest.yields_minutes :
    EstimateRequest.record.Yields fun asked =>
      ∀ m ∈ asked.minutes, m ≤ Double.int64Max := by
  refine .seq ?_ (RecordDecoder.yields_true _)
  refine .seq ?_ (RecordDecoder.yields_optional fun d n => Decoder.int64_le)
  refine .seq ?_ (RecordDecoder.yields_true _)
  refine .map (RecordDecoder.yields_true _) ?_
  exact fun _ _ _ _ minutes hminutes _ _ => hminutes

/-! ## Commands -/

/-- The places of a command are in range, and its minutes fit into 64 bits. -/
def Command.Admissible : Command → Prop
  | .createRide _ pickup destination =>
      pickup.inRange = true ∧ ∀ p ∈ destination, p.inRange = true
  | .updateLocation _ ping => ping.location.inRange = true
  | .goOnline _ place => ∀ p ∈ place, p.inRange = true
  | .estimateFare _ _ minutes _ => ∀ m ∈ minutes, m ≤ Double.int64Max
  | _ => True

namespace Command

variable {α β : Type} {P : α → Prop} {Q : β → Prop}

/-- Reading a part gives a value of which `P` holds, or an answer that is none
for a failure of the service. -/
def Reading.Gives (P : α → Prop) : Reading α → Prop
  | .ok a => P a
  | .error response => response.status ≠ 500

theorem Reading.Gives.bind {x : Reading α} {f : α → Reading β} (hx : Gives P x)
    (hf : ∀ a, P a → Gives Q (f a)) : Gives Q (x >>= f) := by
  cases x with
  | error response => exact hx
  | ok a => exact hf a hx

theorem gives_malformed : Reading.Gives P malformed := by
  show (400 : Nat) ≠ 500
  decide

theorem gives_badRequest (message : String) :
    Reading.Gives P (.error (HttpFailure.badRequest message).response) := by
  show (400 : Nat) ≠ 500
  decide

theorem gives_wrongMethod : Reading.Gives P (.error (.empty 405)) := by
  show (405 : Nat) ≠ 500
  decide

/-! ### Parts -/

theorem gives_pathText (raw : String) :
    Reading.Gives (fun _ => True) (pathText raw) := by
  unfold pathText
  split
  · trivial
  · exact gives_malformed

theorem gives_rideId (raw : String) :
    Reading.Gives (fun _ => True) (rideId raw) := by
  unfold rideId
  split
  · trivial
  · exact gives_badRequest _

theorem gives_place (p : GeoPoint) :
    Reading.Gives (·.inRange = true) (place p) := by
  unfold place
  cases hmake : GeoPoint.make p.lat p.lng with
  | error e => exact gives_badRequest _
  | ok q => exact ((GeoPoint.make_eq_ok_iff _ _ q).1 hmake).2

theorem gives_optionalPlace (found : Option GeoPoint) :
    Reading.Gives (fun found => ∀ p ∈ found, p.inRange = true)
      (optionalPlace found) := by
  cases found with
  | none =>
      intro p hp
      cases hp
  | some p =>
      have hplace := gives_place p
      show Reading.Gives _ ((place p).map some)
      cases hresult : place p with
      | error response =>
          rw [hresult] at hplace
          exact hplace
      | ok q =>
          rw [hresult] at hplace
          intro r hr
          cases hr
          exact hplace

theorem gives_body {record : RecordDecoder α} (hrecord : record.Yields P)
    (r : Request) :
    Reading.Gives P (body record r) := by
  unfold body
  split
  · show (415 : Nat) ≠ 500
    decide
  · split
    · rename_i a hdecode
      exact hrecord.of_decode hdecode
    · show (400 : Nat) ≠ 500
      decide
    · show (422 : Nat) ≠ 500
      decide

theorem gives_part (found : Option α) :
    Reading.Gives (fun _ => True) (part found) := by
  cases found with
  | none => exact gives_malformed
  | some a => trivial

theorem gives_coordinates (q : Query) :
    Reading.Gives (fun _ => True) (coordinates q) := by
  unfold coordinates
  refine (gives_part _).bind fun lat _ => ?_
  exact (gives_part _).bind fun lng _ => trivial

/-! ### Whole requests -/

theorem gives_readList (q : Query) : Reading.Gives Admissible (readList q) := by
  have hneither : Reading.Gives Admissible readList.neither :=
    gives_badRequest _
  unfold readList
  refine (gives_part _).bind fun rider _ => ?_
  refine (gives_part _).bind fun driver _ => ?_
  refine (gives_part _).bind fun limit _ => ?_
  dsimp only
  split
  · split
    · exact hneither
    · trivial
  · split
    · exact hneither
    · trivial
  · exact hneither

theorem gives_readRideStep (raw : String) (step : RideStep) (r : Request) :
    Reading.Gives Admissible (readRideStep raw step r) := by
  unfold readRideStep
  refine (gives_pathText raw).bind fun id _ => ?_
  have hid := gives_rideId id
  cases step with
  | start =>
      refine (gives_body (RecordDecoder.yields_true _) r).bind
        fun driver _ => ?_
      exact hid.bind fun _ _ => trivial
  | complete =>
      refine (gives_body (RecordDecoder.yields_true _) r).bind
        fun fields _ => ?_
      exact hid.bind fun _ _ => trivial
  | cancel => exact hid.bind fun _ _ => trivial
  | rematch => exact hid.bind fun _ _ => trivial

theorem gives_readDriverStep (raw : String) (step : DriverStep) (r : Request) :
    Reading.Gives Admissible (readDriverStep raw step r) := by
  unfold readDriverStep
  refine (gives_pathText raw).bind fun id _ => ?_
  cases step with
  | location =>
      refine (gives_body (RecordDecoder.yields_true _) r).bind fun ping _ => ?_
      exact (gives_place _).bind fun p hp => hp
  | online => exact (gives_optionalPlace _).bind fun found hfound => hfound
  | offline => trivial
  | enRoute => trivial

theorem gives_readGet (route : Route) (r : Request) :
    Reading.Gives Admissible (readGet route r) := by
  cases route with
  | health => trivial
  | ready => trivial
  | rides => exact gives_readList r.fields
  | ride raw =>
      exact (gives_pathText raw).bind fun id _ =>
        (gives_rideId id).bind fun _ _ => trivial
  | nearby =>
      refine (gives_coordinates _).bind fun p _ => ?_
      refine (gives_part _).bind fun radiusKm _ => ?_
      exact (gives_place p).bind fun _ _ => trivial
  | driver raw => exact (gives_pathText raw).bind fun _ _ => trivial
  | surge =>
      refine (gives_coordinates _).bind fun p _ => ?_
      exact (gives_place p).bind fun _ _ => trivial
  | rideStep => exact gives_wrongMethod
  | drivers => exact gives_wrongMethod
  | driverStep => exact gives_wrongMethod
  | estimate => exact gives_wrongMethod

theorem gives_readPost (route : Route) (r : Request) :
    Reading.Gives Admissible (readPost route r) := by
  cases route with
  | rides =>
      refine (gives_body (RecordDecoder.yields_true _) r).bind fun asked _ => ?_
      refine (gives_place asked.pickup).bind fun pickup hpickup => ?_
      exact (gives_optionalPlace asked.destination).bind
          fun destination hdestination =>
        ⟨hpickup, hdestination⟩
  | rideStep raw step => exact gives_readRideStep raw step r
  | drivers =>
      exact (gives_body (RecordDecoder.yields_true _) r).bind fun _ _ => trivial
  | driverStep raw step => exact gives_readDriverStep raw step r
  | estimate =>
      refine (gives_body EstimateRequest.yields_minutes r).bind
        fun asked hminutes => ?_
      refine (gives_place asked.pickup).bind fun pickup _ => ?_
      exact (gives_place asked.destination).bind fun destination _ => hminutes
  | health => exact gives_wrongMethod
  | ready => exact gives_wrongMethod
  | ride => exact gives_wrongMethod
  | nearby => exact gives_wrongMethod
  | driver => exact gives_wrongMethod
  | surge => exact gives_wrongMethod

/-- Every request is read as an admissible command, or refused, and not as for a
failure of the service. -/
theorem gives_read (r : Request) : Reading.Gives Admissible (read r) := by
  unfold read
  split
  · show (404 : Nat) ≠ 500
    decide
  · split
    · exact gives_readGet _ r
    · split
      · exact gives_readPost _ r
      · exact gives_wrongMethod

end Command

end Ridehail
