import Ridehail.Proofs.Dispatch.Causes

/-!
# Deliveries

The notifier handles one message after the other, so that what it delivers in a
run is put together from what it delivers of each event.  Two things are in the
way of a statement about one ride.  The messages of all rides are mixed, and of
an event that was sent and read again the fare may be another one.  Neither
matters: every delivery names its ride, and none depends on the fare.

## Main results

* `Notifier.deliveries_eq` — only events of rides are delivered.
* `Notifier.filterMap_deliveries` — what is picked from the deliveries about a
  ride is what is picked from its events, if all events are readable.
-/

namespace Ridehail

/-! ## What is delivered -/

/-- How a rider is told of a status of the ride. -/
def RideStatus.notice? : RideStatus → Option String
  | .requested => none
  | .accepted => some "ASSIGNED"
  | .inProgress => some "IN_PROGRESS"
  | .completed => some "COMPLETED"
  | .cancelled => some "CANCELLED"

namespace Delivery

/-- The ride that the delivery is about. -/
def ride? : Delivery → Option RideId
  | .rider _ update => some update.ride
  | .driver _ update => some update.ride
  | .topic _ _ => none

/-- The rider who is told, and the status. -/
def toRider? : Delivery → Option (RiderId × String)
  | .rider id update => some (id, update.status)
  | _ => none

/-- The driver who is told, the status and the details. -/
def toDriver? : Delivery → Option (DriverId × String × Json)
  | .driver id update => some (id, update.status, update.details)
  | _ => none

end Delivery

namespace RideEvent

variable (e : RideEvent)

/-- What the rider is told of the event. -/
def toRider? : Option (RiderId × String) :=
  e.kind.status.notice?.map (e.rider, ·)

/-- What the driver is told of the event. -/
def toDriver? : Option (DriverId × String × Json) :=
  if e.kind = .cancelled then
    e.driver.map fun driver =>
      (driver, "RIDE_CANCELLED",
        .object [("initiatedBy", .ofOption .string e.initiatedBy)])
  else none

end RideEvent

namespace Notifier

variable {e : RideEvent} {log : List Event}

theorem filterMap_toRider?_deliveriesOf (e : RideEvent) :
    (deliveriesOf e).filterMap Delivery.toRider? = e.toRider?.toList := by
  unfold deliveriesOf RideEvent.toRider?
  cases e.kind with
  | cancelled => cases e.driver <;> rfl
  | _ => rfl

theorem filterMap_toDriver?_deliveriesOf (e : RideEvent) :
    (deliveriesOf e).filterMap Delivery.toDriver? = e.toDriver?.toList := by
  unfold deliveriesOf RideEvent.toDriver?
  cases e.kind with
  | cancelled => cases e.driver <;> rfl
  | _ => rfl

theorem ride?_of_mem_deliveriesOf {d : Delivery} (h : d ∈ deliveriesOf e) :
    d.ride? = some e.ride := by
  unfold deliveriesOf at h
  cases hkind : e.kind with
  | requested => simp [hkind] at h
  | cancelled =>
      cases hdriver : e.driver with
      | none =>
          simp only [hkind, hdriver, List.mem_singleton] at h
          rw [h]
          rfl
      | some driver =>
          simp only [hkind, hdriver, List.mem_cons,
            List.not_mem_nil, or_false] at h
          rcases h with h | h <;> rw [h] <;> rfl
  | _ =>
      simp only [hkind, List.mem_singleton] at h
      rw [h]
      rfl

/-- The event is read from its message, up to the fare. -/
def Readable (e : RideEvent) : Prop :=
  ∃ fare, rideEvent? (Event.ride e).published = some { e with fare := fare }

/-- An event that is read is delivered. -/
theorem Readable.handle_eq (h : Readable e) :
    ∃ fare, handle (Event.ride e).published = deliveriesOf { e with
      fare := fare } := by
  obtain ⟨fare, hread⟩ := h
  exact ⟨fare, by rw [handle, hread]⟩

theorem Readable.ride?_of_mem (h : Readable e) {d : Delivery}
    (hd : d ∈ handle (Event.ride e).published) : d.ride? = some e.ride := by
  obtain ⟨fare, hhandle⟩ := h.handle_eq
  rw [hhandle] at hd
  exact ride?_of_mem_deliveriesOf (e := { e with fare := fare }) hd

/-- Everything that is delivered when the messages of a log are handled in
order. -/
def deliveries (log : List Event) : List Delivery :=
  log.flatMap fun e => handle e.published

/-- Only events of rides are delivered. -/
theorem deliveries_eq (log : List Event) :
    deliveries log =
      (log.filterMap Event.ride?).flatMap fun e =>
        handle (Event.ride e).published := by
  induction log with
  | nil => rfl
  | cons e rest ih =>
      cases e with
      | ride e =>
          show handle _ ++ deliveries rest = handle _ ++ List.flatMap _ _
          rw [ih]
      | location e => exact ih
      | assignment e => exact ih

/-- What is delivered about a ride comes of the events of that ride. -/
theorem filter_deliveries (h : ∀ e ∈ log.filterMap Event.ride?, Readable e)
    (id : RideId) :
    (deliveries log).filter (·.ride? = some id) =
      ((log.filterMap Event.ride?).filter (·.ride = id)).flatMap
        fun e => handle (Event.ride e).published := by
  rw [deliveries_eq]
  generalize log.filterMap Event.ride? = events at h
  induction events with
  | nil => rfl
  | cons e rest ih =>
      have hrest := ih fun e he => h e (List.mem_cons_of_mem _ he)
      have hride (d : Delivery) (hd : d ∈ handle (Event.ride e).published) :
          d.ride? = some e.ride :=
        (h e List.mem_cons_self).ride?_of_mem hd
      rw [List.flatMap_cons, List.filter_append, hrest]
      by_cases hid : e.ride = id
      · rw [List.filter_cons_of_pos (by simpa using hid), List.flatMap_cons,
          List.filter_eq_self.2 fun d hd => by simpa [hride d hd] using hid]
      · rw [List.filter_cons_of_neg (by simpa using hid),
          List.filter_eq_nil_iff.2 fun d hd => by simpa [hride d hd] using hid]
        rfl

/-- What is picked from the deliveries about a ride, and does not depend on the
fare, is what is picked from the events of that ride. -/
theorem filterMap_deliveries {β : Type} {pick : Delivery → Option β}
    {pick' : RideEvent → Option β}
    (hpick : ∀ e, (deliveriesOf e).filterMap pick = (pick' e).toList)
    (hfare : ∀ e fare, pick' { e with fare := fare } = pick' e)
    (h : ∀ e ∈ log.filterMap Event.ride?, Readable e) (id : RideId) :
    ((deliveries log).filter (·.ride? = some id)).filterMap pick =
      ((log.filterMap Event.ride?).filter (·.ride = id)).filterMap pick' := by
  rw [filter_deliveries h, List.filterMap_flatMap,
    List.filterMap_eq_flatMap_toList pick']
  refine List.flatMap_congr fun e he => ?_
  obtain ⟨fare, hhandle⟩ := (h e (List.mem_of_mem_filter he)).handle_eq
  rw [hhandle, hpick, hfare]

end Notifier

end Ridehail
