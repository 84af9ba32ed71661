import Ridehail.Proofs.Decimal.RoundTrip
import Ridehail.Proofs.Store.Moves
import Ridehail.Proofs.Store.Places
import Ridehail.Proofs.Store.Rows
import Mathlib.Data.Option.Basic
import Mathlib.Data.List.Forall2

/-!
# Records read back

A record is not stored as it is: zeros lose their signs and amounts their form.
What is read again is therefore the same record only up to the numbers that its
coordinates and its fare stand for.  `Ride.Same` and `Driver.Same` say that, and
a row `Shows` a record if that is what reading it gives.

A step of a record writes some columns of its row and leaves the others.  The
lemmas of this module say for each of these writes that a row which showed the
record before shows it after the step, so that no column was left out.

## Main results

* `RideRow.shows_ofRide`, `Shows.assigned`, `Shows.advanced` — what is written
  when a ride is added, assigned or takes another step.
* `DriverRow.shows_ofDriver`, `Shows.located`, `Shows.withStatus` — the same for
  drivers.
-/

namespace Ridehail

/-! ## The same record -/

/-- Numerically the same point. -/
def GeoPoint.Same (p q : GeoPoint) : Prop :=
  (p.lat == q.lat) = true ∧ (p.lng == q.lng) = true

/-- The same driver, at numerically the same place. -/
structure Driver.Same (d e : Driver) : Prop where
  id : d.id = e.id
  name : d.name = e.name
  phone : d.phone = e.phone
  licensePlate : d.licensePlate = e.licensePlate
  vehicleType : d.vehicleType = e.vehicleType
  location : Option.Rel GeoPoint.Same d.location e.location
  lastPing : d.lastPing = e.lastPing
  status : d.status = e.status
  createdAt : d.createdAt = e.createdAt
  updatedAt : d.updatedAt = e.updatedAt

/-- The same ride, between numerically the same points and for numerically the
same fare. -/
structure Ride.Same (r s : Ride) : Prop where
  id : r.id = s.id
  rider : r.rider = s.rider
  driver : r.driver = s.driver
  pickup : r.pickup.Same s.pickup
  destination : Option.Rel GeoPoint.Same r.destination s.destination
  status : r.status = s.status
  fare : Option.Rel (fun a b => Decimal.same a b = true) r.fare s.fare
  estimateMinutes : r.estimateMinutes = s.estimateMinutes
  createdAt : r.createdAt = s.createdAt
  acceptedAt : r.acceptedAt = s.acceptedAt
  startedAt : r.startedAt = s.startedAt
  completedAt : r.completedAt = s.completedAt
  cancelledAt : r.cancelledAt = s.cancelledAt
  updatedAt : r.updatedAt = s.updatedAt

/-! ## Points and amounts -/

theorem beq_self_of_isNaN_eq_false {x : Float} (h : x.isNaN = false) :
    (x == x) = true := by
  have hmodel : x.toModel.unpack.isNaN = false := h
  show x.toModel.unpack.beq x.toModel.unpack = true
  revert hmodel
  cases x.toModel.unpack with
  | notANumber => intro hnan; cases hnan
  | infinity s => cases s <;> exact fun _ => rfl
  | zero s => exact fun _ => rfl
  | finite s m e =>
      intro _
      have hsame : (compare e e).then (compare m m) = .eq := by simp
      cases s
      · show (some ((compare e e).then (compare m m)).swap == some .eq) = true
        rw [hsame]
        rfl
      · show (some ((compare e e).then (compare m m)) == some .eq) = true
        rw [hsame]
        rfl

theorem beq_storedDouble {x : Float} (h : x.isNaN = false) :
    (x == storedDouble x) = true := by
  unfold storedDouble
  split
  · assumption
  · exact beq_self_of_isNaN_eq_false h

namespace GeoPoint

theorem isNaN_of_inRange {p : GeoPoint} (h : p.inRange = true) :
    p.lat.isNaN = false ∧ p.lng.isNaN = false := by
  obtain ⟨hlat, hlng⟩ := Bool.and_eq_true_iff.1 h
  exact ⟨isNaN_of_within hlat, isNaN_of_within hlng⟩

theorem same_self {p : GeoPoint} (h : p.inRange = true) : p.Same p :=
  ⟨beq_self_of_isNaN_eq_false (isNaN_of_inRange h).1,
    beq_self_of_isNaN_eq_false (isNaN_of_inRange h).2⟩

theorem same_stored {p : GeoPoint} (h : p.inRange = true) :
    p.Same ⟨storedDouble p.lat, storedDouble p.lng⟩ :=
  ⟨beq_storedDouble (isNaN_of_inRange h).1,
    beq_storedDouble (isNaN_of_inRange h).2⟩

end GeoPoint

/-- A point in range or none is read from its columns. -/
theorem pointOfColumns_stored {location : Option GeoPoint}
    (h : ∀ p ∈ location, p.inRange = true) :
    ∃ stored, pointOfColumns (location.bind (coordinateColumn ·.lat))
        (location.bind (coordinateColumn ·.lng)) = .ok stored ∧
      Option.Rel GeoPoint.Same location stored := by
  cases location with
  | none => exact ⟨none, rfl, .none⟩
  | some p =>
      have hp := h p rfl
      obtain ⟨hlat, hlng, hmake⟩ := GeoPoint.columns_of_inRange hp
      refine ⟨some ⟨storedDouble p.lat, storedDouble p.lng⟩, ?_,
        .some (GeoPoint.same_stored hp)⟩
      rw [Option.bind_some, Option.bind_some, hlat, hlng, pointOfColumns, hmake]
      rfl

/-- Whatever is read from two columns is a point in range or none. -/
theorem inRange_of_pointOfColumns {lat lng : Option Float}
    {location : Option GeoPoint} (h : pointOfColumns lat lng = .ok location) :
    ∀ p ∈ location, p.inRange = true := by
  unfold pointOfColumns at h
  split at h
  · rename_i x y
    cases hmake : GeoPoint.make x y with
    | error fault =>
        rw [hmake] at h
        cases h
    | ok q =>
        rw [hmake] at h
        cases h
        intro p hp
        cases hp
        exact ((GeoPoint.make_eq_ok_iff x y q).1 hmake).2
  · cases h
    intro p hp
    cases hp

theorem rel_same_self {location : Option GeoPoint}
    (h : ∀ p ∈ location, p.inRange = true) :
    Option.Rel GeoPoint.Same location location := by
  cases location with
  | none => exact .none
  | some p => exact .some (GeoPoint.same_self (h p rfl))

/-- An amount is read from its column. -/
theorem amountOfColumn_text (fare : Option Decimal) :
    ∃ stored, amountOfColumn (fare.map Decimal.text) = .ok stored ∧
      Option.Rel (fun a b => Decimal.same a b = true) fare stored := by
  cases fare with
  | none => exact ⟨none, rfl, .none⟩
  | some d =>
      obtain ⟨stored, hread, hsame⟩ := Decimal.read_text d
      refine ⟨some stored, ?_, .some hsame⟩
      rw [Option.map_some, amountOfColumn, hread]

/-! ## Drivers -/

namespace DriverRow

variable {row : DriverRow} {d : Driver}

/-- Reading the row gives the driver. -/
def Shows (row : DriverRow) (d : Driver) : Prop :=
  ∃ stored, row.read = .ok stored ∧ d.Same stored

theorem shows_iff :
    row.Shows d ↔ ∃ location, pointOfColumns row.lat row.lng = .ok location ∧
      d.Same (row.toDriver location) := by
  constructor
  · rintro ⟨stored, hread, hsame⟩
    obtain ⟨location, hlocation, rfl⟩ := read_eq_ok.1 hread
    exact ⟨location, hlocation, hsame⟩
  · rintro ⟨location, hlocation, hsame⟩
    exact ⟨row.toDriver location,
      read_eq_ok.2 ⟨location, hlocation, rfl⟩, hsame⟩

theorem shows_of_read (h : row.read = .ok d) : row.Shows d := by
  obtain ⟨location, hlocation, rfl⟩ := read_eq_ok.1 h
  exact ⟨row.toDriver location, h, rfl, rfl, rfl, rfl, rfl,
    rel_same_self (inRange_of_pointOfColumns hlocation), rfl, rfl, rfl, rfl⟩

/-- The row of a driver shows the driver. -/
theorem shows_ofDriver (h : ∀ p ∈ d.location, p.inRange = true) :
    (ofDriver d).Shows d := by
  obtain ⟨location, hlocation, hsame⟩ := pointOfColumns_stored h
  exact shows_iff.2 ⟨location, hlocation, rfl, rfl, rfl, rfl, rfl, hsame,
    rfl, rfl, rfl, rfl⟩

namespace Shows

theorem id_eq (h : row.Shows d) : d.id = row.id := by
  obtain ⟨location, -, hsame⟩ := shows_iff.1 h
  exact hsame.id

/-- A ping writes all that it changes. -/
theorem located (h : row.Shows d) {p : GeoPoint} (hp : p.inRange = true)
    (at_ : Instant) :
    (row.located p at_).Shows (d.locate p at_) := by
  obtain ⟨location, -, hsame⟩ := shows_iff.1 h
  exact shows_iff.2 ⟨_, row.placedAt_located hp at_, hsame.id,
    hsame.name, hsame.phone, hsame.licensePlate, hsame.vehicleType,
    .some (GeoPoint.same_stored hp), rfl, hsame.status,
    hsame.createdAt, rfl⟩

/-- A change of status writes all that it changes. -/
theorem withStatus (h : row.Shows d) (status : DriverStatus) (at_ : Instant) :
    (row.withStatus status at_).Shows (d.withStatus status at_) := by
  obtain ⟨location, hlocation, hsame⟩ := shows_iff.1 h
  exact shows_iff.2 ⟨location, hlocation, hsame.id, hsame.name, hsame.phone,
    hsame.licensePlate, hsame.vehicleType, hsame.location, hsame.lastPing, rfl,
    hsame.createdAt, rfl⟩

end Shows

end DriverRow

/-! ## Rides -/

namespace RideRow

variable {row : RideRow} {r old : Ride}

/-- Reading the row gives the ride. -/
def Shows (row : RideRow) (r : Ride) : Prop :=
  ∃ stored, row.read = .ok stored ∧ r.Same stored

theorem shows_of_read (h : row.read = .ok r) : row.Shows r := by
  obtain ⟨pickup, destination, fare, hpickup, hdestination, -, rfl⟩ :=
    read_eq_ok_iff.1 h
  have hp : pickup.inRange = true :=
    ((GeoPoint.make_eq_ok_iff _ _ _).1 hpickup).2
  have hfare : Option.Rel (fun a b => Decimal.same a b = true) fare fare := by
    cases fare with
    | none => exact .none
    | some d => exact .some d.same_refl
  exact ⟨_, h, rfl, rfl, rfl, GeoPoint.same_self hp,
    rel_same_self (inRange_of_pointOfColumns hdestination), rfl, hfare, rfl,
    rfl, rfl, rfl, rfl, rfl, rfl⟩

/-- The row of a ride between points shows the ride. -/
theorem shows_ofRide (hpickup : r.pickup.inRange = true)
    (hdestination : ∀ p ∈ r.destination, p.inRange = true) :
    (ofRide r).Shows r := by
  obtain ⟨-, -, hmake⟩ := GeoPoint.columns_of_inRange hpickup
  obtain ⟨destination, hread, hsame⟩ := pointOfColumns_stored hdestination
  obtain ⟨fare, hfare, hamount⟩ := amountOfColumn_text r.fare
  exact ⟨_, read_eq_ok_iff.2 ⟨_, destination, fare, hmake, hread, hfare, rfl⟩,
    rfl, rfl, rfl, GeoPoint.same_stored hpickup, hsame, rfl, hamount, rfl, rfl,
    rfl, rfl, rfl, rfl, rfl⟩

namespace Shows

theorem id_eq (h : row.Shows r) : r.id = row.id := by
  obtain ⟨stored, hread, hsame⟩ := h
  exact hsame.id.trans (read_eq_ok hread).1

theorem status_eq (h : row.Shows r) : r.status = row.status := by
  obtain ⟨stored, hread, hsame⟩ := h
  exact hsame.status.trans (read_eq_ok hread).2.2.2.1

/-- An assignment writes all that an acceptance changes. -/
theorem assigned {driver : DriverId} {at_ : Instant} (h : row.Shows old)
    (haccept : old.accept driver at_ = .ok r) :
    (row.assigned r driver).Shows r := by
  obtain ⟨-, rfl⟩ := Ride.accept_eq_ok.1 haccept
  obtain ⟨stored, hread, hsame⟩ := h
  obtain ⟨pickup, destination, fare, hpickup, hdestination, hfare, rfl⟩ :=
    read_eq_ok_iff.1 hread
  exact ⟨_, read_eq_ok_iff.2 ⟨pickup, destination, fare, hpickup,
    hdestination, hfare, rfl⟩, hsame.id, hsame.rider, rfl, hsame.pickup,
    hsame.destination, rfl, hsame.fare,
    hsame.estimateMinutes, hsame.createdAt, rfl, hsame.startedAt,
    hsame.completedAt, hsame.cancelledAt, rfl⟩

/-- A step writes all that it changes. -/
theorem advanced (h : row.Shows old) (hstep : old.StepsTo r) :
    (row.advanced r).Shows r := by
  obtain ⟨stored, hread, hsame⟩ := h
  obtain ⟨pickup, destination, fare, hpickup, hdestination, -, rfl⟩ :=
    read_eq_ok_iff.1 hread
  obtain ⟨amount, hamount, hrel⟩ := amountOfColumn_text r.fare
  -- What a step leaves alone in the record, `advanced` leaves alone in the row.
  have hkept : r.id = old.id ∧ r.rider = old.rider ∧ r.pickup = old.pickup ∧
      r.destination = old.destination ∧ r.createdAt = old.createdAt := by
    obtain ⟨at_, h | ⟨paid, h⟩ | h⟩ := hstep
    · obtain ⟨-, rfl⟩ := Ride.start_eq_ok.1 h
      exact ⟨rfl, rfl, rfl, rfl, rfl⟩
    · obtain ⟨-, rfl⟩ := Ride.complete_eq_ok.1 h
      exact ⟨rfl, rfl, rfl, rfl, rfl⟩
    · obtain ⟨-, rfl⟩ := Ride.cancel_eq_ok.1 h
      exact ⟨rfl, rfl, rfl, rfl, rfl⟩
  obtain ⟨hid, hrider, hfrom, hto, hcreated⟩ := hkept
  exact ⟨_, read_eq_ok_iff.2 ⟨pickup, destination, amount, hpickup,
    hdestination, hamount, rfl⟩, hid.trans hsame.id, hrider.trans hsame.rider,
    rfl, hfrom ▸ hsame.pickup,
    hto ▸ hsame.destination, rfl, hrel, rfl, hcreated.trans hsame.createdAt,
    rfl, rfl, rfl, rfl, rfl⟩

end Shows

end RideRow

/-! ## Records that the store has -/

namespace Store

variable {s s' : Store}

/-- The store has the ride as it is. -/
def HasRide (s : Store) (r : Ride) : Prop :=
  ∃ row, s.ride? r.id = some row ∧ row.Shows r

/-- The store has the driver as they are. -/
def HasDriver (s : Store) (d : Driver) : Prop :=
  ∃ row, s.driver? d.id = some row ∧ row.Shows d

theorem HasRide.find {r : Ride} (h : s.HasRide r) :
    ∃ r', s.findRide r.id = .ok (some r') ∧ r.Same r' := by
  obtain ⟨row, hrow, stored, hread, hsame⟩ := h
  exact ⟨stored, findRide_eq_some.2 ⟨row, hrow, hread⟩, hsame⟩

theorem HasDriver.find {d : Driver} (h : s.HasDriver d) :
    ∃ d', s.findDriver d.id = .ok (some d') ∧ d.Same d' := by
  obtain ⟨row, hrow, stored, hread, hsame⟩ := h
  exact ⟨stored, findDriver_eq_some.2 ⟨row, hrow, hread⟩, hsame⟩

@[simp] theorem hasRide_putDriver {row : DriverRow} {r : Ride} :
    (s.putDriver row).HasRide r ↔ s.HasRide r := Iff.rfl

theorem hasDriver_putDriver {row old : DriverRow} {d : Driver}
    (hold : s.driver? row.id = some old) (h : row.Shows d) :
    (s.putDriver row).HasDriver d := by
  refine ⟨row, ?_, h⟩
  rw [h.id_eq]
  exact driver?_putDriver_self hold

theorem hasRide_putRide {row old : RideRow} {r : Ride}
    (hold : s.ride? row.id = some old) (h : row.Shows r) :
    (s.putRide row).HasRide r := by
  refine ⟨row, ?_, h⟩
  rw [h.id_eq]
  exact ride?_putRide_self hold

/-- A driver who was added without a location is there. -/
theorem hasDriver_of_insertDriver {d : Driver} (hlocation : d.location = none)
    (h : s.insertDriver d = .ok (true, s')) : s'.HasDriver d := by
  obtain ⟨-, hfree, rfl⟩ := insertDriver_applied h
  refine ⟨DriverRow.ofDriver d, driver?_of_added rfl hfree rfl,
    DriverRow.shows_ofDriver ?_⟩
  intro p hp
  rw [hlocation] at hp
  cases hp

/-- A ride between points that was added is there. -/
theorem hasRide_of_insertRide {r : Ride} (hpickup : r.pickup.inRange = true)
    (hdestination : ∀ p ∈ r.destination, p.inRange = true)
    (h : s.insertRide r = .ok (true, s')) : s'.HasRide r := by
  obtain ⟨-, hfree, -, rfl⟩ := insertRide_applied h
  exact ⟨RideRow.ofRide r, ride?_of_added rfl hfree rfl,
    RideRow.shows_ofRide hpickup hdestination⟩

/-- A ride that was stored as it took a step is there. -/
theorem hasRide_of_advanceRide {old r : Ride}
    (hold : s.findRide old.id = .ok (some old)) (hstep : old.StepsTo r)
    (h : s.advanceRide r old.status = .ok (true, s')) : s'.HasRide r := by
  obtain ⟨row, hrow, hread⟩ := findRide_eq_some.1 hold
  obtain ⟨found, hfound, -, -, rfl⟩ := changeRide_applied h
  rw [hstep.id_eq, hrow] at hfound
  cases hfound
  obtain ⟨-, hid⟩ := mem_of_ride? hrow
  exact hasRide_putRide (hid.symm ▸ hrow)
    ((RideRow.shows_of_read hread).advanced hstep)

/-- A ride that was assigned as it was there is there with its driver. -/
theorem HasRide.assigned {old r : Ride} {d : Driver} {at_ : Instant}
    (h : s.HasRide old) (haccept : old.accept d.id at_ = .ok r)
    (hwrite : s.assignRide r d = .ok (true, s')) :
    s'.HasRide r := by
  obtain ⟨row, hrow, hshows⟩ := h
  obtain ⟨driver, ride, -, -, -, hride, -, -, rfl⟩ := assignRide_applied hwrite
  have hid : r.id = old.id := by rw [(Ride.accept_eq_ok.1 haccept).2]
  rw [hid, hrow] at hride
  cases hride
  obtain ⟨-, hrowId⟩ := mem_of_ride? hrow
  have hfound : (s.putDriver (driver.withStatus d.status d.updatedAt)).ride?
      (row.assigned r d.id).id = some row := hrowId.symm ▸ hrow
  exact hasRide_putRide hfound (hshows.assigned haccept)

end Store

end Ridehail
