import Ridehail.Proofs.Geo.Zeros
import Ridehail.Proofs.Ride.Id
import Ridehail.Store.Columns

/-!
# Records decoded from their columns

The columns of a row are written by position and read by name, and between the
two there are texts for identifiers, statuses and amounts, two columns for a
point, and a list of columns of its own for what a later step of a ride writes.
The lemmas of this module show that reading undoes writing, column by column, so
that a table of columns answers as the rows do.

What is left is what a row does not keep of a record.  That is the sign of a
zero among the coordinates, which `GeoPoint.Plain` excludes, and the trailing
zeros of a fare, which `Ride.StoredAs` allows for.  All other fields are read as
they were written.

## Main results

* `RideRow.ride_columns`, `DriverRow.driver_columns` — columns are read as the
  row is.
* `Store.selectRide_rideTable`, `Store.selectRide_updateRides`,
  `Store.selectDriver_driverTable` — tables of columns, also after a later step.
* `RideRow.read_advanced` — what is read after a step was stored, whatever the
  row was before.
* `Store.records_decode` — records that were stored are found as they were
  given.
-/

namespace Ridehail

/-! ## Single columns -/

/-- A value that may be absent is read from its cell. -/
theorem Cell.orNull_ofOption {α : Type} {cell : α → Cell}
    {value? : Cell → Option α}
    (hvalue : ∀ x, orNull value? (cell x) = some (some x)) (x : Option α) :
    orNull value? (ofOption cell x) = some x := by
  cases x with
  | none => rfl
  | some x => exact hvalue x

namespace Columns

variable {α : Type} {columns : Columns} {value? : Cell → Option α}
  {name : String}

/-- A column is read from the cell of its name. -/
theorem value_of_lookup {cell : Cell} {v : α}
    (hlookup : columns.lookup name = some cell)
    (hvalue : value? cell = some v) : columns.value value? name = .ok v := by
  rw [value, hlookup, Option.bind_some, hvalue]

theorem optional_of_lookup {cell : α → Cell} {v : Option α}
    (hlookup : columns.lookup name = some (.ofOption cell v))
    (hvalue : ∀ x, Cell.orNull value? (cell x) = some (some x)) :
    columns.value (Cell.orNull value?) name = .ok v :=
  value_of_lookup hlookup (Cell.orNull_ofOption hvalue v)

/-- What follows a column that was read. -/
theorem ok_bind {β : Type} (v : α) (next : α → Except ColumnFault β) :
    ((.ok v : Except ColumnFault α) >>= next) = next v := rfl

end Columns

/-! ## Rows -/

/-- A ride is read from its columns as from its row. -/
theorem RideRow.ride_columns (row : RideRow) :
    row.columns.ride = row.read.mapError .refused := by
  have hid : row.columns.value Cell.text? "id" = .ok row.id.text := rfl
  have hrider : row.columns.value Cell.text? "rider_id" = .ok row.rider := rfl
  have hdriver : row.columns.value (Cell.orNull Cell.text?) "driver_id" =
      .ok row.driver :=
    Columns.optional_of_lookup rfl fun _ => rfl
  have hpickupLat : row.columns.value Cell.real? "pickup_lat" =
      .ok row.pickupLat := rfl
  have hpickupLng : row.columns.value Cell.real? "pickup_lng" =
      .ok row.pickupLng := rfl
  have hlat : row.columns.value (Cell.orNull Cell.real?) "destination_lat" =
      .ok row.destinationLat := Columns.optional_of_lookup rfl fun _ => rfl
  have hlng : row.columns.value (Cell.orNull Cell.real?) "destination_lng" =
      .ok row.destinationLng := Columns.optional_of_lookup rfl fun _ => rfl
  have hstatus : row.columns.value Cell.text? "status" = .ok row.status.name :=
    rfl
  have hfare : row.columns.value (Cell.orNull Cell.text?) "fare_amount" =
      .ok row.fare :=
    Columns.optional_of_lookup rfl fun _ => rfl
  have hestimate : row.columns.value (Cell.orNull Cell.integer?)
      "estimated_duration_minutes" =
      .ok row.estimateMinutes := Columns.optional_of_lookup rfl fun _ => rfl
  have hcreated : row.columns.value Cell.instant? "created_at_ms" =
      .ok row.createdAt := rfl
  have haccepted :
      row.columns.value (Cell.orNull Cell.instant?) "accepted_at_ms" =
      .ok row.acceptedAt := Columns.optional_of_lookup rfl fun _ => rfl
  have hstarted :
      row.columns.value (Cell.orNull Cell.instant?) "started_at_ms" =
      .ok row.startedAt := Columns.optional_of_lookup rfl fun _ => rfl
  have hcompleted :
      row.columns.value (Cell.orNull Cell.instant?) "completed_at_ms" =
      .ok row.completedAt := Columns.optional_of_lookup rfl fun _ => rfl
  have hcancelled :
      row.columns.value (Cell.orNull Cell.instant?) "cancelled_at_ms" =
      .ok row.cancelledAt := Columns.optional_of_lookup rfl fun _ => rfl
  have hupdated : row.columns.value Cell.instant? "updated_at_ms" =
      .ok row.updatedAt := rfl
  unfold Columns.ride read
  simp only [hid, hrider, hdriver, hpickupLat, hpickupLng, hlat, hlng, hstatus,
    hfare, hestimate, hcreated, haccepted, hstarted, hcompleted, hcancelled,
    hupdated, Columns.ok_bind,
    Columns.meaning, RideId.read?_text, RideStatus.ofName?_name]
  -- Both now read the same points and the same amount, in the same order.
  rw [pointOfColumns]
  cases GeoPoint.make row.pickupLat row.pickupLng with
  | error fault => rfl
  | ok pickup =>
      cases hpoint : pointOfColumns row.destinationLat row.destinationLng with
      | error fault => rfl
      | ok destination => cases amountOfColumn row.fare <;> rfl

/-- A driver is read from their columns as from their row. -/
theorem DriverRow.driver_columns (row : DriverRow) :
    row.columns.driver = row.read.mapError .refused := by
  have hid : row.columns.value Cell.text? "id" = .ok row.id := rfl
  have hname : row.columns.value Cell.text? "name" = .ok row.name := rfl
  have hphone : row.columns.value (Cell.orNull Cell.text?) "phone" =
      .ok row.phone :=
    Columns.optional_of_lookup rfl fun _ => rfl
  have hplate : row.columns.value (Cell.orNull Cell.text?) "license_plate" =
      .ok row.licensePlate := Columns.optional_of_lookup rfl fun _ => rfl
  have hvehicle : row.columns.value Cell.text? "vehicle_type" =
      .ok row.vehicleType.name := rfl
  have hlat : row.columns.value (Cell.orNull Cell.real?) "lat" = .ok row.lat :=
    Columns.optional_of_lookup rfl fun _ => rfl
  have hlng : row.columns.value (Cell.orNull Cell.real?) "lng" = .ok row.lng :=
    Columns.optional_of_lookup rfl fun _ => rfl
  have hping :
      row.columns.value (Cell.orNull Cell.instant?) "last_location_update_ms" =
      .ok row.lastPing := Columns.optional_of_lookup rfl fun _ => rfl
  have hstatus : row.columns.value Cell.text? "status" = .ok row.status.name :=
    rfl
  have hcreated : row.columns.value Cell.instant? "created_at_ms" =
      .ok row.createdAt := rfl
  have hupdated : row.columns.value Cell.instant? "updated_at_ms" =
      .ok row.updatedAt := rfl
  unfold Columns.driver read
  simp only [hid, hname, hphone, hplate, hvehicle, hlat, hlng, hping, hstatus,
    hcreated, hupdated, Columns.ok_bind, Columns.meaning,
    VehicleType.ofName?_name, DriverStatus.ofName?_name]
  cases pointOfColumns row.lat row.lng <;> rfl

/-- The columns that a step writes are those in which the row differs. -/
theorem RideRow.columns_advanced (row : RideRow) (r : Ride) :
    (row.advanced r).columns = row.columns.set r.changes := rfl

/-! ## Tables -/

theorem RideId.text_inj {a b : RideId} : a.text = b.text ↔ a = b := by
  refine ⟨fun h => ?_, congrArg text⟩
  have hread : read? a.text = some b := by rw [h, read?_text]
  rw [read?_text] at hread
  exact Option.some.inj hread

theorem RideStatus.name_inj {a b : RideStatus} : a.name = b.name ↔ a = b := by
  refine ⟨fun h => ?_, congrArg name⟩
  have hread : ofName? a.name = some b := by rw [h, ofName?_name]
  rw [ofName?_name] at hread
  exact Option.some.inj hread

namespace RideRow

variable {row : RideRow}

/-- The column of the identifier decides as the identifier does. -/
theorem lookup_id {id : RideId} :
    row.columns.lookup "id" = some (.text id.text) ↔ row.id = id := by
  show some (Cell.text row.id.text) = some (.text id.text) ↔ _
  rw [Option.some.injEq, Cell.text.injEq, RideId.text_inj]

theorem lookup_status {status : RideStatus} :
    row.columns.lookup "status" = some (.text status.name) ↔
      row.status = status := by
  show some (Cell.text row.status.name) = some (.text status.name) ↔ _
  rw [Option.some.injEq, Cell.text.injEq, RideStatus.name_inj]

end RideRow

theorem DriverRow.lookup_id {row : DriverRow} {id : DriverId} :
    row.columns.lookup "id" = some (.text id) ↔ row.id = id := by
  show some (Cell.text row.id) = some (.text id) ↔ _
  rw [Option.some.injEq, Cell.text.injEq]

namespace Store

variable {s s' : Store}

/-- A table of columns finds the ride that the rows find. -/
theorem selectRide_rideTable (s : Store) (id : RideId) :
    selectRide s.rideTable id = (s.findRide id).mapError .refused := by
  unfold selectRide rideTable findRide ride?
  simp only [List.find?_map, Function.comp_def, RideRow.lookup_id]
  cases s.rides.find? (·.id = id) with
  | none => rfl
  | some row =>
      show row.columns.ride.map some = (row.read.map some).mapError .refused
      rw [RideRow.ride_columns]
      cases row.read <;> rfl

theorem selectDriver_driverTable (s : Store) (id : DriverId) :
    selectDriver s.driverTable id = (s.findDriver id).mapError .refused := by
  unfold selectDriver driverTable findDriver driver?
  simp only [List.find?_map, Function.comp_def, DriverRow.lookup_id]
  cases s.drivers.find? (·.id = id) with
  | none => rfl
  | some row =>
      show row.columns.driver.map some = (row.read.map some).mapError .refused
      rw [DriverRow.driver_columns]
      cases row.read <;> rfl

/-- A step that is written to a table of columns changes the rows that the step
is for. -/
theorem updateRides_rideTable (s : Store) (r : Ride) (expected : RideStatus) :
    updateRides s.rideTable r expected =
      rideTable { s with rides := s.rides.map fun row =>
        if row.id = r.id ∧ row.status = expected then row.advanced r
        else row } := by
  unfold updateRides rideTable
  rw [List.map_map, List.map_map]
  apply List.map_congr_left
  intro row _
  simp only [Function.comp_apply, RideRow.lookup_id, RideRow.lookup_status]
  split
  · exact (row.columns_advanced r).symm
  · rfl

/-- A ride that was added is in the table of columns behind the others. -/
theorem rideTable_of_insertRide {r : Ride}
    (h : s.insertRide r = .ok (true, s')) :
    s.rideTable ++ [(RideRow.ofRide r).columns] = s'.rideTable := by
  obtain ⟨-, -, -, rfl⟩ := insertRide_applied h
  rw [rideTable, rideTable, List.map_append, List.map_singleton]

theorem driverTable_of_insertDriver {d : Driver}
    (h : s.insertDriver d = .ok (true, s')) :
    s.driverTable ++ [(DriverRow.ofDriver d).columns] = s'.driverTable := by
  obtain ⟨-, -, rfl⟩ := insertDriver_applied h
  rw [driverTable, driverTable, List.map_append, List.map_singleton]

/-- After a step was stored, the row that was found is the one that it was
written into. -/
theorem ride?_of_advanceRide {r : Ride} {expected : RideStatus}
    (h : s.advanceRide r expected = .ok (true, s')) :
    ∃ row, s.ride? r.id = some row ∧ row.id = r.id ∧ row.status = expected ∧
      s'.ride? r.id = some (row.advanced r) := by
  obtain ⟨row, hrow, hstatus, -, rfl⟩ := changeRide_applied h
  obtain ⟨-, hid⟩ := mem_of_ride? hrow
  refine ⟨row, hrow, hid, of_decide_eq_true hstatus, ?_⟩
  rw [← hid]
  exact ride?_putRide_self (hid.symm ▸ hrow)

/-- A table of columns finds the ride that the rows find after a step was
stored. -/
theorem selectRide_updateRides {r : Ride} {expected : RideStatus}
    (h : s.advanceRide r expected = .ok (true, s')) :
    selectRide (updateRides s.rideTable r expected) r.id =
      (s'.findRide r.id).mapError .refused := by
  obtain ⟨row, hrow, hid, hstatus, hnext⟩ := ride?_of_advanceRide h
  -- With an identifier that occurs twice the two differ, but not in the row
  -- that is found.
  have hkept (other : RideRow) :
      (if other.id = r.id ∧ other.status = expected then
      other.advanced r else other).id = other.id := by
    split
    · rfl
    · rfl
  have hwritten : ride? { s with rides := s.rides.map fun other =>
      if other.id = r.id ∧ other.status = expected then other.advanced r
      else other } r.id =
        some (row.advanced r) := by
    unfold ride? at hrow ⊢
    simp only [List.find?_map, Function.comp_def, hkept]
    rw [hrow, Option.map_some, if_pos ⟨hid, hstatus⟩]
  rw [updateRides_rideTable, selectRide_rideTable, findRide, hwritten,
    findRide, hnext]

end Store

/-! ## Records -/

/-- A point in range, none of whose coordinates is a zero with a sign. -/
structure GeoPoint.Plain (p : GeoPoint) : Prop where
  inRange : p.inRange = true
  lat_ne : p.lat ≠ -0.0
  lng_ne : p.lng ≠ -0.0

/-- The same ride, for numerically the same fare. -/
def Ride.StoredAs (r stored : Ride) : Prop :=
  Option.Rel (fun a b => Decimal.same a b = true) r.fare stored.fare ∧
    stored = { r with fare := stored.fare }

theorem GeoPoint.Plain.stored_eq {p : GeoPoint} (h : p.Plain) :
    p.stored = p := by
  rw [GeoPoint.stored, storedDouble_eq_self h.lat_ne,
    storedDouble_eq_self h.lng_ne]

/-- A plain point or none is read from its columns as it was. -/
theorem pointOfColumns_of_plain {location : Option GeoPoint}
    (h : ∀ p ∈ location, p.Plain) :
    pointOfColumns (location.bind (coordinateColumn ·.lat))
      (location.bind (coordinateColumn ·.lng)) = .ok location := by
  rw [pointOfColumns_of_inRange fun p hp => (h p hp).inRange]
  cases location with
  | none => rfl
  | some p => rw [Option.map_some, (h p rfl).stored_eq]

/-- A driver is read from their row as they were. -/
theorem DriverRow.read_ofDriver_of_plain {d : Driver}
    (h : ∀ p ∈ d.location, p.Plain) :
    (ofDriver d).read = .ok d :=
  read_eq_ok.2 ⟨d.location, pointOfColumns_of_plain h, rfl⟩

namespace RideRow

variable {row : RideRow} {r : Ride}

/-- A row into which a ride was stored gives that ride, with what the row
keeps. -/
theorem read_advanced {pickup : GeoPoint} {destination : Option GeoPoint}
    (hpickup : GeoPoint.make row.pickupLat row.pickupLng = .ok pickup)
    (hdestination : pointOfColumns row.destinationLat row.destinationLng =
      .ok destination)
    (hid : row.id = r.id) :
    ∃ stored, (row.advanced r).read = .ok stored ∧
      Ride.StoredAs { r with
        rider := row.rider, pickup, destination, createdAt := row.createdAt }
        stored := by
  obtain ⟨fare, hfare, hsame⟩ := amountOfColumn_text r.fare
  refine ⟨(row.advanced r).toRide pickup destination fare,
    read_eq_ok_iff.2 ⟨pickup, destination, fare, hpickup, hdestination, hfare,
      rfl⟩, hsame, ?_⟩
  rw [← hid]
  rfl

/-- A ride is read from its row as it was. -/
theorem read_ofRide_of_plain (hpickup : r.pickup.Plain)
    (hdestination : ∀ p ∈ r.destination, p.Plain) :
    ∃ stored, (ofRide r).read = .ok stored ∧ r.StoredAs stored := by
  have hrow : GeoPoint.make (ofRide r).pickupLat (ofRide r).pickupLng =
      .ok r.pickup := by
    obtain ⟨-, -, hmake⟩ := GeoPoint.columns_of_inRange hpickup.inRange
    exact hmake.trans (congrArg Except.ok hpickup.stored_eq)
  have hself : (ofRide r).advanced r = ofRide r := rfl
  rw [← hself]
  exact read_advanced hrow (pointOfColumns_of_plain hdestination) rfl

end RideRow

namespace Store

variable {s s' : Store}

/-- A ride that was added is found. -/
theorem findRide_of_insertRide {r : Ride} (hpickup : r.pickup.Plain)
    (hdestination : ∀ p ∈ r.destination, p.Plain)
    (h : s.insertRide r = .ok (true, s')) :
    ∃ stored, r.StoredAs stored ∧ s'.findRide r.id = .ok (some stored) := by
  obtain ⟨-, hfree, -, rfl⟩ := insertRide_applied h
  obtain ⟨stored, hread, hstored⟩ :=
    RideRow.read_ofRide_of_plain hpickup hdestination
  exact ⟨stored, hstored,
    findRide_eq_some.2 ⟨RideRow.ofRide r, ride?_of_added rfl hfree rfl, hread⟩⟩

/-- A driver who was added is found. -/
theorem findDriver_of_insertDriver {d : Driver}
    (hlocation : ∀ p ∈ d.location, p.Plain)
    (h : s.insertDriver d = .ok (true, s')) :
    s'.findDriver d.id = .ok (some d) := by
  obtain ⟨-, hfree, rfl⟩ := insertDriver_applied h
  exact findDriver_eq_some.2 ⟨DriverRow.ofDriver d,
    driver?_of_added rfl hfree rfl, DriverRow.read_ofDriver_of_plain hlocation⟩

/-- A ride that a step was stored for is found, with what its row keeps. -/
theorem findRide_of_advanceRide {r : Ride} {expected : RideStatus}
    {row : RideRow} {pickup : GeoPoint} {destination : Option GeoPoint}
    (hrow : s.ride? r.id = some row)
    (hpickup : GeoPoint.make row.pickupLat row.pickupLng = .ok pickup)
    (hdestination : pointOfColumns row.destinationLat row.destinationLng =
      .ok destination)
    (h : s.advanceRide r expected = .ok (true, s')) :
    ∃ stored, Ride.StoredAs
        { r with
          rider := row.rider, pickup, destination, createdAt := row.createdAt }
          stored ∧
      s'.findRide r.id = .ok (some stored) := by
  obtain ⟨found, hfound, hid, -, hnext⟩ := ride?_of_advanceRide h
  rw [hrow] at hfound
  cases hfound
  obtain ⟨stored, hread, hstored⟩ :=
    RideRow.read_advanced hpickup hdestination hid
  exact ⟨stored, hstored, findRide_eq_some.2 ⟨row.advanced r, hnext, hread⟩⟩

/-- Records that were stored are found as they were given, in the rows and in a
table of columns alike: a ride and a driver that were added, and a ride that a
later step was stored for, which keeps what its row said of its request. -/
theorem records_decode (s s' : Store) :
    (∀ r : Ride, r.pickup.Plain → (∀ p ∈ r.destination, p.Plain) →
      s.insertRide r = .ok (true, s') →
      ∃ stored, r.StoredAs stored ∧ s'.findRide r.id = .ok (some stored) ∧
        selectRide (s.rideTable ++ [(RideRow.ofRide r).columns]) r.id =
          .ok (some stored)) ∧
    (∀ d : Driver, (∀ p ∈ d.location, p.Plain) →
      s.insertDriver d = .ok (true, s') →
      s'.findDriver d.id = .ok (some d) ∧
        selectDriver (s.driverTable ++ [(DriverRow.ofDriver d).columns]) d.id =
          .ok (some d)) ∧
    ∀ (r : Ride) (expected : RideStatus) (row : RideRow) (pickup : GeoPoint)
      (destination : Option GeoPoint), s.ride? r.id = some row →
      GeoPoint.make row.pickupLat row.pickupLng = .ok pickup →
      pointOfColumns row.destinationLat row.destinationLng = .ok destination →
      s.advanceRide r expected = .ok (true, s') →
      ∃ stored, Ride.StoredAs
          { r with
            rider := row.rider, pickup, destination,
            createdAt := row.createdAt } stored ∧
        s'.findRide r.id = .ok (some stored) ∧
          selectRide (updateRides s.rideTable r expected) r.id =
            .ok (some stored) := by
  refine ⟨?_, ?_, ?_⟩
  · intro r hpickup hdestination h
    obtain ⟨stored, hstored, hfind⟩ :=
      findRide_of_insertRide hpickup hdestination h
    refine ⟨stored, hstored, hfind, ?_⟩
    rw [rideTable_of_insertRide h, selectRide_rideTable, hfind]
    rfl
  · intro d hlocation h
    have hfind := findDriver_of_insertDriver hlocation h
    refine ⟨hfind, ?_⟩
    rw [driverTable_of_insertDriver h, selectDriver_driverTable, hfind]
    rfl
  · intro r expected row pickup destination hrow hpickup hdestination h
    obtain ⟨stored, hstored, hfind⟩ :=
      findRide_of_advanceRide hrow hpickup hdestination h
    refine ⟨stored, hstored, hfind, ?_⟩
    rw [selectRide_updateRides h, hfind]
    rfl

namespace Example

/-- A ride on its way, for a fare that ends in a zero. -/
def trip : Ride :=
  { Ride.request ⟨7⟩ "a" ⟨40.5, -70.25⟩ (some ⟨0.0, 12.5⟩) ⟨3⟩ with
    status := .inProgress, fare := some (Decimal.cents 1250),
    startedAt := some ⟨5⟩ }

/-- The ride at its end, for another fare. -/
def ended : Ride :=
  { trip with
    status := .completed, fare := some (Decimal.cents 1300),
    completedAt := some ⟨9⟩ }

/-- A driver who waits where the ride begins. -/
def parked : Driver :=
  (Driver.register "d" "Dana" ⟨0⟩).locate ⟨40.5, -70.25⟩ ⟨1⟩

/-- The store with the driver in it. -/
def waiting : Store := { drivers := [DriverRow.ofDriver parked] }

/-- The store with the ride in it. -/
def riding : Store := { rides := [RideRow.ofRide trip] }

/-- The store with the ride at its end. -/
def arrived : Store := { rides := [(RideRow.ofRide trip).advanced ended] }

end Example

/-- A ride that is added and then ends, and a driver who is added. -/
theorem records_decode_trip :
    (∃ stored, Example.trip.StoredAs stored ∧
      Example.riding.findRide Example.trip.id = .ok (some stored)) ∧
    Example.waiting.findDriver Example.parked.id = .ok (some Example.parked) ∧
    ∃ stored, Example.ended.StoredAs stored ∧
      Example.arrived.findRide Example.ended.id = .ok (some stored) := by
  have hpickup : (⟨40.5, -70.25⟩ : GeoPoint).Plain :=
    ⟨by decide, by decide, by decide⟩
  have hdestination : (⟨0.0, 12.5⟩ : GeoPoint).Plain :=
    ⟨by decide, by decide, by decide⟩
  obtain ⟨hadded, -⟩ := records_decode empty Example.riding
  obtain ⟨-, hregistered, -⟩ := records_decode empty Example.waiting
  obtain ⟨-, -, hadvanced⟩ := records_decode Example.riding Example.arrived
  obtain ⟨ride, hride, hfound, -⟩ := hadded Example.trip hpickup
    (fun p hp => by cases hp; exact hdestination) rfl
  obtain ⟨hdriver, -⟩ :=
    hregistered Example.parked (fun p hp => by cases hp; exact hpickup) rfl
  obtain ⟨last, hlast, hend, -⟩ :=
    hadvanced Example.ended .inProgress (RideRow.ofRide Example.trip) _ _
      rfl rfl rfl rfl
  exact ⟨⟨ride, hride, hfound⟩, hdriver, last, hlast, hend⟩

end Store

end Ridehail
