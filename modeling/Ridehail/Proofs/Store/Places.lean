import Ridehail.Store.Row

/-!
# The places of drivers

A driver's place takes two columns.  Both may be empty, and whatever they hold
is checked only when the row is read.  This module ties the columns to what is
read from them: a point in range is stored so that it can be read again, and a
row whose columns are filled and can be read has a place.

## Main results

* `DriverRow.read_eq_ok` — reading a row fails only because of its place.
* `DriverRow.placedAt_located` — a ping gives a driver a place.
* `DriverRow.placedAt_of_available` — an available driver has a place.
-/

namespace Ridehail

/-! ## Points in columns -/

theorem isNaN_of_isFinite {x : Float} (h : x.isFinite = true) :
    x.isNaN = false := by
  have hmodel : x.toModel.unpack.isFinite = true := h
  show x.toModel.unpack.isNaN = false
  cases hunpack : x.toModel.unpack with
  | notANumber =>
      rw [hunpack] at hmodel
      cases hmodel
  | _ => rfl

theorem GeoPoint.isNaN_of_within {bound x : Float} (h : within bound x = true) :
    x.isNaN = false := by
  rw [within, Bool.and_eq_true, Bool.and_eq_true] at h
  exact isNaN_of_isFinite h.1.1

/-- Storing a coordinate keeps it in range. -/
theorem GeoPoint.within_storedDouble {bound x : Float}
    (hzero : within bound 0.0 = true) (h : within bound x = true) :
    within bound (storedDouble x) = true := by
  unfold storedDouble
  split
  · exact hzero
  · exact h

/-- A point in range is stored in two columns, which are in range. -/
theorem GeoPoint.columns_of_inRange {p : GeoPoint} (h : p.inRange = true) :
    coordinateColumn p.lat = some (storedDouble p.lat) ∧
      coordinateColumn p.lng = some (storedDouble p.lng) ∧
        GeoPoint.make (storedDouble p.lat) (storedDouble p.lng) =
          .ok ⟨storedDouble p.lat, storedDouble p.lng⟩ := by
  obtain ⟨hlat, hlng⟩ := Bool.and_eq_true_iff.1 h
  refine ⟨?_, ?_, ?_⟩
  · rw [coordinateColumn, isNaN_of_within hlat, if_neg Bool.false_ne_true]
  · rw [coordinateColumn, isNaN_of_within hlng, if_neg Bool.false_ne_true]
  · rw [make_eq_ok_iff]
    refine ⟨rfl, Bool.and_eq_true_iff.2 ⟨?_, ?_⟩⟩
    · exact within_storedDouble (by decide) hlat
    · exact within_storedDouble (by decide) hlng

namespace DriverRow

/-- The record of a row, apart from where the driver is. -/
def toDriver (row : DriverRow) (location : Option GeoPoint) : Driver :=
  { id := row.id, name := row.name, phone := row.phone,
    licensePlate := row.licensePlate, vehicleType := row.vehicleType, location,
    lastPing := row.lastPing, status := row.status,
    createdAt := row.createdAt, updatedAt := row.updatedAt }

/-- The row has a place, which can be read. -/
def PlacedAt (row : DriverRow) (p : GeoPoint) : Prop :=
  pointOfColumns row.lat row.lng = .ok (some p)

/-- The row can be read. -/
def Readable (row : DriverRow) : Prop :=
  ∃ location, pointOfColumns row.lat row.lng = .ok location

variable {row : DriverRow} {d : Driver}

theorem read_eq_ok :
    row.read = .ok d ↔
      ∃ location, pointOfColumns row.lat row.lng = .ok location ∧
        d = row.toDriver location := by
  show (pointOfColumns row.lat row.lng >>= fun location =>
    pure (row.toDriver location)) = _ ↔ _
  cases pointOfColumns row.lat row.lng with
  | error fault => simp [bind, Except.bind]
  | ok location => simp [bind, Except.bind, pure, Except.pure, eq_comm]

/-- A driver with a place is read with it. -/
theorem PlacedAt.read_eq {p : GeoPoint} (h : row.PlacedAt p) :
    row.read = .ok (row.toDriver (some p)) :=
  read_eq_ok.2 ⟨some p, h, rfl⟩

theorem PlacedAt.readable {p : GeoPoint} (h : row.PlacedAt p) :
    row.Readable := ⟨some p, h⟩

/-- A ping from a point in range gives the driver a place. -/
theorem placedAt_located (row : DriverRow) {p : GeoPoint}
    (hp : p.inRange = true) (at_ : Instant) :
    (row.located p at_).PlacedAt ⟨storedDouble p.lat, storedDouble p.lng⟩ := by
  obtain ⟨hlat, hlng, hmake⟩ := GeoPoint.columns_of_inRange hp
  show pointOfColumns (coordinateColumn p.lat) (coordinateColumn p.lng) = _
  rw [hlat, hlng, pointOfColumns, hmake]
  rfl

/-- A row that can be read and has both columns filled has a place. -/
theorem placedAt_of_filled (h : row.Readable) (hlat : row.lat.isSome = true)
    (hlng : row.lng.isSome = true) : ∃ p, row.PlacedAt p := by
  obtain ⟨location, hlocation⟩ := h
  obtain ⟨lat, hlat⟩ := Option.isSome_iff_exists.1 hlat
  obtain ⟨lng, hlng⟩ := Option.isSome_iff_exists.1 hlng
  rw [hlat, hlng, pointOfColumns] at hlocation
  cases hmake : (GeoPoint.make lat lng).mapError StoreFault.badCoordinate with
  | error fault =>
      rw [hmake] at hlocation
      cases hlocation
  | ok p =>
      refine ⟨p, ?_⟩
      rw [PlacedAt, hlat, hlng, pointOfColumns, hmake]
      rfl

/-- A row with a place has both columns filled, so it may be stored with any
status. -/
theorem PlacedAt.permitted {p : GeoPoint} (h : row.PlacedAt p) :
    row.permitted = true := by
  rw [PlacedAt] at h
  unfold pointOfColumns at h
  split at h
  · rename_i lat lng hlat hlng
    simp [DriverRow.permitted, hlat, hlng]
  · cases h

theorem placedAt_of_available (h : row.Readable)
    (hpermitted : row.permitted = true) (hstatus : row.status = .available) :
    ∃ p, row.PlacedAt p := by
  have hfilled : row.lat.isSome = true ∧ row.lng.isSome = true := by
    simpa [DriverRow.permitted, hstatus] using hpermitted
  exact placedAt_of_filled h hfilled.1 hfilled.2

end DriverRow

end Ridehail
