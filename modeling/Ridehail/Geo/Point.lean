import Ridehail.Double.Printer
import Ridehail.Json.Decoder

/-!
# Coordinates

A point is a latitude and a longitude in degrees. `GeoPoint.make` is the checked
way to get one; records that come from elsewhere carry whatever they carry.

## Main definitions

* `GeoPoint`, `GeoPoint.inRange` — the type and the range of real coordinates.
* `CoordinateError`, `GeoPoint.make` — the check; the latitude is looked at
  first.
-/

namespace Ridehail

/-- A latitude and longitude in degrees. -/
structure GeoPoint where
  lat : Float
  lng : Float
  deriving DecidableEq, Repr, Inhabited

/-- A coordinate outside its range. -/
inductive CoordinateError where
  | latitude (value : Float)
  | longitude (value : Float)
  deriving DecidableEq, Repr

/-- The wording of a refused coordinate. -/
def CoordinateError.message : CoordinateError → String
  | .latitude x => "latitude " ++ Double.shortestText x ++ " outside [-90, 90]"
  | .longitude x =>
      "longitude " ++ Double.shortestText x ++ " outside [-180, 180]"

namespace GeoPoint

/-- Whether `x` is a number between `-bound` and `bound`. -/
def within (bound x : Float) : Bool := x.isFinite && -bound ≤ x && x ≤ bound

/-- Whether both coordinates are finite and in range. -/
def inRange (p : GeoPoint) : Bool := within 90.0 p.lat && within 180.0 p.lng

/-- The point of two coordinates in range. -/
def make (lat lng : Float) : Except CoordinateError GeoPoint :=
  if !within 90.0 lat then .error (.latitude lat)
  else if !within 180.0 lng then .error (.longitude lng)
  else .ok ⟨lat, lng⟩

/-- Exactly the points in range can be made. -/
theorem make_eq_ok_iff (lat lng : Float) (p : GeoPoint) :
    make lat lng = .ok p ↔ p = ⟨lat, lng⟩ ∧ p.inRange = true := by
  unfold make
  split
  · rename_i h
    constructor
    · intro h'; cases h'
    · rintro ⟨rfl, hr⟩
      simp [inRange] at hr
      simp [hr.1] at h
  · split
    · rename_i h
      constructor
      · intro h'; cases h'
      · rintro ⟨rfl, hr⟩
        simp [inRange] at hr
        simp [hr.2] at h
    · rename_i h₁ h₂
      constructor
      · intro h'
        cases h'
        exact ⟨rfl, by
          simp [inRange]; exact ⟨by simpa using h₁, by simpa using h₂⟩⟩
      · rintro ⟨rfl, _⟩; rfl

end GeoPoint

/-! ## As JSON -/

/-- A double as JSON, which has no way to write an infinity or `NaN`. -/
def Json.ofFloat (x : Float) : Json := if x.isFinite then .float x else .null

/-- A point as JSON. -/
def GeoPoint.toJson (p : GeoPoint) : Json :=
  .object [("lat", .ofFloat p.lat), ("lng", .ofFloat p.lng)]

/-- The fields of a point. -/
def GeoPoint.record : RecordDecoder GeoPoint :=
  GeoPoint.mk <$> .required "lat" Decoder.float <*>
    .required "lng" Decoder.float

end Ridehail
