import Ridehail.Geo.Point

/-!
# Distances and boxes

Distances are great-circle distances on a sphere. A store query looks at a box
of latitudes and longitudes around a centre first, so the box has to hold the
circle it stands for; near a pole or the antimeridian it spans every longitude.
-/

namespace Ridehail

/-- The radius of the sphere in kilometres. -/
def earthRadiusKm : Float := 6371.0

/-- Degrees in radians. -/
def radians (degrees : Float) : Float :=
  degrees * (3.14159265358979323846 / 180.0)

/-- The great-circle distance between two points, by the haversine formula,
where `atan2` gives the angle of a direction in the plane. -/
def haversineWith (atan2 : Float → Float → Float) (a b : GeoPoint) : Float :=
  let latA := radians a.lat
  let latB := radians b.lat
  let sinLat := (radians (b.lat - a.lat) * 0.5).sin
  let sinLng := (radians (b.lng - a.lng) * 0.5).sin
  let h := sinLat * sinLat + latA.cos * latB.cos * sinLng * sinLng
  let angle := 2.0 * atan2 h.sqrt (1.0 - h).sqrt
  earthRadiusKm * angle

/-- The great-circle distance between two points. -/
def haversineKm (a b : GeoPoint) : Float := haversineWith Float.atan2 a b

/-- A closed box of latitudes and longitudes. -/
structure GeoBox where
  minLat : Float
  maxLat : Float
  minLng : Float
  maxLng : Float
  deriving DecidableEq, Repr, Inhabited

namespace GeoBox

/-- The kilometres of one degree of latitude. -/
def kmPerDegree : Float := 111.0

/-- A box around the circle of `radiusKm` about `center`. -/
def around (center : GeoPoint) (radiusKm : Float) : GeoBox :=
  let latDelta := radiusKm / kmPerDegree
  let cosLat := Double.larger (radians center.lat).cos.abs 1e-6
  let lngDelta := radiusKm / (kmPerDegree * cosLat)
  let minLat := Double.larger (center.lat - latDelta) (-90.0)
  let maxLat := Double.smaller (center.lat + latDelta) 90.0
  let minLng := center.lng - lngDelta
  let maxLng := center.lng + lngDelta
  if minLng < -180.0 || maxLng > 180.0 || minLat ≤ -90.0 || maxLat ≥ 90.0 then
    ⟨minLat, maxLat, -180.0, 180.0⟩
  else ⟨minLat, maxLat, minLng, maxLng⟩

/-- Whether a latitude and longitude lie in the box. -/
def holds (box : GeoBox) (lat lng : Float) : Bool :=
  box.minLat ≤ lat && lat ≤ box.maxLat && box.minLng ≤ lng && lng ≤ box.maxLng

/-- Whether a point lies in the box. -/
def contains (box : GeoBox) (p : GeoPoint) : Bool := box.holds p.lat p.lng

end GeoBox

end Ridehail
