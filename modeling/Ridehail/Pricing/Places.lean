import Ridehail.Geo.Point
import Ridehail.Pricing.Factors

/-!
# Places that raise demand

Venues draw riders: an airport around the clock, an event venue in the evening.
Dense areas do at all times.

## Main definitions

* `Venue`, `venueFactor` — a live event venue before an airport.
* `DenseArea`, `densityFactor` — any dense area.
-/

namespace Ridehail

/-- When a venue draws riders. -/
inductive VenueKind where
  /-- In the evening. -/
  | event
  /-- Around the clock. -/
  | airport
  deriving DecidableEq, Repr

/-- A venue and the square around it that it fills. -/
structure Venue where
  name : String
  center : GeoPoint
  /-- Half the side of the square in degrees. -/
  halfWidth : Float
  kind : VenueKind
  deriving DecidableEq, Repr

/-- Whether a point lies within a venue's square. -/
def Venue.covers (v : Venue) (p : GeoPoint) : Bool :=
  (p.lat - v.center.lat).abs < v.halfWidth &&
    (p.lng - v.center.lng).abs < v.halfWidth

/-- The factor of the venues around a point at a local time of day. -/
def venueFactor (venues : List Venue) (p : GeoPoint) (t : TimeOfDay) : Float :=
  if venues.any fun v =>
    v.kind = .event && v.covers p && Surge.isEventTime t then 2.5
  else if venues.any fun v => v.kind = .airport && v.covers p then 1.3
  else 1.0

/-- The venues known from the start. -/
def defaultVenues : List Venue :=
  [ { name := "Madison Square Garden", center := ⟨40.7505, -73.9934⟩,
      halfWidth := 0.005, kind := .event },
    { name := "JFK Airport", center := ⟨40.6413, -73.7781⟩, halfWidth := 0.01,
      kind := .airport } ]

/-- A closed rectangle of latitudes and longitudes. -/
structure DenseArea where
  minLat : Float
  maxLat : Float
  minLng : Float
  maxLng : Float
  deriving DecidableEq, Repr

/-- Whether a point lies in the area. -/
def DenseArea.contains (a : DenseArea) (p : GeoPoint) : Bool :=
  p.lat ≥ a.minLat && p.lat ≤ a.maxLat && p.lng ≥ a.minLng && p.lng ≤ a.maxLng

/-- The factor of the density at a point. -/
def densityFactor (areas : List DenseArea) (p : GeoPoint) : Float :=
  if areas.any (·.contains p) then 1.2 else 1.0

/-- The dense areas known from the start. -/
def defaultAreas : List DenseArea := [⟨40.7, 40.8, -74.0, -73.9⟩]

end Ridehail
