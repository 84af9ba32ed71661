import Ridehail.Geo.Distance
import Ridehail.Index.Basic
import Ridehail.Keyed

/-!
# An index in memory

One entry per driver, the latest one. A query looks at all entries and sorts the
qualifying ones by distance and then by driver, so its answer does not depend on
the order of the entries. The index can be switched to fail every call.
-/

namespace Ridehail

/-- The latest entry of each driver, and whether every call fails. -/
structure MemoryIndex where
  entries : List (DriverId × IndexedDriver) := []
  failing : Bool := false
  deriving Repr, Inhabited

namespace MemoryIndex

/-- The candidate that an entry makes for a query at `p`. -/
def candidate (p : GeoPoint) (e : IndexedDriver) : Candidate :=
  { driver := e.driver, distanceKm := haversineKm p e.location,
    status := e.status }

/-- Nearer, or equally near and with a smaller identifier. -/
def before (a b : Candidate) : Bool :=
  Double.totalLt a.distanceKm b.distanceKm
    || (Double.totalLe a.distanceKm b.distanceKm && !(b.driver < a.driver))

/-- The available entries within the radius, as candidates. -/
def qualifying (p : GeoPoint) (radiusKm : Float)
    (entries : List (DriverId × IndexedDriver)) : List Candidate :=
  ((entries.filter fun pair => pair.2.status = .available).map fun pair =>
    candidate p pair.2).filter fun c => c.distanceKm.value ≤ radiusKm

/-- The first `count` qualifying candidates. -/
def nearestOf (entries : List (DriverId × IndexedDriver)) (p : GeoPoint)
    (count : Nat) (radiusKm : Float) : List Candidate :=
  ((qualifying p radiusKm entries).mergeSort before).take count

/-- A call that fails when the index does, and else answers as `call` says. -/
def guarded {α : Type} (call : MemoryIndex → α × MemoryIndex)
    (i : MemoryIndex) : Except IndexError α × MemoryIndex :=
  if i.failing then (.error (.unavailable "index offline"), i)
  else
    let (answer, next) := call i
    (.ok answer, next)

instance : DriverIndex MemoryIndex where
  nearest p count radiusKm :=
    guarded fun i => (nearestOf i.entries p count radiusKm, i)
  put now driver p status := guarded fun i =>
    (true, { i with
      entries := Keyed.put driver ⟨driver, p, status, now⟩ i.entries })
  remove driver := guarded fun i =>
    ((i.entries.lookup driver).isSome,
      { i with entries := Keyed.erase driver i.entries })
  find driver := guarded fun i => (i.entries.lookup driver, i)

/-- How many drivers are indexed. -/
def size (i : MemoryIndex) : Nat := i.entries.length

end MemoryIndex

end Ridehail
