import Ridehail.Failure
import Ridehail.Ride.Record
import Ridehail.Selection

/-!
# The driver index

An index knows where drivers are and finds those near a point. It is a service
of its own: any call may fail, and what it reports is only a snapshot.

## Main definitions

* `IndexedDriver` — what an index knows of a driver.
* `DriverIndex` — the operations of an index whose state is `σ`.
-/

namespace Ridehail

/-- What an index knows of a driver. -/
structure IndexedDriver where
  driver : DriverId
  location : GeoPoint
  status : DriverStatus
  updatedAt : Instant
  deriving DecidableEq, Repr, Inhabited

/-- The operations of an index with states in `σ`; a failing call may change the
state like any other. -/
class DriverIndex (σ : Type) where
  /-- Up to `count` available drivers within `radiusKm` of a point. -/
  nearest (p : GeoPoint) (count : Nat) (radiusKm : Float) :
    σ → Except IndexError (List Candidate) × σ
  /-- Records where a driver is and what it does. -/
  put (now : Instant) (driver : DriverId) (p : GeoPoint)
    (status : DriverStatus) :
    σ → Except IndexError Bool × σ
  /-- Forgets a driver; tells whether it was known. -/
  remove (driver : DriverId) : σ → Except IndexError Bool × σ
  /-- What is known of a driver. -/
  find (driver : DriverId) : σ → Except IndexError (Option IndexedDriver) × σ

/-- An indexed driver as JSON. -/
def IndexedDriver.toJson (d : IndexedDriver) : Json :=
  .object
    [ ("driverId", .string d.driver),
      ("location", d.location.toJson),
      ("status", d.status.toJson),
      ("updatedAt", d.updatedAt.toJson) ]

/-- The fields of an indexed driver. -/
def IndexedDriver.record : RecordDecoder IndexedDriver :=
  IndexedDriver.mk <$> .required "driverId" Decoder.text
    <*> .required "location" GeoPoint.record.decode
    <*> .required "status" DriverStatus.decoder
    <*> .required "updatedAt" Instant.decoder

/-- A candidate as JSON. -/
def Candidate.toJson (c : Candidate) : Json :=
  .object
    [ ("driverId", .string c.driver),
      ("distanceKm", .ofFloat c.distanceKm.value),
      ("status", c.status.toJson) ]

/-- The fields of a candidate. -/
def Candidate.record : RecordDecoder Candidate :=
  (fun driver distanceKm status =>
    { driver, distanceKm := (distanceKm : Float), status })
    <$> .required "driverId" Decoder.text
    <*> .required "distanceKm" Decoder.float
    <*> .required "status" DriverStatus.decoder

end Ridehail
