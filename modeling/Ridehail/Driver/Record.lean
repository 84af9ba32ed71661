import Ridehail.Driver.Basic
import Ridehail.Json.Decoder

/-!
# Driver records in JSON

How a driver is written, and how a driver and the application of a new one are
read.
-/

namespace Ridehail

/-- A status as JSON. -/
def DriverStatus.toJson (s : DriverStatus) : Json := .string s.name

/-- An instant as JSON. -/
def Instant.toJson (t : Instant) : Json := .int t.ms

/-- Reads an instant. -/
def Instant.decoder : Decoder Instant :=
  fun d => (Decoder.int64 d).map Instant.mk

/-- Reads a driver status. -/
def DriverStatus.decoder : Decoder DriverStatus :=
  Decoder.choice DriverStatus.ofName?

/-- Reads a vehicle class. -/
def VehicleType.decoder : Decoder VehicleType :=
  Decoder.choice VehicleType.ofName?

namespace Driver

/-- The members of a driver's record. -/
def members (d : Driver) : List (String × Json) :=
  [ ("id", .string d.id),
    ("name", .string d.name),
    ("phone", .ofOption .string d.phone),
    ("licensePlate", .ofOption .string d.licensePlate),
    ("vehicleType", .string d.vehicleType.name),
    ("currentLocation", .ofOption GeoPoint.toJson d.location),
    ("lastLocationUpdate", .ofOption Instant.toJson d.lastPing),
    ("status", d.status.toJson),
    ("createdAt", d.createdAt.toJson),
    ("updatedAt", d.updatedAt.toJson) ]

/-- A driver as JSON. -/
def toJson (d : Driver) : Json := .object d.members

/-- The fields of a driver. -/
def record : RecordDecoder Driver :=
  Driver.mk <$> .required "id" Decoder.text
    <*> .required "name" Decoder.text
    <*> .optional "phone" Decoder.text
    <*> .optional "licensePlate" Decoder.text
    <*> .required "vehicleType" VehicleType.decoder
    <*> .optional "currentLocation" GeoPoint.record.decode
    <*> .optional "lastLocationUpdate" Instant.decoder
    <*> .required "status" DriverStatus.decoder
    <*> .required "createdAt" Instant.decoder
    <*> .required "updatedAt" Instant.decoder

end Driver

/-- What someone who wants to drive hands in. -/
structure NewDriver where
  id : DriverId
  name : String
  phone : Option String
  licensePlate : Option String
  vehicleType : VehicleType
  deriving DecidableEq, Repr, Inhabited

/-- The fields of an application; the vehicle class is standard unless given. -/
def NewDriver.record : RecordDecoder NewDriver :=
  NewDriver.mk <$> .required "id" Decoder.text
    <*> .required "name" Decoder.text
    <*> .optional "phone" Decoder.text
    <*> .optional "licensePlate" Decoder.text
    <*> .defaulted "vehicleType" .standard VehicleType.decoder

end Ridehail
