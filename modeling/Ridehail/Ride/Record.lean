import Ridehail.Decimal.Double
import Ridehail.Driver.Record
import Ridehail.Ride.Basic

/-!
# Ride records in JSON

How a ride is written and read.
-/

namespace Ridehail

/-- An identifier as JSON. -/
def RideId.toJson (id : RideId) : Json := .string id.text

/-- Reads an identifier in any of its forms. -/
def RideId.decoder : Decoder RideId := Decoder.parsed RideId.read?

/-- Reads a ride status. -/
def RideStatus.decoder : Decoder RideStatus := Decoder.choice RideStatus.ofName?

namespace Ride

/-- A ride as JSON. -/
def toJson (r : Ride) : Json :=
  .object
    [ ("id", r.id.toJson),
      ("riderId", .string r.rider),
      ("driverId", .ofOption .string r.driver),
      ("pickup", r.pickup.toJson),
      ("destination", .ofOption GeoPoint.toJson r.destination),
      ("status", .string r.status.name),
      ("fareAmount", .ofOption Decimal.toJson r.fare),
      ("estimatedDurationMinutes", .ofOption .int r.estimateMinutes),
      ("createdAt", r.createdAt.toJson),
      ("acceptedAt", .ofOption Instant.toJson r.acceptedAt),
      ("startedAt", .ofOption Instant.toJson r.startedAt),
      ("completedAt", .ofOption Instant.toJson r.completedAt),
      ("cancelledAt", .ofOption Instant.toJson r.cancelledAt),
      ("updatedAt", r.updatedAt.toJson) ]

/-- The fields of a ride. -/
def record : RecordDecoder Ride :=
  Ride.mk <$> .required "id" RideId.decoder
    <*> .required "riderId" Decoder.text
    <*> .optional "driverId" Decoder.text
    <*> .required "pickup" GeoPoint.record.decode
    <*> .optional "destination" GeoPoint.record.decode
    <*> .required "status" RideStatus.decoder
    <*> .optional "fareAmount" Decimal.decoder
    <*> .optional "estimatedDurationMinutes" Decoder.int64
    <*> .required "createdAt" Instant.decoder
    <*> .optional "acceptedAt" Instant.decoder
    <*> .optional "startedAt" Instant.decoder
    <*> .optional "completedAt" Instant.decoder
    <*> .optional "cancelledAt" Instant.decoder
    <*> .required "updatedAt" Instant.decoder

end Ride

end Ridehail
