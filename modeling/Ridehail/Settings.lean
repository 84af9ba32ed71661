import Ridehail.Double.Reader
import Ridehail.Number.Digits
import Ridehail.Number.Power
import Ridehail.Text.Basic

/-!
# Settings

The service is set up from named texts. Every setting but the path of the
database has a default; a text that is given has to be readable and, where the
setting has a range, inside it. The settings are looked at in a fixed order, and
the first one that is wrong is reported.

## Main definitions

* `SettingKey` — the settings, in the order in which they are looked at.
* `SettingError` — which setting is wrong and why.
* `Settings`, `Settings.read` — all settings, and how they are read.
-/

namespace Ridehail

/-! ## Keys and faults -/

/-- The settings. -/
inductive SettingKey where
  | port
  | databasePath
  | indexUrl
  | flagsUrl
  | flagsEnabled
  | externalTimeout
  | busCapacity
  | searchRadius
  | maxDrivers
  | retryNext
  | staleAfter
  | sweepInterval
  | utcOffset
  | demandRadius
  deriving DecidableEq, Repr, Inhabited

namespace SettingKey

/-- The name under which a setting is given. -/
def name : SettingKey → String
  | .port => "PORT"
  | .databasePath => "DATABASE_PATH"
  | .indexUrl => "GEO_INDEX_URL"
  | .flagsUrl => "FEATURE_FLAGS_URL"
  | .flagsEnabled => "FEATURE_FLAGS_ENABLED"
  | .externalTimeout => "EXTERNAL_TIMEOUT_MS"
  | .busCapacity => "EVENT_BUS_CAPACITY"
  | .searchRadius => "MATCHING_MAX_SEARCH_RADIUS_KM"
  | .maxDrivers => "MATCHING_MAX_DRIVERS"
  | .retryNext => "MATCHING_RETRY_NEXT_CANDIDATE"
  | .staleAfter => "STALE_DRIVER_THRESHOLD_SECS"
  | .sweepInterval => "STALE_SWEEP_INTERVAL_SECS"
  | .utcOffset => "SURGE_UTC_OFFSET_MINUTES"
  | .demandRadius => "SURGE_DEMAND_RADIUS_KM"

/-- Every setting, in the order in which they are looked at. -/
def all : List SettingKey :=
  [ .port, .databasePath, .indexUrl, .flagsUrl, .flagsEnabled,
    .externalTimeout, .busCapacity, .searchRadius, .maxDrivers, .retryNext,
    .staleAfter, .sweepInterval, .utcOffset,
    .demandRadius ]

/-- No setting is left out. -/
theorem mem_all (key : SettingKey) : key ∈ all := by cases key <;> decide

end SettingKey

/-- What is wrong with a text. -/
inductive SettingFault where
  | notPort
  | notMilliseconds
  | notCount
  | notKilometres
  | notSeconds
  | notMinutes
  | notBoolean (got : String)
  | zero
  | notPositive
  | outsideOffsets
  deriving DecidableEq, Repr

/-- The wording of a fault. -/
def SettingFault.message : SettingFault → String
  | .notPort => "must be a valid u16"
  | .notMilliseconds => "must be a number of milliseconds"
  | .notCount => "must be a positive integer"
  | .notKilometres => "must be a number of kilometres"
  | .notSeconds => "must be a number of seconds"
  | .notMinutes => "must be an integer number of minutes"
  | .notBoolean got => "must be true or false, got " ++ got
  | .zero => "must be greater than zero"
  | .notPositive => "must be positive"
  | .outsideOffsets => "must be within +/- 14 hours"

/-- Why settings cannot be used. -/
inductive SettingError where
  | missing (key : SettingKey)
  | invalid (key : SettingKey) (fault : SettingFault)
  deriving DecidableEq, Repr

namespace SettingError

/-- The setting that is wrong. -/
def key : SettingError → SettingKey
  | .missing k => k
  | .invalid k _ => k

/-- The wording of an error. -/
def message : SettingError → String
  | .missing key => "Missing required environment variable: " ++ key.name
  | .invalid key fault =>
      "Invalid value for " ++ key.name ++ ": " ++ fault.message

end SettingError

/-! ## Reading one setting -/

/-- The texts that settings are read from. -/
abbrev Environment := List (String × String)

namespace Environment

/-- The text of a setting. -/
def get? (env : Environment) (key : SettingKey) : Option String :=
  env.lookup key.name

/-- The text of a setting without blanks at its ends. -/
def trimmed? (env : Environment) (key : SettingKey) : Option String :=
  (env.get? key).map trimBlanks

/-- A text that is not blank. -/
def filled? (env : Environment) (key : SettingKey) : Option String :=
  (env.trimmed? key).filter fun text => !text.isEmpty

/-- The value of a setting, or the default if it is not given. -/
def valueOr {α : Type} (env : Environment) (key : SettingKey) (default : α)
    (fault : SettingFault) (read? : String → Option α) :
    Except SettingError α :=
  match env.trimmed? key with
  | none => .ok default
  | some text =>
      match read? text with
      | some value => .ok value
      | none => .error (.invalid key fault)

/-- The texts that switch something on. -/
def onTexts : List String := ["1", "true", "yes", "on"]

/-- The texts that switch something off. -/
def offTexts : List String := ["0", "false", "no", "off"]

/-- A switch, read without regard to ASCII case. -/
def switchOr (env : Environment) (key : SettingKey) (default : Bool) :
    Except SettingError Bool :=
  match (env.trimmed? key).map fun text => text.map Char.toLower with
  | none => .ok default
  | some text =>
      if onTexts.contains text then .ok true
      else if offTexts.contains text then .ok false
      else .error (.invalid key (.notBoolean text))

end Environment

/-- Refuses a value outside the range of its setting. -/
def within {α : Type} (inRange : α → Bool) (key : SettingKey)
    (fault : SettingFault) (value : α) : Except SettingError α :=
  if inRange value then .ok value else .error (.invalid key fault)

/-- A natural below `2 ^ bits`. -/
def readWord? (bits : Nat) (text : String) : Option Nat :=
  (readNat? text.toList).filter fun n => n < twoPow bits

/-- An integer of 32 bits. -/
def readInt32? (text : String) : Option Int :=
  (readInt? text.toList).filter fun n => -2147483648 ≤ n && n ≤ 2147483647

/-! ## All settings -/

/-- How drivers are looked for. -/
structure MatchingPolicy where
  maxRadiusKm : Float := 5.0
  maxDrivers : Nat := 10
  retryNext : Bool := true
  deriving DecidableEq, Repr, Inhabited

/-- When a driver counts as gone, and how often that is looked at. -/
structure TrackingPolicy where
  staleAfterSeconds : Nat := 600
  sweepEverySeconds : Nat := 300
  deriving DecidableEq, Repr, Inhabited

/-- Where prices look for demand, and which time of day they go by. -/
structure PricingPolicy where
  utcOffsetMinutes : Int := 0
  demandRadiusKm : Float := 2.0
  deriving DecidableEq, Repr, Inhabited

/-- The offset from UTC in seconds; an offset of a day or more counts as
none. -/
def PricingPolicy.offsetSeconds (p : PricingPolicy) : Int :=
  if (p.utcOffsetMinutes * 60).natAbs < 86400 then p.utcOffsetMinutes * 60
  else 0

/-- All settings. -/
structure Settings where
  port : Nat
  databasePath : String
  indexUrl : Option String
  flagsUrl : Option String
  flagsEnabled : Bool
  externalTimeoutMs : Nat
  busCapacity : Nat
  matching : MatchingPolicy
  tracking : TrackingPolicy
  pricing : PricingPolicy
  deriving DecidableEq, Repr, Inhabited

namespace Settings

/-- The largest offset from UTC in minutes. -/
def largestOffset : Int := 14 * 60

/-- The path of the database, which is taken as it is. -/
def readPath (env : Environment) : Except SettingError String :=
  match env.get? .databasePath with
  | some path => .ok path
  | none => .error (.missing .databasePath)

/-- Reads the settings of matching. -/
def readMatching (env : Environment) : Except SettingError MatchingPolicy := do
  let usual : MatchingPolicy := {}
  let maxRadiusKm ← env.valueOr .searchRadius usual.maxRadiusKm .notKilometres
    Double.readText?
  let maxRadiusKm ← within (0.0 < ·) .searchRadius .notPositive maxRadiusKm
  let maxDrivers ← env.valueOr .maxDrivers usual.maxDrivers
    .notCount (readWord? 64)
  let retryNext ← env.switchOr .retryNext usual.retryNext
  return { maxRadiusKm, maxDrivers, retryNext }

/-- Reads the settings of tracking. -/
def readTracking (env : Environment) : Except SettingError TrackingPolicy := do
  let usual : TrackingPolicy := {}
  let staleAfterSeconds ←
    env.valueOr .staleAfter usual.staleAfterSeconds .notSeconds (readWord? 64)
  let sweepEverySeconds ←
    env.valueOr .sweepInterval usual.sweepEverySeconds
      .notSeconds (readWord? 64)
  let sweepEverySeconds ← within (· ≠ 0) .sweepInterval .zero sweepEverySeconds
  return { staleAfterSeconds, sweepEverySeconds }

/-- Reads the settings of pricing. -/
def readPricing (env : Environment) : Except SettingError PricingPolicy := do
  let usual : PricingPolicy := {}
  let utcOffsetMinutes ← env.valueOr .utcOffset usual.utcOffsetMinutes
    .notMinutes readInt32?
  let utcOffsetMinutes ←
    within (fun m => -largestOffset ≤ m && m ≤ largestOffset) .utcOffset
      .outsideOffsets utcOffsetMinutes
  let demandRadiusKm ←
    env.valueOr .demandRadius usual.demandRadiusKm .notKilometres
      Double.readText?
  return { utcOffsetMinutes, demandRadiusKm }

/-- Reads all settings, or reports the first one that is wrong. -/
def read (env : Environment) : Except SettingError Settings := do
  let port ← env.valueOr .port 8080 .notPort (readWord? 16)
  let databasePath ← readPath env
  let indexUrl := env.filled? .indexUrl
  let flagsUrl := env.filled? .flagsUrl
  let flagsEnabled ← env.switchOr .flagsEnabled false
  let timeout ← env.valueOr .externalTimeout 2000
    .notMilliseconds (readWord? 64)
  let externalTimeoutMs ← within (· ≠ 0) .externalTimeout .zero timeout
  let capacity ← env.valueOr .busCapacity 1024 .notCount (readWord? 64)
  let busCapacity ← within (· ≠ 0) .busCapacity .notCount capacity
  let matching ← readMatching env
  let tracking ← readTracking env
  let pricing ← readPricing env
  return { port, databasePath, indexUrl, flagsUrl, flagsEnabled,
           externalTimeoutMs, busCapacity, matching, tracking, pricing }

end Settings

end Ridehail
