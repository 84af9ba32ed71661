import Ridehail.Keyed

/-!
# Feature flags

A flag has a default that holds until it is overridden. A flag may also have a
rollout percentage, which is zero until it is set.
-/

namespace Ridehail

/-- The names of the flags that this service looks at. -/
def advancedMatching : String := "advanced_matching"

@[inherit_doc advancedMatching]
def surgePricing : String := "surge_pricing"

@[inherit_doc advancedMatching]
def dynamicEta : String := "dynamic_eta"

@[inherit_doc advancedMatching]
def realTimeTracking : String := "real_time_tracking"

/-- The value of a flag that nobody has set. -/
def defaultFlag (name : String) : Bool :=
  name = dynamicEta || name = realTimeTracking

/-- The rollout percentage of a flag that has none. -/
def defaultPercentage : Float := 0.0

/-- Overrides of flags and their percentages. -/
structure Flags where
  overrides : List (String × Bool) := []
  percentages : List (String × Float) := []
  deriving Repr, Inhabited

namespace Flags

/-- No overrides. -/
def none : Flags := {}

/-- Whether a flag is on. -/
def isEnabled (f : Flags) (name : String) : Bool :=
  (f.overrides.lookup name).getD (defaultFlag name)

/-- The rollout percentage of a flag. -/
def percentage (f : Flags) (name : String) : Float :=
  (f.percentages.lookup name).getD defaultPercentage

/-- Overrides a flag. -/
def set (f : Flags) (name : String) (enabled : Bool) : Flags :=
  { f with overrides := Keyed.put name enabled f.overrides }

/-- A percentage held between zero and a hundred. -/
def boundPercentage (x : Float) : Float :=
  if x < 0.0 then 0.0 else if x > 100.0 then 100.0 else x

/-- Sets the rollout percentage of a flag. -/
def setPercentage (f : Flags) (name : String) (x : Float) : Flags :=
  { f with percentages := Keyed.put name (boundPercentage x) f.percentages }

/-- Takes back what was set for a flag. -/
def clear (f : Flags) (name : String) : Flags :=
  { overrides := Keyed.erase name f.overrides,
    percentages := Keyed.erase name f.percentages }

end Flags

end Ridehail
