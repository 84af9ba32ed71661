import Ridehail.Double.Basic

/-!
# Instants

An instant is a number of milliseconds since 1970-01-01T00:00Z. Instants come
from a 64-bit clock, so subtracting saturates at the ends of that range.
-/

namespace Ridehail

/-- Milliseconds since the start of 1970, UTC. -/
structure Instant where
  ms : Int
  deriving DecidableEq, Repr, Inhabited

namespace Instant

instance : LE Instant := ⟨fun a b => a.ms ≤ b.ms⟩

instance : LT Instant := ⟨fun a b => a.ms < b.ms⟩

instance (a b : Instant) : Decidable (a ≤ b) :=
  inferInstanceAs (Decidable (a.ms ≤ b.ms))

instance (a b : Instant) : Decidable (a < b) :=
  inferInstanceAs (Decidable (a.ms < b.ms))

/-- The instant `seconds` earlier, held at the ends of the 64-bit range. -/
def minusSeconds (t : Instant) (seconds : Nat) : Instant :=
  ⟨Double.saturate (t.ms - min ((seconds : Int) * 1000) Double.int64Max)⟩

/-- The instant `ms` milliseconds later. -/
def plus (t : Instant) (ms : Int) : Instant := ⟨t.ms + ms⟩

/-- Whole minutes from one instant to a later one, fractions dropped toward
zero. -/
def wholeMinutesUntil (t later : Instant) : Int :=
  Int.tdiv (later.ms - t.ms) 60000

/-- The first millisecond that has a calendar date, in the year -262143. -/
def calendarStart : Int := -8334601228800000

/-- The first millisecond after the last calendar date, in the year 262142. -/
def calendarEnd : Int := 8210266876800000

/-- The instant itself if it has a calendar date, and the start of 1970 if
not. -/
def onCalendar (t : Instant) : Instant :=
  if calendarStart ≤ t.ms ∧ t.ms < calendarEnd then t else ⟨0⟩

end Instant

end Ridehail
