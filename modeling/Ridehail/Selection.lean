import Ridehail.Driver.Status
import Ridehail.Double.Basic

/-!
# Choosing a candidate

The driver index reports candidates around a pickup. Only those it reports as
available are eligible. The first strategy takes the first of them, the other
the nearest; among equally near ones the first in index order.

## Main definitions

* `Candidate` — a driver as reported by the index.
* `Strategy`, `Strategy.select?` — the two ways to choose.
-/

namespace Ridehail

/-- A driver near a pickup, as the index reports it. -/
structure Candidate where
  driver : DriverId
  distanceKm : Double.Datum
  status : DriverStatus
  deriving DecidableEq, Repr, Inhabited

/-- Whether a candidate may be chosen. -/
def Candidate.eligible (c : Candidate) : Bool := c.status = .available

/-- How a candidate is chosen. -/
inductive Strategy where
  | first
  | nearest
  deriving DecidableEq, Repr

/-- The nearest of `best` and the candidates after it, the first on a tie. -/
def nearestFrom (best : Candidate) : List Candidate → Candidate
  | [] => best
  | c :: rest =>
      nearestFrom (if Double.totalLt c.distanceKm best.distanceKm then
        c else best) rest

/-- The nearest of some candidates, the first on a tie. -/
def nearest? : List Candidate → Option Candidate
  | [] => none
  | c :: rest => some (nearestFrom c rest)

namespace Strategy

/-- The strategy that advanced matching switches on. -/
def ofAdvanced (advanced : Bool) : Strategy :=
  if advanced then .nearest else .first

/-- The name of a strategy. -/
def name : Strategy → String
  | .first => "simple"
  | .nearest => "advanced"

/-- The candidate a strategy chooses, if any is eligible. -/
def select? (strategy : Strategy) (candidates : List Candidate) :
    Option Candidate :=
  match strategy with
  | .first => candidates.find? (·.eligible)
  | .nearest => nearest? (candidates.filter (·.eligible))

end Strategy

end Ridehail
