/-!
# Rounding a quotient of naturals

Every number this library prints or stores with fewer digits than it was
computed with is a quotient `num / den` of naturals brought to the nearest
natural. The only choice is where an exact half goes, so that choice is a
parameter (`Tie`) and the rounding itself is written once.

## Main results

* `roundDiv_one` — a whole number is left alone, whatever the tie rule.
* `two_mul_roundDiv_le`, `le_two_mul_roundDiv` — the result is within half a
  unit of the quotient.
-/

namespace Ridehail

/-- Where a quotient that lies exactly halfway between two naturals goes. -/
inductive Tie where
  /-- To the even neighbour. -/
  | toEven
  /-- To the larger neighbour, hence away from zero when a sign is kept
  apart. -/
  | up
  deriving DecidableEq, Repr

/-- Whether a quotient `q` with remainder `r` over `den` is raised by one. -/
def Tie.raises (tie : Tie) (q r den : Nat) : Bool :=
  if 2 * r < den then false
  else if 2 * r = den then
    match tie with
    | .toEven => q % 2 = 1
    | .up => true
  else true

/-- The natural nearest to `num / den`, an exact half going where `tie` says. -/
def roundDiv (tie : Tie) (num den : Nat) : Nat :=
  if tie.raises (num / den) (num % den) den then num / den + 1 else num / den

/-- A whole number is already rounded. -/
@[simp] theorem roundDiv_one (tie : Tie) (n : Nat) : roundDiv tie n 1 = n := by
  simp [roundDiv, Tie.raises, Nat.mod_one]

/-- Only a remainder of at least half the divisor raises the quotient. -/
theorem Tie.le_of_raises {tie : Tie} {q r den : Nat}
    (h : tie.raises q r den = true) :
    den ≤ 2 * r := by
  unfold Tie.raises at h
  split at h
  · simp at h
  · omega

/-- A remainder of more than half the divisor always raises the quotient. -/
theorem Tie.le_of_not_raises {tie : Tie} {q r den : Nat}
    (h : tie.raises q r den = false) :
    2 * r ≤ den := by
  unfold Tie.raises at h
  split at h
  · omega
  · split at h
    · omega
    · simp at h

/-- Rounding never lands more than half a unit above the quotient. -/
theorem two_mul_roundDiv_le (tie : Tie) (num den : Nat) :
    2 * den * roundDiv tie num den ≤ 2 * num + den := by
  have hsplit := Nat.div_add_mod num den
  have hbase : 2 * den * (num / den) = 2 * (den * (num / den)) := by grind
  have hnext : 2 * den * (num / den + 1) =
      2 * (den * (num / den)) + 2 * den := by grind
  unfold roundDiv
  split
  · rename_i h
    have hrem := Tie.le_of_raises h
    omega
  · omega

/-- Rounding never lands more than half a unit below the quotient. -/
theorem le_two_mul_roundDiv (tie : Tie) (num : Nat) {den : Nat}
    (hden : 0 < den) :
    2 * num ≤ 2 * den * roundDiv tie num den + den := by
  have hsplit := Nat.div_add_mod num den
  have hrem := Nat.mod_lt num hden
  have hbase : 2 * den * (num / den) = 2 * (den * (num / den)) := by grind
  have hnext : 2 * den * (num / den + 1) =
      2 * (den * (num / den)) + 2 * den := by grind
  unfold roundDiv
  split
  · omega
  · rename_i h
    have hlow := Tie.le_of_not_raises (Bool.eq_false_iff.2 h)
    omega

end Ridehail
