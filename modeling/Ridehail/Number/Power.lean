/-!
# Powers of two and ten

The widths of numbers are powers of two and the places of decimals are powers of
ten, and no other power occurs. Each is a function of its own, with the few
facts that rounding and reading rely on.

## Main results

* `tenPow_succ` — one more place multiplies by ten.
* `ten_le_tenPow` — a place that is there is worth at least ten.
-/

namespace Ridehail

/-- Two to the power of `k`. -/
def twoPow (k : Nat) : Nat := Nat.pow 2 k

/-- Ten to the power of `k`. -/
def tenPow (k : Nat) : Nat := Nat.pow 10 k

/-- No places leave one. -/
@[simp] theorem tenPow_zero : tenPow 0 = 1 := rfl

/-- One more place multiplies by ten. -/
theorem tenPow_succ (k : Nat) : tenPow (k + 1) = tenPow k * 10 := rfl

/-- A power of ten is positive. -/
theorem tenPow_pos (k : Nat) : 0 < tenPow k := by
  induction k with
  | zero => decide
  | succ k ih =>
      rw [tenPow_succ]
      omega

/-- A place that is there is worth at least ten. -/
theorem ten_le_tenPow {k : Nat} (h : 0 < k) : 10 ≤ tenPow k := by
  cases k with
  | zero => omega
  | succ k =>
      have hpos := tenPow_pos k
      rw [tenPow_succ]
      omega

/-- A power of two is positive. -/
theorem twoPow_pos (k : Nat) : 0 < twoPow k := Nat.pow_pos (by decide)

end Ridehail
