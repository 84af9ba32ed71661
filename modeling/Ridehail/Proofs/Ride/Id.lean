import Mathlib.Tactic.Ring
import Ridehail.Ride.Record

/-!
# Identifiers read back

An identifier is written as thirty-two hexadecimal digits in five groups.  The
digits of a number that is not known are still a list of known length, so
reading takes the groups apart by mere computation, and only what the digits are
worth has to be shown.

## Main results

* `RideId.read?_text` — an identifier is read from its text.
-/

namespace Ridehail.RideId

theorem hexValue?_hexChar {d : Nat} (h : d < 16) :
    hexValue? (hexChar d) = some d := by
  have hall : ∀ k : Fin 16, hexValue? (hexChar k) = some k.val := by decide
  exact hall ⟨d, h⟩

/-- The digits behind a number are worth what is left of it. -/
theorem foldl_hexDigits (n width v : Nat) :
    (hexDigits n width).foldl (fun value c => do
      return 16 * (← value) + (← hexValue? c))
      (some v) = some (v * 16 ^ width + n % 16 ^ width) := by
  induction width generalizing v with
  | zero => simp [hexDigits, Nat.mod_one]
  | succ width ih =>
      have hdigit : n / twoPow (4 * width) % 16 < 16 := Nat.mod_lt _ (by decide)
      have hpow : twoPow (4 * width) = 16 ^ width := Nat.pow_mul 2 4 width
      rw [hexDigits, List.foldl_cons, hexValue?_hexChar hdigit]
      show List.foldl _ (some (16 * v + n / twoPow (4 * width) % 16)) _ = _
      rw [ih, hpow, Nat.mod_pow_succ]
      congr 1
      ring

/-- An identifier is read from its text. -/
theorem read?_text (id : RideId) : read? id.text = some id := by
  have hlength : id.chars.length = 36 := rfl
  have hhyphens :
      ([id.chars[8]?, id.chars[13]?, id.chars[18]?, id.chars[23]?].all
      (· == some '-')) = true := rfl
  have hdigits : id.chars.take 8 ++ (id.chars.drop 9).take 4 ++
      (id.chars.drop 14).take 4
      ++ (id.chars.drop 19).take 4 ++ id.chars.drop 24 =
      hexDigits id.bits.toNat 32 := rfl
  have hread : readChars? id.chars =
      readDigits? (hexDigits id.bits.toNat 32) := by
    rw [readChars?, hlength, if_neg (by decide), if_pos rfl, readGrouped?]
    rw [hlength, hhyphens, hdigits]
    rfl
  have hvalue : hexDigits? (hexDigits id.bits.toNat 32) =
      some id.bits.toNat := by
    have hfold := foldl_hexDigits id.bits.toNat 32 0
    have hbits : id.bits.toNat < 16 ^ 32 := id.bits.isLt
    rwa [Nat.zero_mul, Nat.zero_add, Nat.mod_eq_of_lt hbits] at hfold
  rw [read?, text, String.toList_ofList, hread, readDigits?, hvalue]
  show some (⟨BitVec.ofNat 128 id.bits.toNat⟩ : RideId) = some id
  rw [BitVec.ofNat_toNat, BitVec.setWidth_eq]

end Ridehail.RideId
