import Ridehail.Decimal.Reader

/-!
# Canonical texts read back

Amounts are stored as their canonical text, so a stored amount is worth what the
reader makes of that text.  The reader has many ways to go wrong or to round,
and a canonical text takes none of them: its digits are those of a mantissa
below the limit, and no more than 28 of them stand behind the point.  Reading
therefore just collects the digits, and gives the mantissa and the places of the
normalized decimal.  What normalizing has dropped were trailing zeros, which do
not change the number.

## Main results

* `Decimal.readDigits_run` — a run of digits that fits is collected.
* `Decimal.read_text` — a canonical text is read as the number it was written
  for.
-/

namespace Ridehail

/-! ## Runs of digits -/

/-- The digits `cs` behind a number `n`. -/
def digitsAfter (n : Nat) (cs : List Char) : Nat :=
  cs.foldl (fun value c => 10 * value + digitValue c) n

theorem le_digitsAfter (n : Nat) (cs : List Char) : n ≤ digitsAfter n cs := by
  induction cs generalizing n with
  | nil => exact Nat.le_refl n
  | cons c cs ih =>
      have hrest : 10 * n + digitValue c ≤ digitsAfter n (c :: cs) :=
        ih (10 * n + digitValue c)
      omega

theorem digitsAfter_append (n : Nat) (cs ds : List Char) :
    digitsAfter n (cs ++ ds) = digitsAfter (digitsAfter n cs) ds :=
  List.foldl_append

theorem isDigit_of_mem_decimalDigits {n : Nat} {c : Char}
    (h : c ∈ decimalDigits n) :
    isDigit c = true := by
  fun_induction decimalDigits n with
  | case1 n hn =>
      rw [List.mem_singleton.1 h]
      exact isDigit_digitChar hn
  | case2 n hn ih =>
      rcases List.mem_append.1 h with h | h
      · exact ih h
      · rw [List.mem_singleton.1 h]
        exact isDigit_digitChar (Nat.mod_lt n (by decide))

theorem digitsAfter_zeros (width : Nat) :
    digitsAfter 0 (List.replicate width '0') = 0 := by
  induction width with
  | zero => rfl
  | succ width ih => exact ih

theorem digitsAfter_paddedDigits (width n : Nat) :
    digitsAfter 0 (paddedDigits width n) = n := by
  rw [paddedDigits, digitsAfter_append, digitsAfter_zeros]
  exact digitsValue_decimalDigits n

theorem isDigit_of_mem_paddedDigits {width n : Nat} {c : Char}
    (h : c ∈ paddedDigits width n) :
    isDigit c = true := by
  rcases List.mem_append.1 h with h | h
  · rw [List.eq_of_mem_replicate h]
    decide
  · exact isDigit_of_mem_decimalDigits h

theorem le_length_paddedDigits (width n : Nat) :
    width ≤ (paddedDigits width n).length := by
  rw [paddedDigits, List.length_append, List.length_replicate]
  omega

/-- The digits of a pointed number split into those before the point and those
behind it. -/
theorem pointedDigits_parts (places n : Nat) :
    ∃ whole behind,
      pointedDigits places n =
        (if places = 0 then whole else whole ++ '.' :: behind) ∧
      whole.isEmpty = false ∧ behind.length = places ∧
      (∀ c ∈ whole ++ behind, isDigit c = true) ∧
      digitsAfter (digitsAfter 0 whole) behind = n := by
  have hlength := le_length_paddedDigits (places + 1) n
  refine ⟨(paddedDigits (places + 1) n).take
    ((paddedDigits (places + 1) n).length - places),
    (paddedDigits (places + 1) n).drop
      ((paddedDigits (places + 1) n).length - places), rfl,
    ?_, ?_, ?_, ?_⟩
  · rw [List.isEmpty_eq_false_iff, ← List.length_pos_iff, List.length_take]
    omega
  · rw [List.length_drop]
    omega
  · rw [List.take_append_drop]
    exact fun c hc => isDigit_of_mem_paddedDigits hc
  · rw [← digitsAfter_append, List.take_append_drop, digitsAfter_paddedDigits]

namespace Decimal

/-! ## Collecting digits -/

/-- A run of digits is collected if the number stays below the limit and the
digits behind the point are at most 28. -/
theorem readDigits_run (negative : Bool) (p : Progress) (ds rest : List Char)
    (hdigits : ∀ c ∈ ds, isDigit c = true)
    (hfit : digitsAfter p.mantissa ds < mantissaLimit)
    (hwhole : p.pointSeen = false → p.places = 0)
    (hplaces : p.pointSeen = true → p.places + ds.length ≤ 28) :
    readDigits negative p (ds ++ rest) =
      readDigits negative
        ⟨digitsAfter p.mantissa ds,
          if p.pointSeen then p.places + ds.length else 0, p.pointSeen,
          p.digitSeen || !ds.isEmpty⟩ rest := by
  induction ds generalizing p with
  | nil =>
      obtain ⟨mantissa, places, pointSeen, digitSeen⟩ := p
      cases pointSeen with
      | true => simp [digitsAfter]
      | false =>
          have hnone : places = 0 := hwhole rfl
          simp [digitsAfter, hnone]
  | cons c ds ih =>
      have hc : isDigit c = true := hdigits c List.mem_cons_self
      have hroom : (p.digitSeen && p.pointSeen && decide (p.places = 28)) =
          false := by
        cases hpoint : p.pointSeen with
        | false => simp
        | true =>
            have hlength := hplaces hpoint
            rw [List.length_cons] at hlength
            have hne : p.places ≠ 28 := by omega
            simp [hne]
      have hnext : 10 * p.mantissa + digitValue c < mantissaLimit :=
        Nat.lt_of_le_of_lt (le_digitsAfter _ ds) hfit
      rw [List.cons_append, readDigits, hroom, if_neg Bool.false_ne_true,
        if_pos hc, if_pos hnext,
        ih _ (fun c hc => hdigits c (List.mem_cons_of_mem _ hc)) hfit]
      · cases p.pointSeen with
        | false => simp [digitsAfter]
        | true => simp [digitsAfter, Nat.add_assoc, Nat.add_comm 1]
      · intro hnext
        have hpoint : p.pointSeen = false := hnext
        simp only [hpoint, Bool.false_eq_true, if_false]
      · intro hnext
        have hpoint : p.pointSeen = true := hnext
        have hlength := hplaces hpoint
        rw [List.length_cons] at hlength
        simp only [hpoint, if_true]
        omega

theorem mk?_self (negative : Bool) (d : Decimal) :
    mk? negative d.mantissa d.scale = some { d with
      negative := negative && d.mantissa != 0 } :=
  dif_pos ⟨d.mantissa_lt, d.scale_le⟩

/-- The digits before the point are collected. -/
theorem readDigits_whole (negative : Bool) {whole : List Char}
    (rest : List Char) (hne : whole.isEmpty = false)
    (hdigits : ∀ c ∈ whole, isDigit c = true)
    (hfit : digitsAfter 0 whole < mantissaLimit) :
    readDigits negative .start (whole ++ rest) =
      readDigits negative ⟨digitsAfter 0 whole, 0, false, true⟩ rest := by
  rw [readDigits_run negative .start whole rest hdigits hfit (fun _ => rfl)
    (fun h => by cases h)]
  simp [Progress.start, hne]

theorem readDigits_point (negative : Bool) (n : Nat) (rest : List Char) :
    readDigits negative ⟨n, 0, false, true⟩ ('.' :: rest) =
      readDigits negative ⟨n, 0, true, true⟩ rest := by
  rw [readDigits]
  simp [show isDigit '.' = false by decide]

/-- The digits of a decimal, with the point among them, are read as that
decimal. -/
theorem readDigits_pointedDigits (negative : Bool) (d : Decimal) :
    readDigits negative .start (pointedDigits d.scale d.mantissa) =
      .ok { d with negative := negative && d.mantissa != 0 } := by
  obtain ⟨whole, behind, hparts, hne, hbehind, hdigits, hvalue⟩ :=
    pointedDigits_parts d.scale d.mantissa
  have hfit : digitsAfter 0 whole < mantissaLimit :=
    Nat.lt_of_le_of_lt (le_digitsAfter _ behind) (hvalue ▸ d.mantissa_lt)
  have hwhole (rest : List Char) := readDigits_whole negative rest hne
    (fun c hc => hdigits c (List.mem_append_left behind hc)) hfit
  rw [hparts]
  by_cases hzero : d.scale = 0
  · have hnone : behind = [] := List.length_eq_zero_iff.1 (hbehind.trans hzero)
    have hall : digitsAfter 0 whole = d.mantissa := by
      rw [hnone] at hvalue
      exact hvalue
    have hrun := hwhole []
    rw [List.append_nil] at hrun
    have hmk :=
      (congrArg (mk? negative d.mantissa) hzero.symm).trans
        (mk?_self negative d)
    rw [if_pos hzero, hrun, readDigits, hall, hmk]
    simp
  · have hsome : behind.isEmpty = false := by
      rw [List.isEmpty_eq_false_iff, ← List.length_pos_iff]
      omega
    have hroom : 0 + behind.length ≤ 28 := by
      rw [hbehind, Nat.zero_add]
      exact d.scale_le
    have hrun :=
      readDigits_run negative ⟨digitsAfter 0 whole, 0, true, true⟩ behind []
      (fun c hc => hdigits c (List.mem_append_right whole hc))
      (by rw [hvalue]; exact d.mantissa_lt)
      (fun h => by cases h) (fun _ => hroom)
    rw [List.append_nil] at hrun
    rw [if_neg hzero, hwhole, readDigits_point, hrun]
    simp only [if_true, hvalue, hbehind, hsome, Nat.zero_add, Bool.true_or]
    rw [readDigits, mk?_self]
    simp

/-! ## Whole texts -/

theorem readPlain_of_isDigit {c : Char} {cs : List Char}
    (h : isDigit c = true) :
    readPlain (c :: cs) = readDigits false .start (c :: cs) := by
  unfold readPlain
  split
  · rename_i hnil
    cases hnil
  · rename_i hminus
    cases hminus
    exact absurd h (by decide)
  · rename_i hplus
    cases hplus
    exact absurd h (by decide)
  · rfl

/-- Written digits begin with a digit. -/
theorem pointedDigits_eq_cons (places n : Nat) :
    ∃ c cs, pointedDigits places n = c :: cs ∧ isDigit c = true := by
  have hlength := le_length_paddedDigits (places + 1) n
  cases hall : paddedDigits (places + 1) n with
  | nil =>
      rw [hall] at hlength
      cases hlength
  | cons c cs =>
      have hmem : c ∈ paddedDigits (places + 1) n := hall ▸ List.mem_cons_self
      have hc : isDigit c = true := isDigit_of_mem_paddedDigits hmem
      rw [hall, List.length_cons] at hlength
      obtain ⟨k, hk⟩ : ∃ k, (c :: cs).length - places = k + 1 :=
        ⟨(c :: cs).length - places - 1, by rw [List.length_cons]; omega⟩
      rw [pointedDigits, hall, hk, List.take_succ_cons]
      split
      · exact ⟨c, _, rfl, hc⟩
      · exact ⟨c, _, rfl, hc⟩

/-- The canonical text is read as the normalized decimal; a zero has no sign. -/
theorem readPlain_chars (d : Decimal) :
    readPlain d.chars =
      .ok { d.normalize with
        negative := d.normalize.negative && d.normalize.mantissa != 0 } := by
  unfold chars
  dsimp only
  cases hnegative : d.normalize.negative with
  | true =>
      rw [if_pos rfl]
      exact readDigits_pointedDigits true d.normalize
  | false =>
      rw [if_neg Bool.false_ne_true]
      obtain ⟨c, cs, hcs, hc⟩ :=
        pointedDigits_eq_cons d.normalize.scale d.normalize.mantissa
      rw [hcs, readPlain_of_isDigit hc, ← hcs]
      exact readDigits_pointedDigits false d.normalize

/-- Stripping trailing zeros does not change the number. -/
theorem stripZeros_value (mantissa : Nat) {scale : Nat} (h : scale ≤ 28) :
    (stripZeros mantissa scale).1 *
      tenPow (28 - (stripZeros mantissa scale).2) =
      mantissa * tenPow (28 - scale) := by
  fun_induction stripZeros mantissa scale with
  | case1 => rfl
  | case2 mantissa scale hzero ih =>
      rw [ih (by omega), show 28 - scale = 28 - (scale + 1) + 1 by omega,
        tenPow_succ, Nat.mul_comm (tenPow _) 10, ← Nat.mul_assoc]
      congr 1
      omega
  | case3 => rfl

@[simp] theorem same_refl (d : Decimal) : d.same d = true := by simp [same]

theorem scaled_eq (d : Decimal) :
    d.scaled =
      if d.negative then -((d.mantissa * tenPow (28 - d.scale) : Nat) : Int)
      else ((d.mantissa * tenPow (28 - d.scale) : Nat) : Int) := by
  unfold scaled signed
  split
  · rw [Int.neg_mul, Int.natCast_mul]
  · rw [Int.natCast_mul]

/-- A canonical text is read, as the number for which it was written. -/
theorem read_text (d : Decimal) :
    ∃ d', read d.text = .ok d' ∧ d.same d' = true := by
  refine ⟨{ d.normalize with
    negative := d.normalize.negative && d.normalize.mantissa != 0 }, ?_, ?_⟩
  · rw [read, text, String.toList_ofList, readChars, readPlain_chars]
  · have hvalue : d.normalize.mantissa * tenPow (28 - d.normalize.scale) =
        d.mantissa * tenPow (28 - d.scale) :=
          stripZeros_value d.mantissa d.scale_le
    rw [same, decide_eq_true_iff, scaled_eq, scaled_eq]
    simp only [hvalue]
    -- Only a zero can lose its sign.
    by_cases hzero : d.mantissa = 0
    · simp [hzero]
    · have hne : d.normalize.mantissa ≠ 0 := by
        intro hnone
        rw [hnone, Nat.zero_mul] at hvalue
        rcases Nat.mul_eq_zero.1 hvalue.symm with h | h
        · exact hzero h
        · exact absurd h (Nat.ne_of_gt (tenPow_pos _))
      have hsign : d.normalize.negative = d.negative := by
        simp [normalize, isNegative, hzero]
      simp [hsign, hne]

end Decimal

end Ridehail
