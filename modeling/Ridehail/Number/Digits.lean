/-!
# Decimal digits of a natural

`decimalDigits` writes a natural in base ten, `digitsValue` reads a run of
digits back, and `paddedDigits` writes at least a given number of places. The
amounts, times and identifiers of this library are all written and read
through these three.

## Main results

* `digitsValue_decimalDigits` — what is written reads back.
* `digitsValue_append_digit` — appending a digit multiplies by ten and adds it.
-/

namespace Ridehail

/-! ## Single digits -/

/-- The character of a decimal digit; only `d < 10` is ever asked for. -/
def digitChar (d : Nat) : Char := Char.ofNat (48 + d)

/-- The value of an ASCII decimal digit. -/
def digitValue (c : Char) : Nat := c.toNat - 48

/-- Whether a character is one of the ten ASCII digits. -/
def isDigit (c : Char) : Bool := 48 ≤ c.toNat && c.toNat ≤ 57

/-- A digit's character reads back as the digit. -/
theorem digitValue_digitChar {d : Nat} (h : d < 10) :
    digitValue (digitChar d) = d := by
  have hall : ∀ k : Fin 10, digitValue (digitChar k.val) = k.val := by decide
  exact hall ⟨d, h⟩

/-- A digit's character is a digit. -/
theorem isDigit_digitChar {d : Nat} (h : d < 10) :
    isDigit (digitChar d) = true := by
  have hall : ∀ k : Fin 10, isDigit (digitChar k.val) = true := by decide
  exact hall ⟨d, h⟩

/-! ## Runs of digits -/

/-- The base-ten digits of `n`, most significant first, with no leading zero
except for `0` itself. -/
def decimalDigits (n : Nat) : List Char :=
  if n < 10 then [digitChar n]
  else decimalDigits (n / 10) ++ [digitChar (n % 10)]
  termination_by n

/-- The value of a run of ASCII digits; the empty run is worth zero. -/
def digitsValue (cs : List Char) : Nat :=
  cs.foldl (fun value c => 10 * value + digitValue c) 0

/-- Appending a digit multiplies the value by ten and adds the digit. -/
theorem digitsValue_append_digit (cs : List Char) (c : Char) :
    digitsValue (cs ++ [c]) = 10 * digitsValue cs + digitValue c := by
  simp [digitsValue]

/-- The digits of a natural read back as that natural. -/
theorem digitsValue_decimalDigits (n : Nat) :
    digitsValue (decimalDigits n) = n := by
  fun_induction decimalDigits n with
  | case1 n h => simp [digitsValue, digitValue_digitChar h]
  | case2 n h ih =>
      rw [digitsValue_append_digit, ih,
        digitValue_digitChar (Nat.mod_lt n (by decide))]
      omega

/-- How many decimal digits `n` is written with. -/
def digitCount (n : Nat) : Nat := (decimalDigits n).length

/-- The digits of `n` with zeros in front up to `width` places. -/
def paddedDigits (width n : Nat) : List Char :=
  let digits := decimalDigits n
  List.replicate (width - digits.length) '0' ++ digits

/-- The digits of `n / 10 ^ places`, with a point before the last `places` of
them and at least one digit in front of it. -/
def pointedDigits (places n : Nat) : List Char :=
  let digits := paddedDigits (places + 1) n
  let whole := digits.take (digits.length - places)
  if places = 0 then whole
  else whole ++ '.' :: digits.drop (digits.length - places)

/-- The base-ten text of a natural. -/
def natText (n : Nat) : String := String.ofList (decimalDigits n)

/-- The base-ten text of an integer, with `-` in front of a negative one. -/
def intText : Int → String
  | .ofNat n => natText n
  | .negSucc n => "-" ++ natText (n + 1)

/-! ## Integers from text -/

/-- The value of a nonempty text of ASCII digits. -/
def readDigits? (cs : List Char) : Option Nat :=
  if cs.isEmpty || !cs.all isDigit then none else some (digitsValue cs)

/-- Reads a natural: ASCII digits after an optional `+`. -/
def readNat? : List Char → Option Nat
  | '+' :: cs => readDigits? cs
  | cs => readDigits? cs

/-- Reads an integer: ASCII digits after an optional `+` or `-`. -/
def readInt? : List Char → Option Int
  | '-' :: cs => (readDigits? cs).map fun n => -(n : Int)
  | cs => (readNat? cs).map fun n => (n : Int)

end Ridehail
