/-!
# Texts

The characters with the property `White_Space`, and texts without the blanks at
their ends; and cutting a list of characters at a separator, everywhere or only
at its first occurrence.

## Main definitions

* `isBlank`, `trimBlanks`, `isBlankText` — blanks, and texts without them.
* `splitAll`, `splitFirst` — the pieces between separators.
-/

namespace Ridehail

/-! ## Blanks -/

/-- The code points with the property `White_Space`, as ranges. -/
def blankRanges : List (Nat × Nat) :=
  [ (0x09, 0x0d), (0x20, 0x20), (0x85, 0x85), (0xa0, 0xa0), (0x1680, 0x1680),
    (0x2000, 0x200a), (0x2028, 0x2029), (0x202f, 0x202f), (0x205f, 0x205f),
    (0x3000, 0x3000) ]

/-- Whether a character is a blank. -/
def isBlank (c : Char) : Bool :=
  blankRanges.any fun range => range.1 ≤ c.toNat && c.toNat ≤ range.2

/-- The characters without the blanks in front. -/
def dropBlanks (cs : List Char) : List Char := cs.dropWhile isBlank

/-- What is left does not begin with a blank. -/
theorem dropBlanks_head (cs : List Char) (c : Char) (rest : List Char)
    (h : dropBlanks cs = c :: rest) : isBlank c = false := by
  induction cs with
  | nil => simp [dropBlanks] at h
  | cons d ds ih =>
      by_cases hd : isBlank d
      · exact ih (by simpa [dropBlanks, hd] using h)
      · have : d = c := by
          have := h
          simp [dropBlanks, hd] at this
          exact this.1
        simpa [this] using hd

/-- A text without the blanks at its ends. -/
def trimBlanks (text : String) : String :=
  String.ofList (dropBlanks (dropBlanks text.toList).reverse).reverse

/-- Whether a text has nothing but blanks. -/
def isBlankText (text : String) : Bool := text.toList.all isBlank

/-! ## Pieces -/

/-- The pieces between the separators. -/
def splitAll (separator : Char) : List Char → List (List Char)
  | [] => [[]]
  | c :: cs =>
      if c = separator then [] :: splitAll separator cs
      else
        match splitAll separator cs with
        | [] => [[c]]
        | piece :: more => (c :: piece) :: more

/-- What is before the first separator, and what is after it if there is one. -/
def splitFirst (separator : Char) : List Char → List Char × Option (List Char)
  | [] => ([], none)
  | c :: cs =>
      if c = separator then ([], some cs)
      else ((c :: (splitFirst separator cs).1), (splitFirst separator cs).2)

end Ridehail
