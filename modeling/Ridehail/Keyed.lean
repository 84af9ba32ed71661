/-!
# Keyed lists

A list of pairs used as a map: `put` replaces the pair of a key in place or adds
it at the end, `erase` drops it, and `List.lookup` finds it. The overrides of
the flags, the entries of a cache and of the driver index are kept this way.

## Main results

* `lookup_put_self`, `lookup_put_ne` — `put` changes its own key and no other.
* `lookup_erase_self`, `lookup_erase_ne` — `erase` removes its own key and no
  other.
* `mem_put`, `mem_erase` — the pairs that are left, if no key stands twice.
-/

namespace Ridehail.Keyed

variable {κ ν : Type} [DecidableEq κ]

/-- The list with `key` standing for `value`. -/
def put (key : κ) (value : ν) : List (κ × ν) → List (κ × ν)
  | [] => [(key, value)]
  | (k, v) :: rest =>
      if k = key then (key, value) :: rest else (k, v) :: put key value rest

/-- The list without `key`. -/
def erase (key : κ) (pairs : List (κ × ν)) : List (κ × ν) :=
  pairs.filter fun pair => pair.1 ≠ key

/-- A key that was put stands for its value. -/
@[simp] theorem lookup_put_self (key : κ) (value : ν) (pairs : List (κ × ν)) :
    (put key value pairs).lookup key = some value := by
  fun_induction put key value pairs with
  | case1 => simp
  | case2 => simp
  | case3 k v rest h ih =>
      have hne : (key == k) = false := by simpa using fun h' => h h'.symm
      simp [List.lookup_cons, hne, ih]

/-- Putting a key leaves the others alone. -/
theorem lookup_put_ne {key other : κ} (h : other ≠ key) (value : ν)
    (pairs : List (κ × ν)) :
    (put key value pairs).lookup other = pairs.lookup other := by
  have hne : (other == key) = false := by simpa using h
  fun_induction put key value pairs with
  | case1 => simp [List.lookup_cons, hne]
  | case2 v rest => simp [List.lookup_cons, hne]
  | case3 k v rest _ ih =>
      by_cases hk : other = k
      · subst hk; simp
      · have hkne : (other == k) = false := by simpa using hk
        simp [List.lookup_cons, hkne, ih]

/-- An erased key stands for nothing. -/
@[simp] theorem lookup_erase_self (key : κ) (pairs : List (κ × ν)) :
    (erase key pairs).lookup key = none := by
  induction pairs with
  | nil => rfl
  | cons pair rest ih =>
      obtain ⟨k, v⟩ := pair
      by_cases hk : k = key
      · simpa [erase, hk] using ih
      · have hne : (key == k) = false := by simpa using fun h' => hk h'.symm
        simpa [erase, hk, List.lookup_cons, hne] using ih

/-- Erasing a key leaves the others alone. -/
theorem lookup_erase_ne {key other : κ} (h : other ≠ key)
    (pairs : List (κ × ν)) :
    (erase key pairs).lookup other = pairs.lookup other := by
  induction pairs with
  | nil => rfl
  | cons pair rest ih =>
      obtain ⟨k, v⟩ := pair
      by_cases hk : k = key
      · have hne : (other == key) = false := by simpa using h
        simpa [erase, hk, List.lookup_cons, hne] using ih
      · by_cases ho : other = k
        · subst ho; simp [erase, hk]
        · have hne : (other == k) = false := by simpa using ho
          simpa [erase, hk, List.lookup_cons, hne] using ih

/-- The keys stay in place, and a new one is added at the end. -/
theorem keys_put (key : κ) (value : ν) (pairs : List (κ × ν)) :
    (put key value pairs).map (·.1) =
      if key ∈ pairs.map (·.1) then pairs.map (·.1)
      else pairs.map (·.1) ++ [key] := by
  fun_induction put key value pairs with
  | case1 => simp
  | case2 => simp
  | case3 k v rest h ih =>
      have hne : ¬key = k := fun h' => h h'.symm
      by_cases hmem : key ∈ rest.map (·.1)
      · simp_all
      · simp_all

theorem nodup_put {pairs : List (κ × ν)} (h : (pairs.map (·.1)).Nodup) (key : κ)
    (value : ν) :
    ((put key value pairs).map (·.1)).Nodup := by
  rw [keys_put]
  split
  · exact h
  · rename_i hnew
    rw [List.nodup_append]
    refine ⟨h, by simp, fun a ha b hb heq => hnew ?_⟩
    rw [List.mem_singleton.1 hb] at heq
    exact heq ▸ ha

theorem nodup_erase {pairs : List (κ × ν)} (h : (pairs.map (·.1)).Nodup)
    (key : κ) :
    ((erase key pairs).map (·.1)).Nodup :=
  h.sublist (List.Sublist.map _ List.filter_sublist)

/-- The pairs after a put, if no key stands twice: the new one, and those of
other keys. -/
theorem mem_put {pairs : List (κ × ν)} (h : (pairs.map (·.1)).Nodup) {key : κ}
    {value : ν} {pair : κ × ν} :
    pair ∈ put key value pairs ↔
      pair = (key, value) ∨ (pair ∈ pairs ∧ pair.1 ≠ key) := by
  fun_induction put key value pairs with
  | case1 => simp
  | case2 v rest =>
      have hfree : key ∉ rest.map (·.1) := (List.nodup_cons.1 h).1
      have hrest : ∀ p ∈ rest, p.1 ≠ key := fun p hp heq =>
        hfree (heq ▸ List.mem_map_of_mem hp)
      grind
  | case3 k v rest hk ih =>
      have hrest := ih (List.nodup_cons.1 h).2
      grind

theorem mem_erase {pairs : List (κ × ν)} {key : κ} {pair : κ × ν} :
    pair ∈ erase key pairs ↔ pair ∈ pairs ∧ pair.1 ≠ key := by
  simp [erase]

end Ridehail.Keyed
