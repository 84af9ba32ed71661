import Ridehail.TimedCache

/-!
# What a cache remembers

Expired entries leave a cache at odd moments: when their key is read, or with
all others at every 64th insertion, whichever key that is for.  None of it
shows.  A read at a time sees the value of the last insertion for its key if
that is still live then, and `peek` is that view: what a read would answer,
without the reading.  Neither reads nor insertions for other keys change it for
the times to come.

Keys stand once each.  Otherwise a sweep could lay an older entry of a key bare.

## Main results

* `TimedCache.get_fst`, `peek_get` — a read answers what is remembered and
  changes nothing of it.
* `TimedCache.peek_insert_self`, `peek_insert_ne` — an insertion makes its key
  remembered for the time to live, and no other key forgotten.
* `TimedCache.Remembers.get`, `Remembers.insert` — what is true of all entries
  stays so.
-/

namespace Ridehail.TimedCache

variable {κ ν : Type} [DecidableEq κ] {c : TimedCache κ ν} {now t : Int}
  {key other : κ}

/-- The value of a key at a time, if it has one that is live then. -/
def peek (c : TimedCache κ ν) (t : Int) (key : κ) : Option ν :=
  (c.entries.lookup key).bind fun e =>
    if CacheEntry.isLive t e then some e.value else none

/-- No key stands twice. -/
def Distinct (c : TimedCache κ ν) : Prop := (c.entries.map (·.1)).Nodup

theorem isLive_mono {e : CacheEntry ν} (h : now ≤ t)
    (hlive : CacheEntry.isLive t e = true) :
    CacheEntry.isLive now e = true := by
  simp only [CacheEntry.isLive, decide_eq_true_eq] at hlive ⊢
  omega

/-! ## Looking up -/

theorem peek_congr {d : TimedCache κ ν}
    (h : c.entries.lookup key = d.entries.lookup key) :
    c.peek t key = d.peek t key := by
  rw [peek, h, peek]

omit [DecidableEq κ] in
/-- Dropping pairs of a list in which no key stands twice leaves each key its
pair or none. -/
theorem lookup_filter [BEq κ] [LawfulBEq κ] {pairs : List (κ × ν)}
    (h : (pairs.map (·.1)).Nodup) (p : κ × ν → Bool) (key : κ) :
    (pairs.filter p).lookup key =
      (pairs.lookup key).filter fun v => p (key, v) := by
  induction pairs with
  | nil => rfl
  | cons pair rest ih =>
      obtain ⟨k, v⟩ := pair
      obtain ⟨hfresh, hrest⟩ := List.nodup_cons.1 h
      have ih := ih hrest
      by_cases hk : key = k
      · subst hk
        have hgone : rest.lookup key = none := by
          refine List.lookup_eq_none_iff.2 fun pair hpair => bne_iff_ne.2 ?_
          intro heq
          exact hfresh (List.mem_map.2 ⟨pair, hpair, heq.symm⟩)
        cases hp : p (key, v) with
        | true => simp [hp, Option.filter]
        | false => simp [hp, ih, hgone, Option.filter]
      · have hne : (key == k) = false := by simpa using hk
        cases hp : p (k, v) with
        | true => simp [hp, List.lookup_cons, hne, ih]
        | false => simp [hp, List.lookup_cons, hne, ih]

/-! ## Reading -/

/-- A read answers what is remembered. -/
theorem get_fst (c : TimedCache κ ν) (now : Int) (key : κ) :
    (c.get now key).1 = c.peek now key := by
  unfold get peek
  split
  · rename_i hnone
    rw [hnone]
    rfl
  · rename_i e hsome
    rw [hsome]
    show (if CacheEntry.isLive now e then _ else _ :
      Option ν × TimedCache κ ν).1 =
      if CacheEntry.isLive now e then some e.value else none
    split <;> rfl

/-- A read changes nothing of what is remembered from then on. -/
theorem peek_get (h : now ≤ t) (other : κ) :
    (c.get now key).2.peek t other = c.peek t other := by
  unfold get
  split
  · rfl
  · rename_i e hsome
    split
    · rfl
    · rename_i hdead
      by_cases hsame : other = key
      · subst hsame
        have hlater : CacheEntry.isLive t e = false :=
          Bool.eq_false_iff.2 fun hlive => hdead (isLive_mono h hlive)
        rw [peek, peek, hsome, Keyed.lookup_erase_self]
        simp [hlater]
      · exact peek_congr (Keyed.lookup_erase_ne hsame c.entries)

theorem Distinct.get (h : c.Distinct) (now : Int) (key : κ) :
    (c.get now key).2.Distinct := by
  unfold TimedCache.get
  split
  · exact h
  · split
    · exact h
    · exact Keyed.nodup_erase h key

@[simp] theorem ttl_get (c : TimedCache κ ν) (now : Int) (key : κ) :
    (c.get now key).2.ttl = c.ttl := by
  unfold get
  split
  · rfl
  · split <;> rfl

/-! ## Inserting -/

/-- Sweeping out what has expired changes nothing of what is remembered from
then on. -/
theorem peek_sweep (hc : c.Distinct) (h : now ≤ t) (key : κ) :
    (c.sweep now).peek t key = c.peek t key := by
  rw [peek, sweep, lookup_filter hc, peek]
  cases c.entries.lookup key with
  | none => rfl
  | some e =>
      cases hlive : CacheEntry.isLive now e with
      | true => simp [hlive, Option.filter]
      | false =>
          have hlater : CacheEntry.isLive t e = false :=
            Bool.eq_false_iff.2 fun hlater =>
              Bool.false_ne_true (hlive.symm.trans (isLive_mono h hlater))
          simp [hlive, hlater, Option.filter]

/-- The cache with a key put in, before anything is swept out. -/
theorem peek_insert (hc : c.Distinct) (h : now ≤ t) (value : ν) (other : κ) :
    (c.insert now key value).peek t other =
      ((Keyed.put key ⟨value, now + c.ttl⟩ c.entries).lookup other).bind
        fun e =>
        if CacheEntry.isLive t e then some e.value else none := by
  have hput : Distinct { c with
      entries := Keyed.put key ⟨value, now + c.ttl⟩ c.entries,
      inserts := c.inserts + 1 } :=
    Keyed.nodup_put hc key _
  unfold insert
  dsimp only
  split
  · exact peek_sweep hput h other
  · rfl

/-- A value is remembered for the time to live. -/
theorem peek_insert_self (hc : c.Distinct) (h : now ≤ t) (value : ν) :
    (c.insert now key value).peek t key =
      if t < now + c.ttl then some value else none := by
  rw [peek_insert hc h, Keyed.lookup_put_self]
  simp [CacheEntry.isLive]

/-- An insertion leaves the other keys alone. -/
theorem peek_insert_ne (hc : c.Distinct) (h : now ≤ t) (value : ν)
    (hne : other ≠ key) :
    (c.insert now key value).peek t other = c.peek t other := by
  rw [peek_insert hc h, Keyed.lookup_put_ne hne]
  rfl

theorem Distinct.insert (h : c.Distinct) (now : Int) (key : κ) (value : ν) :
    (c.insert now key value).Distinct := by
  have hput := Keyed.nodup_put h key ⟨value, now + c.ttl⟩
  unfold TimedCache.insert
  dsimp only
  split
  · exact hput.sublist (List.Sublist.map _ List.filter_sublist)
  · exact hput

@[simp] theorem ttl_insert (c : TimedCache κ ν) (now : Int) (key : κ)
    (value : ν) :
    (c.insert now key value).ttl = c.ttl := by
  unfold insert
  dsimp only
  split <;> rfl

/-! ## What is true of all entries -/

/-- Every entry, live or not, is as `P` says of its key and value. -/
def Remembers (P : κ → ν → Prop) (c : TimedCache κ ν) : Prop :=
  ∀ pair ∈ c.entries, P pair.1 pair.2.value

variable {P Q : κ → ν → Prop}

omit [DecidableEq κ] in
theorem remembers_empty (ttl : Int) :
    Remembers P (empty ttl : TimedCache κ ν) := by
  intro pair hpair
  cases hpair

/-- What is read is as is said of all entries. -/
theorem Remembers.of_peek (h : c.Remembers P) {v : ν}
    (hv : c.peek t key = some v) : P key v := by
  obtain ⟨e, hlookup, he⟩ := Option.bind_eq_some_iff.1 hv
  have hmem : (key, e) ∈ c.entries := by
    obtain ⟨before, after, hsplit, -⟩ := List.lookup_eq_some_iff.1 hlookup
    rw [hsplit]
    exact List.mem_append_right _ List.mem_cons_self
  have hvalue : e.value = v := by
    split at he
    · exact Option.some.inj he
    · cases he
  exact hvalue ▸ h _ hmem

theorem Remembers.get (h : c.Remembers P) (now : Int) (key : κ) :
    (c.get now key).2.Remembers P := by
  unfold TimedCache.get
  split
  · exact h
  · split
    · exact h
    · exact fun pair hpair => h pair (Keyed.mem_erase.1 hpair).1

/-- After an insertion every entry is as `Q` says, if the new one is and the
entries of the other keys are. -/
theorem Remembers.insert (h : c.Remembers P) (hc : c.Distinct) {value : ν}
    (hself : Q key value) (hother : ∀ other ≠ key, ∀ v, P other v → Q other v)
    (now : Int) :
    (c.insert now key value).Remembers Q := by
  have hput : ∀ pair ∈ Keyed.put key ⟨value, now + c.ttl⟩ c.entries,
      Q pair.1 pair.2.value := by
    intro pair hpair
    rcases (Keyed.mem_put hc).1 hpair with rfl | ⟨hold, hne⟩
    · exact hself
    · exact hother pair.1 hne _ (h pair hold)
  unfold TimedCache.insert
  dsimp only
  split
  · exact fun pair hpair => hput pair (List.mem_filter.1 hpair).1
  · exact hput

end Ridehail.TimedCache
