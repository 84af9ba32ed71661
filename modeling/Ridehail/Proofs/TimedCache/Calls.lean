import Ridehail.Proofs.TimedCache

/-!
# A cache and the calls it has had

What a cache holds depends on more than what was inserted: a read drops the
entry it finds expired, and an insertion may sweep out the entries of other
keys.  What a cache answers depends on the insertions alone.  A key has the
value of its last insertion until the time to live is over, and none after that,
as if nothing was ever dropped and every answer was looked up in the list of all
past calls.

This needs a clock that does not go back.  A read that finds an entry expired at
one time drops it, and is not to be asked about an earlier time.

## Main results

* `TimedCache.Mirrors.after` — one call keeps a cache in agreement with its past
  calls.
* `TimedCache.mirrors_run` — so does any number of calls.
* `TimedCache.refines_calls` — reads answer from the calls alone, every 64th
  insertion leaves live entries only, and a key without an entry has nothing
  left to be answered.
-/

namespace Ridehail

/-- A call on a cache, and the time of the clock at which it is made. -/
inductive CacheCall (κ ν : Type) where
  | get (clock : Int) (key : κ)
  | insert (clock : Int) (key : κ) (value : ν)
  deriving Repr

namespace CacheCall

variable {κ ν : Type} [DecidableEq κ]

omit [DecidableEq κ] in
/-- When a call is made. -/
def clock : CacheCall κ ν → Int
  | get clock _ => clock
  | insert clock _ _ => clock

omit [DecidableEq κ] in
/-- Whether a call is an insertion, for whichever key. -/
def isInsert : CacheCall κ ν → Bool
  | get _ _ => false
  | insert _ _ _ => true

/-- What a call inserts for a key, and when. -/
def inserted? (key : κ) : CacheCall κ ν → Option (Int × ν)
  | get _ _ => none
  | insert clock other value =>
      if other = key then some (clock, value) else none

end CacheCall

namespace TimedCache

variable {κ ν : Type} [DecidableEq κ] {c : TimedCache κ ν} {ttl now t : Int}
  {key : κ} {past : List (CacheCall κ ν)}

/-- The cache after a call. -/
def after (c : TimedCache κ ν) : CacheCall κ ν → TimedCache κ ν
  | .get clock key => (c.get clock key).2
  | .insert clock key value => c.insert clock key value

/-- The cache after some calls. -/
def run (c : TimedCache κ ν) (calls : List (CacheCall κ ν)) : TimedCache κ ν :=
  calls.foldl after c

/-- The last insertion for a key among past calls. -/
def lastInserted? (past : List (CacheCall κ ν)) (key : κ) : Option (Int × ν) :=
  (past.filterMap (·.inserted? key)).getLast?

/-- The value of a key at a time as its last insertion has it. -/
def ideal (ttl : Int) (past : List (CacheCall κ ν)) (t : Int) (key : κ) :
    Option ν :=
  (lastInserted? past key).bind fun last =>
    if t < last.1 + ttl then some last.2 else none

/-! ## The last insertion -/

theorem lastInserted?_concat (past : List (CacheCall κ ν))
    (call : CacheCall κ ν) (key : κ) :
    lastInserted? (past ++ [call]) key =
      (call.inserted? key).or (lastInserted? past key) := by
  unfold lastInserted?
  rw [List.filterMap_append]
  cases h : call.inserted? key with
  | none => simp [h]
  | some last => simp [h]

theorem ideal_eq_some {v : ν} :
    ideal ttl past t key = some v ↔
      ∃ t₀, lastInserted? past key = some (t₀, v) ∧ t < t₀ + ttl := by
  unfold ideal
  cases lastInserted? past key with
  | none => simp
  | some last => grind

/-! ## Insertions are counted -/

@[simp] theorem inserts_get (c : TimedCache κ ν) (now : Int) (key : κ) :
    (c.get now key).2.inserts = c.inserts := by
  unfold get
  split
  · rfl
  · split <;> rfl

@[simp] theorem inserts_insert (c : TimedCache κ ν) (now : Int) (key : κ)
    (value : ν) :
    (c.insert now key value).inserts = c.inserts + 1 := by
  unfold insert
  dsimp only
  split <;> rfl

/-- When a sweep is due, an insertion leaves only what is live. -/
theorem isLive_of_mem_insert {value : ν} {pair : κ × CacheEntry ν}
    (hdue : (c.inserts + 1) % sweepPeriod = 0)
    (hpair : pair ∈ (c.insert now key value).entries) :
    CacheEntry.isLive now pair.2 = true := by
  unfold insert at hpair
  dsimp only at hpair
  rw [if_pos hdue] at hpair
  exact (List.mem_filter.1 hpair).2

/-- A key that has no entry is not remembered. -/
theorem peek_of_lookup_none (h : c.entries.lookup key = none) (t : Int) :
    c.peek t key = none := by
  rw [peek, h]
  rfl

/-! ## Agreement with the past -/

/-- A cache that has had these calls: from the last of them on, it remembers
what they say. -/
structure Mirrors (ttl : Int) (past : List (CacheCall κ ν))
    (c : TimedCache κ ν) : Prop where
  distinct : c.Distinct
  ttl_eq : c.ttl = ttl
  inserts_eq : c.inserts = past.countP CacheCall.isInsert
  peek_eq : ∀ t key, (∀ call ∈ past, call.clock ≤ t) →
    c.peek t key = ideal ttl past t key

theorem mirrors_empty (ttl : Int) :
    Mirrors ttl [] (empty ttl : TimedCache κ ν) where
  distinct := List.nodup_nil
  ttl_eq := rfl
  inserts_eq := rfl
  peek_eq _ _ _ := rfl

/-- A call keeps a cache in agreement with the calls it has had. -/
theorem Mirrors.after (h : c.Mirrors ttl past) (call : CacheCall κ ν) :
    (c.after call).Mirrors ttl (past ++ [call]) := by
  cases call with
  | get clock key =>
      refine ⟨h.distinct.get clock key,
        (ttl_get c clock key).trans h.ttl_eq, ?_, ?_⟩
      · simpa [TimedCache.after, CacheCall.isInsert] using h.inserts_eq
      · intro t other ht
        obtain ⟨hpast, hcall⟩ := List.forall_mem_append.1 ht
        have hclock : clock ≤ t := hcall _ List.mem_cons_self
        rw [TimedCache.after, peek_get hclock, h.peek_eq t other hpast,
          ideal, ideal, lastInserted?_concat]
        rfl
  | insert clock key value =>
      refine ⟨h.distinct.insert clock key value,
        (ttl_insert c clock key value).trans h.ttl_eq, ?_, ?_⟩
      · simpa [TimedCache.after, CacheCall.isInsert] using h.inserts_eq
      · intro t other ht
        obtain ⟨hpast, hcall⟩ := List.forall_mem_append.1 ht
        have hclock : clock ≤ t := hcall _ List.mem_cons_self
        rw [TimedCache.after, ideal, lastInserted?_concat]
        by_cases hsame : key = other
        · subst hsame
          rw [peek_insert_self h.distinct hclock, h.ttl_eq]
          simp [CacheCall.inserted?]
        · rw [peek_insert_ne h.distinct hclock value (Ne.symm hsame),
            h.peek_eq t other hpast]
          simp [CacheCall.inserted?, hsame, ideal]

/-- So do any number of calls. -/
theorem Mirrors.run (h : c.Mirrors ttl past) (calls : List (CacheCall κ ν)) :
    (c.run calls).Mirrors ttl (past ++ calls) := by
  induction calls generalizing c past with
  | nil => simpa [TimedCache.run] using h
  | cons call rest ih => simpa [TimedCache.run] using ih (h.after call)

theorem mirrors_run (ttl : Int) (calls : List (CacheCall κ ν)) :
    ((empty ttl).run calls).Mirrors ttl calls :=
  (mirrors_empty ttl).run calls

/-- A cache that starts empty answers from the past calls alone: a key has a
value if its last insertion is less than the time to live ago, and it is that
one.  An insertion that is a 64th one leaves no expired entry, and a key that
has no entry has no value either. -/
theorem refines_calls (ttl : Int) (hlater : ∀ call ∈ past, call.clock ≤ now)
    (key : κ) :
    (∀ v, (((empty ttl).run past).get now key).1 = some v ↔
      ∃ t₀, lastInserted? past key = some (t₀, v) ∧ now < t₀ + ttl) ∧
    (∀ value, 64 ∣ past.countP CacheCall.isInsert + 1 →
      ∀ pair ∈ (((empty ttl).run past).insert now key value).entries,
        now < pair.2.expiresAt) ∧
    (((empty ttl).run past).entries.lookup key = none →
      ∀ t₀ v, lastInserted? past key = some (t₀, v) → t₀ + ttl ≤ now) := by
  have hmirrors := mirrors_run ttl past
  have hpeek := hmirrors.peek_eq now key hlater
  refine ⟨fun v => ?_, fun value hdue pair hpair => ?_,
    fun hgone t₀ v hlast => ?_⟩
  · rw [get_fst, hpeek, ideal_eq_some]
  · have hsweep : (((empty ttl).run past).inserts + 1) % sweepPeriod = 0 := by
      rw [hmirrors.inserts_eq]
      exact Nat.mod_eq_zero_of_dvd hdue
    simpa [CacheEntry.isLive] using isLive_of_mem_insert hsweep hpair
  · rw [peek_of_lookup_none hgone] at hpeek
    refine Int.not_lt.1 fun hlive => ?_
    have hsome := ideal_eq_some.2 ⟨t₀, hlast, hlive⟩
    exact Option.some_ne_none v (hsome.symm.trans hpeek.symm)

/-- A key that is never read after its time, and as many later insertions for
other keys as leave the next one to be a 64th. -/
def unread : List (CacheCall Nat Nat) :=
  .insert 0 0 7 :: (List.range 62).map fun n => .insert 61 (n + 1) n

/-- Once its time is over, the unread key has no value, though the last
insertion for it was of seven; the next insertion sweeps it out, and the other
keys keep theirs. -/
theorem refines_calls_unread :
    (∀ call ∈ unread, call.clock ≤ 61) ∧ lastInserted? unread 0 = some (0, 7) ∧
      (((empty 60).run unread).get 61 0).1 = none ∧
      (((empty 60).run unread).get 61 5).1 = some 4 ∧
      ∀ pair ∈ (((empty 60).run unread).insert 61 63 0).entries,
        61 < pair.2.expiresAt := by
  have hlater : ∀ call ∈ unread, call.clock ≤ 61 := by
    simp [unread, CacheCall.clock]
  have hinserts : unread.countP CacheCall.isInsert = 63 := by decide
  have hunread : lastInserted? unread 0 = some (0, 7) := rfl
  have hother : lastInserted? unread 5 = some (61, 4) := rfl
  obtain ⟨hanswer, -, -⟩ := refines_calls 60 hlater 0
  obtain ⟨-, hsweep, -⟩ := refines_calls 60 hlater 63
  refine ⟨hlater, hunread, ?_, ?_, hsweep 0 (by omega)⟩
  · refine Option.eq_none_iff_forall_ne_some.2 fun v hv => ?_
    obtain ⟨t₀, hlast, hlive⟩ := (hanswer v).1 hv
    obtain ⟨rfl, -⟩ := Prod.mk.inj (Option.some.inj (hunread.symm.trans hlast))
    omega
  · exact ((refines_calls 60 hlater 5).1 4).2 ⟨61, hother, by decide⟩

end TimedCache

end Ridehail
