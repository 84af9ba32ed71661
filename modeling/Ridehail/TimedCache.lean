import Ridehail.Keyed

/-!
# Timed caches

A value that was inserted at `t` is there for reads before `t + ttl`. Expired
entries are dropped when their key is read, and all of them at every 64th
insertion, so that keys which are never read again do not pile up.
-/

namespace Ridehail

/-- A cached value and the first moment at which it is gone. -/
structure CacheEntry (ν : Type) where
  value : ν
  expiresAt : Int
  deriving Repr

/-- A map whose values expire `ttl` milliseconds after they were inserted. -/
structure TimedCache (κ ν : Type) where
  ttl : Int
  entries : List (κ × CacheEntry ν)
  inserts : Nat
  deriving Repr

namespace TimedCache

variable {κ ν : Type} [DecidableEq κ]

/-- After how many insertions the expired entries are swept out. -/
def sweepPeriod : Nat := 64

/-- A cache with nothing in it. -/
def empty (ttl : Int) : TimedCache κ ν := ⟨ttl, [], 0⟩

/-- Whether an entry is still there at `now`. -/
def CacheEntry.isLive (now : Int) (e : CacheEntry ν) : Bool := now < e.expiresAt

/-- The value of a key at `now`; an expired entry is dropped. -/
def get (c : TimedCache κ ν) (now : Int) (key : κ) :
    Option ν × TimedCache κ ν :=
  match c.entries.lookup key with
  | none => (none, c)
  | some e =>
      if CacheEntry.isLive now e then (some e.value, c)
      else (none, { c with entries := Keyed.erase key c.entries })

/-- The cache without the entries that are expired at `now`. -/
def sweep (c : TimedCache κ ν) (now : Int) : TimedCache κ ν :=
  { c with
    entries := c.entries.filter fun pair => CacheEntry.isLive now pair.2 }

/-- Lets a key stand for a value from `now` on. -/
def insert (c : TimedCache κ ν) (now : Int) (key : κ) (value : ν) :
    TimedCache κ ν :=
  let next : TimedCache κ ν :=
    { c with
      entries := Keyed.put key ⟨value, now + c.ttl⟩ c.entries
      inserts := c.inserts + 1 }
  if next.inserts % sweepPeriod = 0 then next.sweep now else next

/-- How many entries are held, expired ones included. -/
def size (c : TimedCache κ ν) : Nat := c.entries.length

end TimedCache

end Ridehail
