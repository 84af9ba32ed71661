import Ridehail.Proofs.Dispatch.Choice
import Ridehail.Proofs.Index.Nearest
import Ridehail.Proofs.Platform

/-!
# The two strategies on an index in memory

An index in memory answers with its candidates in order of their distance.  The
first one that is available is then a nearest one, and it is the one that is
chosen among equally near ones as well, so both strategies choose the same
candidate.

That has to be said of more lists than those that the index answers with,
because after a lost offer the strategy chooses from what is left.  A list from
which entries are dropped is still in order, so the two strategies offer the
ride to the same drivers, one after the other, and which of them is switched on
makes no difference to anything.

## Main results

* `Strategy.select?_eq_of_ordered` — the choice from a list in order of
  distance.
* `Dispatch.claimOneOf_eq_of_ordered` — the offers that are made.
* `Platform.strategies_coincide` — all runs of all services.
-/

namespace Ridehail

/-! ## The choice -/

/-- The candidates are in order of their distance. -/
def Candidate.Ordered (candidates : List Candidate) : Prop :=
  candidates.Pairwise fun a b => Double.totalLe a.distanceKm b.distanceKm = true

namespace Strategy

variable {candidates : List Candidate}

/-- Of candidates in order of their distance, the first one is a nearest one. -/
theorem Foremost.nearest_of_first {meets : Candidate → Prop} {c : Candidate}
    (hordered : Candidate.Ordered candidates)
    (h : first.Foremost meets candidates c) :
    nearest.Foremost meets candidates c := by
  obtain ⟨before, after, rfl, hc, hbefore, -⟩ := h
  refine ⟨before, after, rfl, hc, fun x hx hmeets => (hbefore x hx hmeets).elim,
    fun x hx _ => ?_⟩
  have hafter :=
    (List.pairwise_cons.1 (List.pairwise_append.1 hordered).2.1).1 x hx
  simp only [Prefers, Double.totalLe, Double.totalLt,
    decide_eq_true_eq] at hafter ⊢
  omega

/-- From candidates in order of their distance both strategies choose the same
one. -/
theorem select?_eq_of_ordered (hordered : Candidate.Ordered candidates) :
    first.select? candidates = nearest.select? candidates := by
  cases hfirst : first.select? candidates with
  | none =>
      cases hnearest : nearest.select? candidates with
      | none => rfl
      | some c =>
          have hc := foremost_of_select? hnearest
          exact absurd hc.holds (select?_eq_none hfirst c hc.mem)
  | some c =>
      have hc := foremost_of_select? hfirst
      cases hnearest : nearest.select? candidates with
      | none => exact absurd hc.holds (select?_eq_none hnearest c hc.mem)
      | some d =>
          rw [(hc.nearest_of_first hordered).unique
            (foremost_of_select? hnearest)]

/-- It is the same one whether the flag is set or not. -/
theorem select?_ofAdvanced (hordered : Candidate.Ordered candidates)
    (advanced : Bool) :
    (ofAdvanced advanced).select? candidates = first.select? candidates := by
  cases advanced with
  | false => rfl
  | true => exact (select?_eq_of_ordered hordered).symm

example :
    let near : Candidate :=
      { driver := "n", distanceKm := (1.0 : Float), status := .available }
    let far : Candidate :=
      { driver := "f", distanceKm := (2.0 : Float), status := .available }
    first.select? [near, far] = some near ∧
      nearest.select? [near, far] = some near ∧
      first.select? [far, near] = some far ∧
      nearest.select? [far, near] = some near := by
  decide +kernel

end Strategy

/-! ## The offers -/

namespace Dispatch

variable {σ : Type} [DriverIndex σ]

theorem claimOneOf_eq (policy : MatchingPolicy) (strategy : Strategy) (r : Ride)
    (candidates : List Candidate) :
    (claimOneOf policy strategy r candidates : Dispatch σ (Option Ride)) =
      match strategy.select? candidates with
      | none => return none
      | some chosen => do
          match ← assignRide r chosen.driver with
          | some accepted => return some accepted
          | none =>
              if policy.retryNext then
                claimOneOf policy strategy r
                  (othersThan chosen.driver candidates)
              else return none := by
  rw [claimOneOf]
  split
  · rename_i hnone
    exact hnone ▸ rfl
  · rename_i chosen hchosen
    exact hchosen ▸ rfl

/-- Candidates in order of their distance are offered the ride in the same
order, whatever the strategy is. -/
theorem claimOneOf_eq_of_ordered (policy : MatchingPolicy) (r : Ride)
    {candidates : List Candidate} (hordered : Candidate.Ordered candidates)
    (advanced other : Bool) :
    (claimOneOf policy (.ofAdvanced advanced) r candidates :
      Dispatch σ (Option Ride)) =
      claimOneOf policy (.ofAdvanced other) r candidates := by
  -- What is left after a lost offer is shorter, and still in order.
  induction h : candidates.length using Nat.strongRecOn
      generalizing candidates with
  | ind n ih =>
      have hselect : (Strategy.ofAdvanced advanced).select? candidates =
          (Strategy.ofAdvanced other).select? candidates := by
        rw [Strategy.select?_ofAdvanced hordered,
          Strategy.select?_ofAdvanced hordered]
      rw [claimOneOf_eq, claimOneOf_eq, hselect]
      cases hchosen : (Strategy.ofAdvanced other).select? candidates with
      | none => rfl
      | some chosen =>
          have hrest := ih _ (h ▸ length_othersThan_lt hchosen)
            (hordered.sublist List.filter_sublist) rfl
          simp only [othersThan] at hrest ⊢
          rw [hrest]

end Dispatch

/-! ## Runs -/

/-- The worlds are the same, but for the flag that chooses the strategy. -/
def World.SameButStrategy (w v : World MemoryIndex) : Prop :=
  ∃ flags : Flags, v = { w with flags := flags } ∧
    ∀ name ≠ advancedMatching, flags.isEnabled name = w.flags.isEnabled name

/-- Nothing that the service does tells the two worlds apart. -/
theorem World.matchPaired_sameButStrategy :
    World.MatchPaired (fun _ => True) World.SameButStrategy where
  store_eq := by
    rintro w _ ⟨flags, rfl, -⟩
    rfl
  now_eq := by
    rintro w _ ⟨flags, rfl, -⟩
    rfl
  flag_eq := by
    rintro w _ ⟨flags, rfl, hflags⟩
    exact hflags
  write := by
    rintro w _ s' ⟨flags, rfl, hflags⟩ -
    exact ⟨flags, rfl, hflags⟩
  publish := by
    rintro w _ e ⟨flags, rfl, hflags⟩
    exact ⟨flags, rfl, hflags⟩
  put := by
    rintro w _ now id p status ⟨flags, rfl, hflags⟩
    exact ⟨flags, rfl, hflags⟩
  remove := by
    rintro w _ id ⟨flags, rfl, hflags⟩
    exact ⟨flags, rfl, hflags⟩
  drawn_eq := by
    rintro w _ ⟨flags, rfl, -⟩
    rfl
  draw := by
    rintro w _ ⟨flags, rfl, hflags⟩
    exact ⟨flags, rfl, hflags⟩
  request := by
    rintro w _ r s' ⟨flags, rfl, hflags⟩ - -
    exact ⟨flags, rfl, hflags⟩
  nearest_eq := by
    rintro w _ p count radiusKm ⟨flags, rfl, -⟩
    rfl
  nearest := by
    rintro w _ p count radiusKm ⟨flags, rfl, hflags⟩
    exact ⟨flags, rfl, hflags⟩
  claim_eq := by
    rintro w _ p count radiusKm found policy r ⟨flags, rfl, -⟩ hfound
    apply Dispatch.claimOneOf_eq_of_ordered
    rw [MemoryIndex.nearest_eq] at hfound
    dsimp only at hfound
    split at hfound
    · cases hfound
    · cases hfound
      exact MemoryIndex.pairwise_totalLe_nearestOf

/-- The turn with another value of the flag that chooses the strategy. -/
def PlatformTurn.withStrategy {σ : Type} (t : PlatformTurn σ)
    (advanced : Bool) : PlatformTurn σ :=
  { t with flags := t.flags.set advancedMatching advanced }

theorem Flags.isEnabled_set_ne (flags : Flags) {name other : String}
    (h : other ≠ name) (enabled : Bool) :
    (flags.set name enabled).isEnabled other = flags.isEnabled other := by
  rw [isEnabled, isEnabled, set, Keyed.lookup_put_ne h]

namespace Platform

/-- Two runs of the same turns keep together, whatever strategies they use. -/
theorem run_withStrategy (setup : Setup)
    (turns : List (PlatformTurn MemoryIndex)) (advanced : Nat → Bool)
    {p q : Platform MemoryIndex} (hbeside : p.Beside World.SameButStrategy q) :
    let one := p.run setup turns
    let two := q.run setup (turns.mapIdx fun n t => t.withStrategy (advanced n))
    two.1 = one.1 ∧ one.2.Beside World.SameButStrategy two.2 := by
  induction turns generalizing advanced p q with
  | nil => exact ⟨rfl, hbeside⟩
  | cons t rest ih =>
      have hworlds : World.SameButStrategy (p.begin t).world
          (q.begin (t.withStrategy (advanced 0))).world := by
        obtain ⟨flags, hq, -⟩ := hbeside.world
        refine ⟨t.flags.set advancedMatching (advanced 0), ?_, fun name hname =>
          t.flags.isEnabled_set_ne hname _⟩
        rw [begin, begin, hq]
        rfl
      have hbegin : (p.begin t).Beside World.SameButStrategy
          (q.begin (t.withStrategy (advanced 0))) :=
            ⟨hworlds, hbeside.surge, rfl⟩
      have hcall :=
        PlatformCall.follows_perform World.matchPaired_sameButStrategy
          setup t.call
      obtain ⟨hsame, hnext⟩ := hcall _ _ hbegin
      obtain ⟨hothers, hlast⟩ := ih (fun n => advanced (n + 1)) hnext
      rw [List.mapIdx_cons]
      refine ⟨?_, hlast⟩
      show _ :: _ = _ :: _
      rw [← hothers]
      exact congrArg (· :: _) hsame

/-- Take any run of all services on an index in memory, from any platform on:
whatever the index holds and however often it fails or is changed by others.
With other values of the flag that chooses the strategy, in any of the turns,
every call has the same outcome, and the run leaves the same store, the same
index, the same events and the same prices. -/
theorem strategies_coincide (setup : Setup) (p : Platform MemoryIndex)
    (turns : List (PlatformTurn MemoryIndex)) (advanced : Nat → Bool) :
    let one := p.run setup turns
    let two := p.run setup (turns.mapIdx fun n t => t.withStrategy (advanced n))
    two.1 = one.1 ∧ two.2.world.store = one.2.world.store ∧
      two.2.world.index = one.2.world.index ∧
      two.2.world.log = one.2.world.log ∧
      two.2.surge = one.2.surge := by
  have hself : p.Beside World.SameButStrategy p :=
    ⟨⟨p.world.flags, rfl, fun _ _ => rfl⟩, rfl, rfl⟩
  obtain ⟨hanswers, ⟨flags, hworld, -⟩, hsurge, -⟩ :=
    run_withStrategy setup turns advanced hself
  refine ⟨hanswers, ?_, ?_, ?_, hsurge⟩
  all_goals rw [hworld]

end Platform

end Ridehail
