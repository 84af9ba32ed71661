import Ridehail.Proofs.Dispatch.Idle
import Ridehail.Proofs.Dispatch.Operations

/-!
# Runs of the service

A run is any sequence of calls, one after the other, on a service whose store
was empty.  What is not the service's own may be different at every call: the
clock, the flags, and the index, which is a service of its own and may have come
to any state in between.

The points that callers pass are points, that is, in range; nothing else is
asked of arguments.  In particular a record of a ride that is to be matched or
assigned may be of any age.

## Main results

* `World.sound_after`, `World.sound_run` — between two calls the store is sound.
* `World.run_keeps` — a run keeps what every commit keeps.
* `World.idle_after` — a call leaves no available driver on a ride, unless it
  brings a driver online who is on one.
-/

namespace Ridehail

section

variable {σ : Type} [DriverIndex σ]

open Dispatch in
/-- The world after a call, whether it succeeded or not. -/
def World.after (setup : Setup) (w : World σ) : ServiceCall → World σ
  | .createRide rider pickup destination _ =>
      ((createRide setup rider pickup destination).runOn w).2
  | .retryMatching id => ((retryMatching setup.matching id).runOn w).2
  | .matchRide r => ((matchRide setup.matching r).runOn w).2
  | .assignRide r driver => ((assignRide r driver).runOn w).2
  | .startRide id driver => ((startRide id driver).runOn w).2
  | .completeRide id driver fare => ((completeRide id driver fare).runOn w).2
  | .cancelRide id initiatedBy => ((cancelRide id initiatedBy).runOn w).2
  | .registerDriver n => ((registerDriver n).runOn w).2
  | .updateLocation id ping _ => ((updateLocation id ping).runOn w).2
  | .goOnline id place _ => ((goOnline id place).runOn w).2
  | .goOffline id => ((goOffline id).runOn w).2
  | .setEnRoute id => ((setEnRoute id).runOn w).2
  | .sweep at_ => ((sweepAt setup.tracking at_).runOn w).2

/-- A call, and what the rest of the world has come to when it is made. -/
structure Turn (σ : Type) where
  now : Instant
  flags : Flags := .none
  /-- What the index service has done since the last call. -/
  index : σ → σ := id
  call : ServiceCall

/-- The world in which a turn makes its call. -/
def Turn.begin (t : Turn σ) (w : World σ) : World σ :=
  { w with now := t.now, flags := t.flags, index := t.index w.index }

namespace World

/-- The world after a turn. -/
def turn (setup : Setup) (w : World σ) (t : Turn σ) : World σ :=
  (t.begin w).after setup t.call

/-- The world after some turns. -/
def run (setup : Setup) (w : World σ) (turns : List (Turn σ)) : World σ :=
  turns.foldl (turn setup) w

/-- A world whose store the service can have brought about, starting from an
empty one. -/
def Reachable (setup : Setup) (w : World σ) : Prop :=
  ∃ (w₀ : World σ) (turns : List (Turn σ)),
    w₀.store = .empty ∧ w.store = (run setup w₀ turns).store

end World

/-- The call brings a driver online who is offline and on a ride. -/
def ServiceCall.Reopens (s : Store) : ServiceCall → Prop
  | .goOnline id _ _ =>
      (∃ row, s.driver? id = some row ∧ row.status = .offline) ∧ s.Engaged id
  | _ => False

namespace World

/-! ## What calls keep -/

variable {setup : Setup} {w : World σ}

open Dispatch

theorem after_eq_perform (setup : Setup) (w : World σ) (c : ServiceCall) :
    w.after setup c = ((c.perform setup).runOn w).2 := by
  cases c <;> rw [ServiceCall.perform, runOn_map] <;> rfl

/-- A call makes commits of the service, whether it succeeds or not. -/
theorem commits_after (hs : w.store.Sound) (c : ServiceCall) :
    w.Commits setup c (w.after setup c) := by
  have hends := ServiceCall.ends_perform hs setup c
  rw [after_eq_perform]
  unfold Ends at hends
  rcases hrun : (c.perform setup).runOn w with ⟨e | answer, next⟩
  · rw [hrun] at hends
    exact hends.commits
  · rw [hrun] at hends
    exact hends.1

/-- A call other than one to go online only writes what the service writes. -/
theorem served_after (hs : w.store.Sound) {c : ServiceCall}
    (hc : ∀ id place hplace, c ≠ .goOnline id place hplace) :
    w.store.Served (w.after setup c).store :=
  (commits_after hs c).served hs hc

/-- Every call keeps the store sound. -/
theorem sound_after (hs : w.store.Sound) (c : ServiceCall) :
    (w.after setup c).store.Sound :=
  (commits_after hs c).sound hs

/-- A call to go online changes nothing, or makes a driver available who was
offline or available and has a place. -/
theorem after_goOnline (hs : w.store.Sound) (id : DriverId)
    {place : Option GeoPoint} (hplace : ∀ p ∈ place, p.inRange = true) :
    w.after setup (.goOnline id place hplace) = w ∨
      ∃ row, w.store.driver? id = some row ∧
        (row.status = .offline ∨ row.status = .available) ∧
        (∃ p, (row.locatedFrom place w.now).PlacedAt p) ∧
        (w.after setup (.goOnline id place hplace)).store =
          w.store.putDriver
            ((row.locatedFrom place w.now).withStatus .available w.now) := by
  show ((goOnline id place).runOn w).2 = w ∨ ∃ row, _ ∧ _ ∧ _ ∧
    ((goOnline id place).runOn w).2.store = _
  rcases goOnline_refused_or_ok hs id hplace with
    ⟨e, hrun⟩ | ⟨row, hrow, hstatus, d, pings, hrun, -, hplaced⟩
  · left
    rw [hrun]
  · right
    refine ⟨row, hrow, hstatus, hplaced, ?_⟩
    rw [hrun]

/-- A call leaves no available driver on a ride, unless it brings a driver
online who is offline and on one. -/
theorem idle_after (hs : w.store.Sound) (hidle : w.store.Idle) {c : ServiceCall}
    (hc : ¬c.Reopens w.store) : (w.after setup c).store.Idle := by
  by_cases honline : ∃ id place hplace, c = .goOnline id place hplace
  · obtain ⟨id, place, hplace, rfl⟩ := honline
    rcases after_goOnline hs id hplace with
      hsame | ⟨row, hrow, hstatus, -, hstore⟩
    · rwa [hsame]
    · obtain ⟨hmem, hid⟩ := Store.mem_of_driver? hrow
      have hsame : (row.locatedFrom place w.now).id = id := by
        cases place <;> exact hid
      rw [hstore]
      apply hidle.putDriver
      intro _
      show ¬w.store.Engaged (row.locatedFrom place w.now).id
      rw [hsame]
      rcases hstatus with hoffline | havailable
      · exact fun hengaged => hc ⟨⟨row, hrow, hoffline⟩, hengaged⟩
      · exact hid ▸ hidle row hmem havailable
  · refine hidle.served hs (served_after hs fun id place hplace h => ?_)
    exact honline ⟨id, place, hplace, h⟩

/-- A call that brings a driver online who is offline and on a ride makes an
available driver who is on a ride. -/
theorem not_idle_after (hs : w.store.Sound) {c : ServiceCall}
    (hc : c.Reopens w.store) :
    ¬(w.after setup c).store.Idle := by
  cases c with
  | goOnline id place hplace =>
      obtain ⟨⟨row, hrow, hoffline⟩, ride, hride, hholds⟩ := hc
      obtain ⟨hmem, rfl⟩ := Store.mem_of_driver? hrow
      -- The driver of a ride has a place, so going online is not refused for
      -- want of one.
      have hplaced : ∃ p, row.PlacedAt p := by
        obtain ⟨found, p, hfound, hp⟩ :=
          hs.placed ride hride row.id (Store.holdsDriver_iff.1 hholds).1
        rw [hrow] at hfound
        cases hfound
        exact ⟨p, hp⟩
      obtain ⟨d, pings, hrun, -⟩ :=
        goOnline_runOn hs hrow hplace (.inr hplaced) (.inl hoffline)
      intro hidle
      have hid : (row.locatedFrom place w.now).id = row.id := by
        cases place <;> rfl
      have hafter : (w.after setup (.goOnline row.id place hplace)).store =
          w.store.putDriver
            ((row.locatedFrom place w.now).withStatus .available w.now) := by
        show ((goOnline row.id place).runOn w).2.store = _
        rw [hrun]
      rw [hafter] at hidle
      refine hidle ((row.locatedFrom place w.now).withStatus .available
        w.now) ?_ rfl ?_
      · exact Store.mem_putDriver.2 (.inl ⟨rfl, row, hmem, hid.symm⟩)
      · show w.store.Engaged (row.locatedFrom place w.now).id
        rw [hid]
        exact ⟨ride, hride, hholds⟩
  | _ => cases hc

/-! ## What runs keep -/

/-- In a run that starts from an empty store, the store is sound between any two
calls. -/
theorem sound_run (hs : w.store.Sound) (turns : List (Turn σ)) :
    (run setup w turns).store.Sound := by
  induction turns generalizing w with
  | nil => exact hs
  | cons t rest ih =>
      apply ih
      exact sound_after (w := t.begin w) hs t.call

/-- What every commit keeps, and what others may do to the index between two
calls, a run keeps. -/
theorem run_keeps {P : World σ → Prop} (hs : w.store.Sound)
    {turns : List (Turn σ)} (hbegin : ∀ t ∈ turns, ∀ v, P v → P (t.begin v))
    (hcommit : ∀ c v next, v.store.Sound → P v → Commit setup c v next → P next)
    (hw : P w) :
    P (run setup w turns) := by
  induction turns generalizing w with
  | nil => exact hw
  | cons t rest ih =>
      have hcommits : (t.begin w).Commits setup t.call (w.turn setup t) :=
        commits_after (w := t.begin w) hs t.call
      have hbegun : P (t.begin w) := hbegin t List.mem_cons_self w hw
      apply ih (hcommits.sound hs)
        (fun u hu => hbegin u (List.mem_cons_of_mem t hu))
      exact hcommits.keep hs (hcommit t.call) hbegun

theorem reachable_run (h : w.store = .empty) (turns : List (Turn σ)) :
    (run setup w turns).Reachable setup :=
  ⟨w, turns, h, rfl⟩

theorem Reachable.sound (h : w.Reachable setup) : w.store.Sound := by
  obtain ⟨w₀, turns, hempty, hstore⟩ := h
  rw [hstore]
  exact sound_run (hempty ▸ Store.sound_empty) turns

theorem run_append (w : World σ) (turns more : List (Turn σ)) :
    run setup w (turns ++ more) = run setup (run setup w turns) more :=
  List.foldl_append

end World

end

/-! ## An example

One driver is registered, goes online and is given a ride.  The index of the
example has everyone in one place, so that no distances are computed.
-/

/-- An index for which all places are one. -/
structure Roster where
  entries : List IndexedDriver := []

instance : DriverIndex Roster where
  nearest _ count _ i :=
    (.ok ((i.entries.map fun e =>
      { driver := e.driver, distanceKm := (0.0 : Float),
        status := e.status }).take count), i)
  put now driver p status i :=
    (.ok true,
      ⟨⟨driver, p, status, now⟩ :: i.entries.filter (·.driver ≠ driver)⟩)
  remove driver i :=
    (.ok (i.entries.any (·.driver = driver)),
      ⟨i.entries.filter (·.driver ≠ driver)⟩)
  find driver i := (.ok (i.entries.find? (·.driver = driver)), i)

namespace World.Example

/-- Where everything happens. -/
def place : GeoPoint := ⟨40.5, -70.25⟩

theorem inRange_place : place.inRange = true := by decide

theorem inRange_some_place : ∀ p ∈ some place, p.inRange = true := by decide

/-- The beginning. -/
def start : World Roster := { index := {}, now := ⟨0⟩ }

/-- The driver of the example. -/
def dana : NewDriver :=
  { id := "d", name := "Dana", phone := none, licensePlate := none,
    vehicleType := .standard }

/-- The driver is given a ride. -/
def accepted : List (Turn Roster) :=
  [{ now := ⟨1⟩, call := .registerDriver dana },
    { now := ⟨2⟩, call := .goOnline "d" (some place) inRange_some_place },
    { now := ⟨3⟩, call := .createRide "a" place none inRange_place }]

/-- A driver registers and goes online. -/
def arrival {σ : Type} (id : DriverId) (p : GeoPoint) (hp : p.inRange = true)
    (now : Instant) : List (Turn σ) :=
  [{ now, call := .registerDriver
      { id, name := id, phone := none, licensePlate := none,
        vehicleType := .standard } },
    { now, call := .goOnline id (some p) (by simpa using hp) }]

/-- The ride of the example. -/
def trip : RideId := RideId.ofSerial 1

example :
    ((run {} start accepted).store.ride? trip).map
      (fun row => (row.status, row.driver)) =
    some (.accepted, some "d") := by decide +kernel

end World.Example

end Ridehail
