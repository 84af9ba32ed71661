import Ridehail.Proofs.Store.Moves
import Ridehail.Proofs.Store.Rules

/-!
# Clients with old copies

Many clients work on one store.  Each call on the store is atomic, but between
the call that read a record and the call that writes what was decided on it,
any number of other calls may happen.  A *session* is therefore the store
together with every record that was ever handed out, and a call may be made
from any of these records, however old.

The session keeps an invariant, `Session.Coherent`, which says what an old copy
of a ride is worth: either it still agrees with the stored row, or the stored
row has moved on to a later stage of its life.  As no status ever comes back,
the condition on the stored status that every write of a ride makes is enough
to tell the two apart: a write from an old copy whose status is still the
stored one is a write from a true copy.

## Main results

* `Session.ridesChange_next` — what one call can do to the rides: nothing, add a
  requested ride, or move one row.
* `Session.coherent_next`, `Session.coherent_run` — every call, and so every
  run, keeps the invariant.
-/

namespace Ridehail

/-! ## Calls -/

/-- The atomic calls on the store that concern drivers and rides. -/
inductive StoreCall where
  | findDriver (id : DriverId)
  | findRide (id : RideId)
  | insertDriver (d : Driver)
  | locateDriver (id : DriverId) (p : GeoPoint) (at_ : Instant)
  | setDriverStatus (d : Driver) (expected : List DriverStatus)
  | markOfflineIfStale (d : Driver) (expected : DriverStatus) (cutoff : Instant)
  | insertRide (r : Ride)
  | assignRide (r : Ride) (d : Driver)
  | advanceRide (r : Ride) (expected : RideStatus)
  deriving DecidableEq, Repr

namespace StoreCall

/-- What a call writes; a query writes nothing. -/
def write (s : Store) : StoreCall → Written
  | .findDriver _ => .ok (false, s)
  | .findRide _ => .ok (false, s)
  | .insertDriver d => s.insertDriver d
  | .locateDriver id p at_ => s.locateDriver id p at_
  | .setDriverStatus d expected => s.setDriverStatus d expected
  | .markOfflineIfStale d expected cutoff =>
      s.markOfflineIfStale d expected cutoff
  | .insertRide r => s.insertRide r
  | .assignRide r d => s.assignRide r d
  | .advanceRide r expected => s.advanceRide r expected

/-- The rides that a call hands out. -/
def ridesRead (s : Store) : StoreCall → List Ride
  | .findRide id =>
      match s.findRide id with
      | .ok (some r) => [r]
      | _ => []
  | _ => []

/-- The drivers that a call hands out. -/
def driversRead (s : Store) : StoreCall → List Driver
  | .findDriver id =>
      match s.findDriver id with
      | .ok (some d) => [d]
      | _ => []
  | _ => []

/-- Whether a call writes a ride. -/
def writesRide : StoreCall → Bool
  | .insertRide _ => true
  | .assignRide _ _ => true
  | .advanceRide _ _ => true
  | _ => false

/-- When a ride was requested or took the step that a call writes. -/
def time? : StoreCall → Option Instant
  | .insertRide r => some r.createdAt
  | .assignRide r _ => some r.updatedAt
  | .advanceRide r _ => some r.updatedAt
  | _ => none

/-- Every write keeps the rules of the store, whatever its arguments are. -/
theorem lawful_write {s s' : Store} {c : StoreCall} {applied : Bool}
    (hs : s.Lawful) (h : c.write s = .ok (applied, s')) : s'.Lawful := by
  cases c with
  | findDriver id => cases h; exact hs
  | findRide id => cases h; exact hs
  | insertDriver d => exact hs.insertDriver h
  | locateDriver id p at_ => exact hs.changeDriver h
  | setDriverStatus d expected => exact hs.changeDriver h
  | markOfflineIfStale d expected cutoff => exact hs.changeDriver h
  | insertRide r => exact hs.insertRide h
  | assignRide r d => exact hs.assignRide h
  | advanceRide r expected => exact hs.changeRide h

end StoreCall

/-! ## Sessions -/

/-- The store, and all records that were ever read from it. -/
structure Session where
  store : Store := .empty
  rides : List Ride := []
  drivers : List Driver := []
  deriving Repr

namespace Session

/-- The session at the beginning. -/
def empty : Session := {}

/-- The session after a call.  A call that fails leaves the store as it was. -/
def next (s : Session) (c : StoreCall) : Session :=
  { store := match c.write s.store with
      | .ok (_, store) => store
      | .error _ => s.store
    rides := c.ridesRead s.store ++ s.rides
    drivers := c.driversRead s.store ++ s.drivers }

/-- The session after some calls. -/
def run (s : Session) (calls : List StoreCall) : Session := calls.foldl next s

/-- Whether a client can make a call.  A ride that is inserted is a new one, an
assignment writes what a ride and a driver that were read become by it, and a
step of a ride is written from a ride that was read, under the status it had. -/
def Allows (s : Session) : StoreCall → Prop
  | .insertRide r => r.Fresh
  | .assignRide r d =>
      ∃ old ∈ s.rides, ∃ idle ∈ s.drivers,
        (∃ at_, old.accept idle.id at_ = .ok r) ∧
          ∃ at_, idle.startRide at_ = .ok d
  | .advanceRide r expected =>
      ∃ old ∈ s.rides, old.StepsTo r ∧ expected = old.status
  | _ => True

/-- Whether clients can make the calls one after the other. -/
def Permits (s : Session) : List StoreCall → Prop
  | [] => True
  | c :: rest => s.Allows c ∧ (s.next c).Permits rest

theorem run_append (s : Session) (calls more : List StoreCall) :
    s.run (calls ++ more) = (s.run calls).run more :=
  List.foldl_append

theorem permits_append {s : Session} {calls more : List StoreCall} :
    s.Permits (calls ++ more) ↔
      s.Permits calls ∧ (s.run calls).Permits more := by
  induction calls generalizing s with
  | nil => simp [Permits, run]
  | cons c rest ih =>
      show s.Allows c ∧ (s.next c).Permits (rest ++ more) ↔ _
      rw [ih]
      exact and_assoc.symm

/-! ## What old copies are worth -/

/-- The invariant of sessions. -/
structure Coherent (s : Session) : Prop where
  lawful : s.store.Lawful
  shaped : ∀ row ∈ s.store.rides, row.Shaped
  /-- A copy is a true copy, or the stored ride has left its status behind. -/
  copies : ∀ r ∈ s.rides, ∃ row, s.store.ride? r.id = some row ∧
    (row.read = .ok r ∨ r.status.stage < row.status.stage)

theorem coherent_empty : empty.Coherent where
  lawful := Store.lawful_empty
  shaped := fun _ h => by cases h
  copies := fun _ h => by cases h

/-- A copy whose status is the stored one is a true copy. -/
theorem Coherent.read_eq {s : Session} (h : s.Coherent) {old : Ride}
    {row : RideRow} (hold : old ∈ s.rides)
    (hrow : s.store.ride? old.id = some row)
    (hstatus : row.status = old.status) : row.read = .ok old := by
  obtain ⟨stored, hstored, hread | hlate⟩ := h.copies old hold
  · rw [hrow] at hstored
    rwa [Option.some.inj hstored]
  · rw [hrow] at hstored
    rw [← Option.some.inj hstored, hstatus] at hlate
    exact absurd hlate (Nat.lt_irrefl _)

end Session

/-! ## What a call does to the rides -/

/-- What one call can do to the rides of a store: nothing, add a new ride, or
move one row. -/
inductive RidesChange (s : Store) (time? : Option Instant) (s' : Store) : Prop
  | kept (h : s'.rides = s.rides)
  | added (r : Ride) (hfresh : r.Fresh) (htime : time? = some r.createdAt)
      (hnew : s.ride? r.id = none)
      (h : s'.rides = s.rides ++ [RideRow.ofRide r])
  | moved (at_ : Instant) (row later : RideRow)
      (hrow : s.ride? row.id = some row) (htime : time? = some at_)
      (hmove : row.MovesTo at_ later)
      (h : s'.rides = (s.putRide later).rides)

namespace RidesChange

variable {s s' : Store} {time? : Option Instant}

/-- A stored ride is still there after a call, as it was or moved. -/
theorem ride? (h : RidesChange s time? s') {id : RideId} {row : RideRow}
    (hrow : s.ride? id = some row) :
    s'.ride? id = some row ∨
      ∃ at_ later, time? = some at_ ∧ row.MovesTo at_ later ∧
        s'.ride? id = some later := by
  cases h with
  | kept h => exact .inl (by rw [Store.ride?, h]; exact hrow)
  | added r hfresh htime hnew h =>
      left
      rw [Store.ride?, h, List.find?_append]
      exact congrArg (Option.or · _) hrow
  | moved at_ old later hold htime hmove h =>
      have hfind : s'.ride? id = (s.putRide later).ride? id := by
        rw [Store.ride?, h]
        rfl
      by_cases hid : id = later.id
      · rw [hid, hmove.id_eq, hold] at hrow
        cases hrow
        rw [← hmove.id_eq] at hold
        exact .inr ⟨at_, later, htime, hmove, by
          rw [hfind, hid, Store.ride?_putRide_self hold]⟩
      · exact .inl (by rw [hfind, Store.ride?_putRide_ne hid]; exact hrow)

/-- A ride that is there after a call was there before, as it is or not yet
moved, or is a new one. -/
theorem mem (h : RidesChange s time? s') {later : RideRow}
    (hmem : later ∈ s'.rides) :
    later ∈ s.rides ∨ (∃ r : Ride, r.Fresh ∧ time? = some r.createdAt ∧
        later = RideRow.ofRide r) ∨
      ∃ at_, ∃ row ∈ s.rides, time? = some at_ ∧ row.MovesTo at_ later := by
  cases h with
  | kept h =>
      rw [h] at hmem
      exact .inl hmem
  | added r hfresh htime hnew h =>
      rw [h] at hmem
      rcases List.mem_append.1 hmem with hmem | hmem
      · exact .inl hmem
      · exact .inr (.inl ⟨r, hfresh, htime, List.mem_singleton.1 hmem⟩)
  | moved at_ row next hrow htime hmove h =>
      rw [h] at hmem
      rcases Store.mem_putRide.1 hmem with ⟨rfl, -⟩ | ⟨hmem, -⟩
      · exact .inr (.inr ⟨at_, row, (Store.mem_of_ride? hrow).1, htime, hmove⟩)
      · exact .inl hmem

end RidesChange

namespace Session

variable {s : Session} {c : StoreCall}

theorem write_unapplied {st st' : Store} (h : c.write st = .ok (false, st')) :
    st' = st := by
  cases c with
  | findDriver id => cases h; rfl
  | findRide id => cases h; rfl
  | insertDriver d => exact Store.insertDriver_unapplied h
  | locateDriver id p at_ => exact Store.changeDriver_unapplied h
  | setDriverStatus d expected => exact Store.changeDriver_unapplied h
  | markOfflineIfStale d expected cutoff => exact Store.changeDriver_unapplied h
  | insertRide r => exact Store.insertRide_unapplied h
  | assignRide r d => exact Store.assignRide_unapplied h
  | advanceRide r expected => exact Store.changeRide_unapplied h

/-- A call that a client can make changes the rides in one of the three ways. -/
theorem ridesChange_write (hs : s.Coherent) (hc : s.Allows c) {st : Store}
    (h : c.write s.store = .ok (true, st)) :
    RidesChange s.store c.time? st := by
  cases c with
  | findDriver id => cases h
  | findRide id => cases h
  | insertDriver d =>
      obtain ⟨-, -, rfl⟩ := Store.insertDriver_applied h
      exact .kept rfl
  | locateDriver id p at_ =>
      obtain ⟨row, -, -, -, rfl⟩ := Store.changeDriver_applied h
      exact .kept rfl
  | setDriverStatus d expected =>
      obtain ⟨row, -, -, -, rfl⟩ := Store.changeDriver_applied h
      exact .kept rfl
  | markOfflineIfStale d expected cutoff =>
      obtain ⟨row, -, -, -, rfl⟩ := Store.changeDriver_applied h
      exact .kept rfl
  | insertRide r =>
      obtain ⟨-, hnew, -, rfl⟩ := Store.insertRide_applied h
      exact .added r hc rfl hnew rfl
  | assignRide r d =>
      obtain ⟨old, hold, idle, hidle, ⟨at_, haccept⟩, busyAt, hstart⟩ := hc
      obtain ⟨driver, row, -, -, -, hrow, hstatus, -, rfl⟩ :=
        Store.assignRide_applied h
      have hid : d.id = idle.id := by
        rw [(Driver.startRide_eq_ok.1 hstart).2]
        rfl
      have hmove := RideRow.movesTo_assigned hstatus haccept
      rw [← hid] at hmove
      exact .moved r.updatedAt row _ ((Store.mem_of_ride? hrow).2 ▸ hrow)
        rfl hmove rfl
  | advanceRide r expected =>
      obtain ⟨old, hold, hstep, rfl⟩ := hc
      obtain ⟨row, hrow, hstatus, -, rfl⟩ := Store.changeRide_applied h
      have hstatus : row.status = old.status := by simpa using hstatus
      -- The write applied, so the copy is a true one, and nothing is lost by
      -- writing from it.
      have hread := hs.read_eq hold (hstep.id_eq ▸ hrow) hstatus
      have hfare := (hs.shaped row (Store.mem_of_ride? hrow).1).fare_eq_none
        (hstatus ▸ hstep.status_ne)
      exact .moved r.updatedAt row _ ((Store.mem_of_ride? hrow).2 ▸ hrow) rfl
        (RideRow.movesTo_advanced hread hfare hstep) rfl

/-- What one call of a client does to the rides. -/
theorem ridesChange_next (hs : s.Coherent) (hc : s.Allows c) :
    RidesChange s.store c.time? (s.next c).store := by
  show RidesChange s.store c.time? (match c.write s.store with
    | .ok (_, store) => store
    | .error _ => s.store)
  cases hwrite : c.write s.store with
  | error fault => exact .kept rfl
  | ok written =>
      obtain ⟨applied, st⟩ := written
      cases applied with
      | false => exact .kept (by rw [write_unapplied hwrite])
      | true => exact ridesChange_write hs hc hwrite

/-! ## The invariant along runs -/

theorem lawful_next (hs : s.store.Lawful) : (s.next c).store.Lawful := by
  show Store.Lawful (match c.write s.store with
    | .ok (_, store) => store
    | .error _ => s.store)
  cases hwrite : c.write s.store with
  | error fault => exact hs
  | ok written => exact StoreCall.lawful_write hs hwrite

theorem read_of_ridesRead {st : Store} {r : Ride} (h : r ∈ c.ridesRead st) :
    (∃ id, c = .findRide id) ∧ ∃ row,
      st.ride? r.id = some row ∧ row.read = .ok r := by
  cases c with
  | findRide id =>
      simp only [StoreCall.ridesRead] at h
      split at h
      · rename_i found hfound
        obtain ⟨row, hrow, hread⟩ := Store.findRide_eq_some.1 hfound
        rw [List.mem_singleton.1 h, (RideRow.read_eq_ok hread).1,
          (Store.mem_of_ride? hrow).2]
        exact ⟨⟨id, rfl⟩, row, hrow, hread⟩
      · cases h
  | _ => cases h

/-- Every call that a client can make keeps the invariant. -/
theorem coherent_next (hs : s.Coherent) (hc : s.Allows c) :
    (s.next c).Coherent where
  lawful := lawful_next hs.lawful
  shaped := by
    intro later hlater
    rcases (ridesChange_next hs hc).mem hlater with hold | ⟨r, hfresh, -, rfl⟩ |
      ⟨at_, row, hrow, -, hmove⟩
    · exact hs.shaped later hold
    · exact hfresh.shaped
    · exact hmove.shaped (hs.shaped row hrow)
  copies := by
    intro r hr
    rcases List.mem_append.1 hr with hread | hold
    · obtain ⟨⟨id, rfl⟩, row, hrow, hread⟩ := read_of_ridesRead hread
      exact ⟨row, hrow, .inl hread⟩
    · obtain ⟨row, hrow, hworth⟩ := hs.copies r hold
      rcases (ridesChange_next hs hc).ride? hrow with
        hsame | ⟨at_, later, -, hmove, hlater⟩
      · exact ⟨row, hsame, hworth⟩
      · -- A copy that was true until now is behind by this move, one that was
        -- behind by more.
        refine ⟨later, hlater, .inr ?_⟩
        have hstage := hmove.precedes.stage_lt
        rcases hworth with hread | hlate
        · rw [(RideRow.read_eq_ok hread).2.2.2.1]
          exact hstage
        · omega

theorem coherent_run {calls : List StoreCall} (hs : s.Coherent)
    (hc : s.Permits calls) :
    (s.run calls).Coherent := by
  induction calls generalizing s with
  | nil => exact hs
  | cons c rest ih => exact ih (coherent_next hs hc.1) hc.2

/-! ## An example

Two riders wait, and one client assigns the first of them to the only driver.
The driver then leaves and comes back, so that the stored status is again the
one that other clients have in their copies.
-/

namespace Example

/-- Where everything happens. -/
def place : GeoPoint := ⟨40.5, -70.25⟩

/-- The driver as they were read. -/
def idle : Driver :=
  ((Driver.register "d" "Dana" ⟨0⟩).locate place ⟨1⟩).withStatus .available ⟨2⟩

/-- The ride that is assigned. -/
def first : Ride := Ride.request ⟨1⟩ "a" place none ⟨3⟩

/-- The ride that is left waiting. -/
def second : Ride := Ride.request ⟨2⟩ "b" place none ⟨4⟩

/-- A ride as it is given to the driver. -/
def taken (r : Ride) : Ride :=
  { r with
    driver := some "d", status := .accepted, acceptedAt := some ⟨5⟩,
    updatedAt := ⟨5⟩ }

/-- The calls. -/
def calls : List StoreCall :=
  [.insertDriver (Driver.register "d" "Dana" ⟨0⟩), .locateDriver "d" place ⟨1⟩,
    .setDriverStatus idle [.offline], .findDriver "d", .insertRide first,
    .findRide first.id, .insertRide second, .findRide second.id,
    .assignRide (taken first) (idle.withStatus .busy ⟨5⟩),
    .setDriverStatus (idle.withStatus .offline ⟨6⟩) [.busy],
    .setDriverStatus (idle.withStatus .available ⟨7⟩) [.offline]]

theorem permits_calls : empty.Permits calls := by
  have hplace : place.lat.isNaN = false ∧ place.lng.isNaN = false := by decide
  have hfirst : first.Fresh :=
    ⟨_, _, place, _, _, none, hplace.1, hplace.2, rfl⟩
  have hsecond : second.Fresh :=
    ⟨_, _, place, _, _, none, hplace.1, hplace.2, rfl⟩
  refine ⟨trivial, trivial, trivial, trivial, hfirst, trivial, hsecond,
    trivial, ?_, trivial, trivial, trivial⟩
  exact ⟨first, by decide, idle, by decide, ⟨⟨5⟩, rfl⟩, ⟨5⟩, rfl⟩

end Example

end Session

end Ridehail
