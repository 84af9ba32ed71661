import Ridehail.Proofs.Store.Lifecycle
import Ridehail.Proofs.Store.Readback

/-!
# The history of rides

Of the rides a write adds one row or moves one, and the row that it writes is
all that there is to know of it.  `Store.Records` says that some rows are what
was written between two stores, in that order.  Taken by itself, each ride lives
through the rows of its own: `RideRow.Life`.

How many rows there were, and when they were written, can be read off the last
of them, because a move fills a column with the time at which it is made, and no
time column is ever emptied.

The history also says what a record is worth that was read some time ago: it is
true still, or the ride has gone on.

## Main results

* `Store.Records.life` — the rows that were written of one ride are its life.
* `RideRow.Life.path`, `Life.stamps` — their statuses are a path, and the times
  at which they were written are those that the last of them holds.
* `Store.KnewRide.records` — a copy may grow old, but does not become false.
-/

namespace Ridehail

/-! ## The life of one row -/

namespace RideRow

/-- The rows that one ride goes through, from the one it has, or from its
request on if it has none, to the one that it has in the end. -/
inductive Life : Option RideRow → List RideRow → Option RideRow → Prop
  | nil (row : Option RideRow) : Life row [] row
  | request {r : Ride} {rows : List RideRow} {last : Option RideRow}
      (hr : r.Fresh)
      (h : Life (some (ofRide r)) rows last) : Life none (ofRide r :: rows) last
  | move {row later : RideRow} {rows : List RideRow} {last : Option RideRow}
      (hmove : row.MovesTo later.updatedAt later)
      (h : Life (some later) rows last) :
      Life (some row) (later :: rows) last

namespace Life

variable {first last : Option RideRow} {rows : List RideRow}

theorem path (h : Life first rows last) :
    RideStatus.Path (first.map (·.status)) (rows.map (·.status)) := by
  induction h with
  | nil row => exact .nil _
  | request hr h ih =>
      have hstatus : (ofRide _).status = .requested := hr.status_eq
      rw [Option.map_some, hstatus] at ih
      rw [Option.map_none, List.map_cons, hstatus]
      exact .first ih
  | move hmove h ih => exact .step hmove.precedes ih

/-- A life ends with the row that was written last. -/
theorem getLast? (h : Life first rows last) :
    rows.getLast?.or first = last := by
  induction h with
  | nil row => rfl
  | request hr h ih =>
      rw [List.getLast?_cons, Option.some_or, ← ih, Option.or_some]
  | move hmove h ih =>
      rw [List.getLast?_cons, Option.some_or, ← ih, Option.or_some]

/-- The statuses of the rows, and when they were written, go on with the history
that is there. -/
theorem history (h : Life first rows last)
    (hfirst : ∀ row ∈ first, row.Shaped) :
    first.elim [] (·.history) ++
      rows.map (fun row => (row.status, row.updatedAt)) =
      last.elim [] (·.history) := by
  induction h with
  | nil row => exact List.append_nil _
  | @request r rows last hr h ih =>
      rw [← ih fun row hrow => by cases hrow; exact hr.shaped]
      have hstatus : (ofRide r).status = .requested := hr.status_eq
      show ((ofRide r).status, r.updatedAt) :: _ = RideRow.history _ ++ _
      rw [hr.history_eq, hstatus]
      rfl
  | move hmove h ih =>
      have hshaped := hfirst _ rfl
      rw [← ih fun row hrow => by cases hrow; exact hmove.shaped hshaped]
      show _ ++ _ :: _ = RideRow.history _ ++ _
      rw [hmove.history_eq hshaped, List.append_assoc]
      rfl

/-- The times at which rows were written are added to those that are there. -/
theorem stamps (h : Life first rows last) (hfirst : ∀ row ∈ first, row.Shaped) :
    first.elim [] (·.stamps) ++ rows.map (·.updatedAt) =
      last.elim [] (·.stamps) := by
  have hstamps (row : Option RideRow) :
      (row.elim [] (·.history)).map Prod.snd = row.elim [] (·.stamps) := by
    cases row with
    | none => rfl
    | some row => exact row.map_snd_history
  have hhistory := congrArg (List.map Prod.snd) (h.history hfirst)
  rwa [List.map_append, hstamps, hstamps, List.map_map] at hhistory

/-- What the first row and those after it have, the last one has. -/
theorem growsTo {row later : RideRow} (h : Life first rows (some later))
    (hfirst : ∀ row ∈ first, row.Shaped) (hrow : row ∈ first.toList ++ rows) :
    row.GrowsTo later := by
  generalize hlast : some later = last at h
  induction h generalizing row with
  | nil same =>
      cases hlast
      rw [List.mem_singleton.1 hrow]
      exact .refl later
  | request hr h ih =>
      exact ih (fun row hrow => by cases hrow; exact hr.shaped) hrow hlast
  | @move old moved rows last hmove h ih =>
      have hshaped : old.Shaped := hfirst old rfl
      have hmoved : ∀ row ∈ some moved, row.Shaped := fun row hrow => by
        cases hrow
        exact hmove.shaped hshaped
      rcases List.mem_cons.1 hrow with rfl | hrow
      · exact (hmove.growsTo hshaped).trans (ih hmoved List.mem_cons_self hlast)
      · exact ih hmoved hrow hlast

/-- Of the rows that were written the last is the one that the ride has in the
end, and those before it are at earlier stages. -/
theorem eq_concat (h : Life first rows last) (hrows : rows ≠ []) :
    ∃ before row, rows = before ++ [row] ∧ last = some row ∧
      ∀ b ∈ before, b.status.stage < row.status.stage := by
  obtain ⟨before, row, rfl⟩ := (List.eq_nil_or_concat rows).resolve_left hrows
  rw [List.concat_eq_append] at h ⊢
  have hlast := h.getLast?
  rw [List.getLast?_append, List.getLast?_singleton, Option.some_or,
    Option.some_or] at hlast
  refine ⟨before, row, rfl, hlast.symm, fun b hb => ?_⟩
  have hordered := (List.pairwise_append.1 h.path.pairwise_stage).2.1
  rw [List.map_append, List.pairwise_append] at hordered
  exact hordered.2.2 b.status (List.mem_map_of_mem hb) row.status
    (List.mem_singleton_self _)

/-- A ride that is there stays as it is or goes on. -/
theorem stays {row : RideRow} (h : Life first rows last)
    (hfirst : first = some row) :
    last = some row ∨ ∃ later, last = some later ∧
      row.status.stage < later.status.stage := by
  induction h generalizing row with
  | nil same => exact .inl hfirst
  | request hr h ih => cases hfirst
  | move hmove h ih =>
      cases hfirst
      have hstage := hmove.precedes.stage_lt
      rcases ih rfl with hlast | ⟨later, hlast, hlater⟩
      · exact .inr ⟨_, hlast, hstage⟩
      · exact .inr ⟨later, hlast, Nat.lt_trans hstage hlater⟩

end Life

end RideRow

/-! ## The rows that are written -/

namespace Store

/-- The row was written: as that of a new ride, or in the place of a row that it
is a move of. -/
inductive CommitsRow (s s' : Store) : RideRow → Prop
  | request (r : Ride) (hr : r.Fresh) (hnew : s.ride? r.id = none)
      (h : s'.rides = s.rides ++ [RideRow.ofRide r]) :
        CommitsRow s s' (RideRow.ofRide r)
  | move (row later : RideRow) (hrow : s.ride? row.id = some row)
      (hmove : row.MovesTo later.updatedAt later)
      (h : s'.rides = (s.putRide later).rides) :
      CommitsRow s s' later

/-- The rows were written one after the other, and nothing else happened to the
rides. -/
inductive Records : Store → List RideRow → Store → Prop
  | refl (s : Store) : Records s [] s
  | kept {s mid s' : Store} {rows : List RideRow} (h : mid.rides = s.rides)
      (hrest : Records mid rows s') : Records s rows s'
  | committed {s mid s' : Store} {row : RideRow} {rows : List RideRow}
      (h : s.CommitsRow mid row)
      (hrest : Records mid rows s') : Records s (row :: rows) s'

variable {s mid s' : Store} {row : RideRow} {rows more : List RideRow}

theorem ride?_of_rides_eq (h : s'.rides = s.rides) (id : RideId) :
    s'.ride? id = s.ride? id := by
  rw [ride?, h]
  rfl

namespace CommitsRow

/-- The ride has the row that was written. -/
theorem ride?_self (h : s.CommitsRow s' row) : s'.ride? row.id = some row := by
  cases h with
  | request r hr hnew h => exact ride?_of_added rfl hnew h
  | move row later hrow hmove h =>
      rw [← hmove.id_eq] at hrow
      rw [ride?_of_rides_eq h, ride?_putRide_self hrow]

/-- The other rides are as they were. -/
theorem ride?_ne (h : s.CommitsRow s' row) {id : RideId} (hne : id ≠ row.id) :
    s'.ride? id = s.ride? id := by
  cases h with
  | request r hr hnew h =>
      have hmissing : ¬(RideRow.ofRide r).id = id := Ne.symm hne
      rw [ride?, h, List.find?_append, List.find?_singleton,
        decide_eq_false hmissing]
      exact Option.or_none
  | move row later hrow hmove h =>
      rw [ride?_of_rides_eq h, ride?_putRide_ne hne]

/-- What the store then has of the ride is in the row that was written. -/
theorem shows (h : s.CommitsRow s' row) {r : Ride} (hid : r.id = row.id)
    (hr : s'.HasRide r) :
    row.Shows r := by
  obtain ⟨found, hfound, hshows⟩ := hr
  rw [hid, h.ride?_self] at hfound
  rwa [Option.some.inj hfound]

/-- What was written begins the ride's life or goes on with it. -/
theorem life {last : Option RideRow} (h : s.CommitsRow s' row)
    (hrest : RideRow.Life (some row) rows last) :
    RideRow.Life (s.ride? row.id) (row :: rows) last := by
  cases h with
  | request r hr hnew h =>
      rw [show s.ride? (RideRow.ofRide r).id = none from hnew]
      exact .request hr hrest
  | move old later hold hmove h =>
      rw [hmove.id_eq, hold]
      exact .move hmove hrest

end CommitsRow

namespace Records

theorem of_rides_eq (h : s'.rides = s.rides) : s.Records [] s' :=
  .kept h (.refl s')

theorem trans (h : s.Records rows mid) (hmore : mid.Records more s') :
    s.Records (rows ++ more) s' := by
  induction h with
  | refl s => exact hmore
  | kept h hrest ih => exact .kept h (ih hmore)
  | committed h hrest ih => exact .committed h (ih hmore)

/-- The rows that were written of one ride are its life. -/
theorem life (h : s.Records rows s') (id : RideId) :
    RideRow.Life (s.ride? id) (rows.filter (·.id = id)) (s'.ride? id) := by
  induction h with
  | refl s => exact .nil _
  | kept h hrest ih => rwa [ride?_of_rides_eq h] at ih
  | @committed s mid s' row rows h hrest ih =>
      by_cases hid : row.id = id
      · rw [List.filter_cons_of_pos (by simpa using hid)]
        subst hid
        rw [h.ride?_self] at ih
        exact h.life ih
      · rw [List.filter_cons_of_neg (by simpa using hid), ← h.ride?_ne
          (Ne.symm hid)]
        exact ih

end Records

/-! ## Old copies -/

/-- The store has the ride as it is, or has had it, and it has gone on since. -/
def KnewRide (s : Store) (r : Ride) : Prop :=
  ∃ row, s.ride? r.id = some row ∧
    (row.Shows r ∨ r.status.stage < row.status.stage)

theorem HasRide.knewRide {r : Ride} (h : s.HasRide r) : s.KnewRide r := by
  obtain ⟨row, hrow, hshows⟩ := h
  exact ⟨row, hrow, .inl hshows⟩

theorem KnewRide.records {r : Ride} (h : s.KnewRide r)
    (hrecords : s.Records rows s') :
    s'.KnewRide r := by
  obtain ⟨row, hrow, hworth⟩ := h
  rcases (hrecords.life r.id).stays hrow with hsame | ⟨later, hlater, hstage⟩
  · exact ⟨row, hsame, hworth⟩
  · refine ⟨later, hlater, .inr ?_⟩
    rcases hworth with hshows | hbehind
    · rwa [hshows.status_eq]
    · exact Nat.lt_trans hbehind hstage

/-- A copy of a ride that is still requested is a true copy, if it says so
itself. -/
theorem KnewRide.hasRide {r : Ride} (h : s.KnewRide r)
    (hrow : s.ride? r.id = some row) (hstatus : row.status = r.status) :
    s.HasRide r := by
  obtain ⟨found, hfound, hshows | hbehind⟩ := h
  · exact ⟨found, hfound, hshows⟩
  · obtain rfl : found = row := Option.some.inj (hfound.symm.trans hrow)
    rw [hstatus] at hbehind
    exact absurd hbehind (Nat.lt_irrefl _)

end Store

end Ridehail
