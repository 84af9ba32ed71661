import Ridehail.Proofs.Store.Assignment
import Ridehail.Proofs.Store.Session

/-!
# One ride at a time

Whatever clients do with old copies, a rider has one active ride at most and a
driver is on one ride at most.  This much the rules of the store give alone.
What has to be shown beside it is that the rules are never what stops a client:
a write of a ride that clients can make never fails.  Insertions and assignments
that come too late answer that they did not apply, and a step that is decided on
a true copy cannot take a place that it did not have already.

## Main results

* `Session.claims_exclusive` — in every state of every session riders and
  drivers have one ride, and no write of a ride fails.
-/

namespace Ridehail

/-! ## Rules that a step cannot break -/

namespace Store

variable {s : Store}

/-- A row that takes no more places than a stored one breaks no rule. -/
theorem brokenRule?_of_le (h : s.Lawful) {row later : RideRow}
    (hrow : row ∈ s.rides) (hid : later.id = row.id)
    (hrider : later.rider = row.rider) (hdriver : later.driver = row.driver)
    (hactive : later.status.isActive = true → row.status.isActive = true)
    (hoccupies : later.status.occupiesDriver = true →
      row.status.occupiesDriver = true) :
    s.brokenRule? later = none := by
  obtain ⟨hfree, hknown⟩ := brokenRule?_eq_none.1 (h.unbroken row hrow)
  refine brokenRule?_eq_none.2 ⟨fun other hother hclash =>
    hfree other hother ?_, ?_⟩
  · obtain ⟨hne, ⟨ha, hb, hr⟩ | ⟨ha, hb, driver, hda, hdb⟩⟩ := hclash
    · exact ⟨hid ▸ hne, .inl ⟨hactive ha, hb, hrider ▸ hr⟩⟩
    · exact ⟨hid ▸ hne, .inr ⟨hoccupies ha, hb, driver, hdriver ▸ hda, hdb⟩⟩
  · rwa [hdriver]

/-! ## Writes that do not fail -/

theorem insertRide_fresh {r : Ride} (hr : r.Fresh) :
    ∃ applied s', s.insertRide r = .ok (applied, s') := by
  obtain ⟨hlat, hlng⟩ := hr.pickup_not_nan
  simp only [insertRide, hlat, hlng, Bool.or_self, Bool.false_eq_true, if_false]
  split
  · exact ⟨false, s, rfl⟩
  · split
    · exact ⟨false, s, rfl⟩
    · split
      · exact ⟨true, _, rfl⟩
      · exact ⟨false, s, rfl⟩
      · rename_i rule hne hrule
        rcases brokenRule?_eq_some hrule with rfl | ⟨driver, hdriver, -⟩
        · exact absurd rfl hne
        · have hnone : (RideRow.ofRide r).driver = none := hr.driver_eq
          rw [hnone] at hdriver
          cases hdriver

/-- An assignment to a driver who becomes busy by it does not fail. -/
theorem assignRide_busy {r : Ride} {d : Driver} (hd : d.status = .busy) :
    ∃ applied s', s.assignRide r d = .ok (applied, s') := by
  refine exists_assignRide fun row _ _ => ?_
  rw [hd]
  simp [DriverRow.permitted, DriverRow.withStatus]

end Store

namespace Session

variable {s : Session}

/-- A step that is written from a true copy does not fail. -/
theorem advanceRide_coherent (hs : s.Coherent) {old r : Ride}
    (hold : old ∈ s.rides) (hstep : old.StepsTo r) :
    ∃ applied s', s.store.advanceRide r old.status = .ok (applied, s') := by
  cases hwrite : s.store.advanceRide r old.status with
  | ok written => exact ⟨written.1, written.2, rfl⟩
  | error fault =>
      obtain ⟨row, rule, hrow, hstatus, hrule, -⟩ :=
        Store.changeRide_failed hwrite
      have hstatus : row.status = old.status := by simpa using hstatus
      have hmem := (Store.mem_of_ride? hrow).1
      have hread := hs.read_eq hold (hstep.id_eq ▸ hrow) hstatus
      have hnone : s.store.brokenRule? (row.advanced r) = none := by
        refine Store.brokenRule?_of_le hs.lawful hmem rfl rfl ?_ ?_ ?_
        · show r.driver = row.driver
          rw [hstep.driver_eq, (RideRow.read_eq_ok hread).2.2.1]
        · intro _
          rw [hstatus]
          exact hstep.isActive
        · intro hoccupies
          rw [hstatus]
          exact hstep.occupiesDriver hoccupies
      rw [hnone] at hrule
      cases hrule

/-- A write of a ride that clients can make does not fail. -/
theorem write_ok (hs : s.Coherent) {c : StoreCall} (hc : s.Allows c)
    (hride : c.writesRide = true) :
    ∃ applied st, c.write s.store = .ok (applied, st) := by
  cases c with
  | insertRide r => exact Store.insertRide_fresh hc
  | assignRide r d =>
      obtain ⟨old, hold, idle, hidle, -, busyAt, hstart⟩ := hc
      exact Store.assignRide_busy
        (by rw [(Driver.startRide_eq_ok.1 hstart).2]; rfl)
  | advanceRide r expected =>
      obtain ⟨old, hold, hstep, rfl⟩ := hc
      exact advanceRide_coherent hs hold hstep
  | _ => cases hride

end Session

/-! ## Writes that apply -/

/-- When a write of a ride finds what it needs: an insertion an idle rider, an
assignment an available driver who is on no ride and a ride that waits for one,
and a step the status it was decided on. -/
def StoreCall.Applicable (s : Store) : StoreCall → Prop
  | .insertRide r =>
      (∀ row ∈ s.rides, ¬row.holdsRider r.rider = true) ∧ s.ride? r.id = none
  | .assignRide r d =>
      (∃ row, s.driver? d.id = some row ∧ row.status = .available) ∧
        (∃ row, s.ride? r.id = some row ∧ row.status = .requested) ∧
          ∀ row ∈ s.rides, ¬row.holdsDriver d.id = true
  | .advanceRide r expected =>
      ∃ row, s.ride? r.id = some row ∧ row.status = expected
  | _ => False

namespace Store

variable {s s' : Store}

theorem applicable_of_insertRide {r : Ride}
    (h : s.insertRide r = .ok (true, s')) :
    (StoreCall.insertRide r).Applicable s := by
  obtain ⟨hidle, hfree, -, -⟩ := insertRide_applied h
  refine ⟨fun row hrow hholds => ?_, hfree⟩
  have hactive : s.riderActive r.rider = true :=
    List.any_eq_true.2 ⟨row, hrow, hholds⟩
  rw [hidle] at hactive
  cases hactive

theorem insertRide_of_applicable {r : Ride} (hr : r.Fresh)
    (h : (StoreCall.insertRide r).Applicable s) :
    ∃ next, s.insertRide r = .ok (true, next) := by
  obtain ⟨hidle, hfree⟩ := h
  obtain ⟨hlat, hlng⟩ := hr.pickup_not_nan
  have hinactive : s.riderActive r.rider = false := by
    rw [riderActive, List.any_eq_false]
    exact hidle
  have hrule : s.brokenRule? (RideRow.ofRide r) = none := by
    refine brokenRule?_eq_none.2 ⟨fun other hother hclash => ?_,
      fun driver hdriver => ?_⟩
    · obtain ⟨-, ⟨-, hactive, hrider⟩ | ⟨hoccupies, -⟩⟩ := hclash
      · apply hidle other hother
        rw [RideRow.holdsRider, hactive, ← hrider]
        exact Bool.and_eq_true_iff.2 ⟨decide_eq_true rfl, rfl⟩
      · have hstatus : (RideRow.ofRide r).status = .requested := hr.status_eq
        rw [hstatus] at hoccupies
        cases hoccupies
    · have hnone : (RideRow.ofRide r).driver = none := hr.driver_eq
      rw [hnone] at hdriver
      cases hdriver
  refine ⟨{ s with rides := s.rides ++ [RideRow.ofRide r] }, ?_⟩
  simp only [insertRide, hinactive, hlat, hlng, hfree, hrule, Bool.or_self,
    Bool.false_eq_true, if_false, Option.isSome_none]

/-- An accepted ride finds what it needs exactly if it can be assigned. -/
theorem assignable_iff_applicable (hs : s.Lawful) {r : Ride} {d : Driver}
    (hr : r.status = .accepted) :
    s.Assignable r d ↔ (StoreCall.assignRide r d).Applicable s := by
  rw [hs.assignable_iff_claimable hr]
  have hidle :
      (∀ row ∈ s.rides, row.driver = some d.id →
        row.status ∉ [.accepted, .inProgress]) ↔
      ∀ row ∈ s.rides, ¬row.holdsDriver d.id = true := by
    simp only [RideRow.holdsDriver, Bool.and_eq_true, decide_eq_true_eq,
      RideStatus.occupiesDriver_iff, not_and]
  constructor
  · rintro ⟨⟨hoffered, hfree⟩, hawaits⟩
    exact ⟨hs.offers_iff.1 hoffered, hs.awaits_iff.1 hawaits, hidle.1 hfree⟩
  · rintro ⟨hoffered, hawaits, hfree⟩
    exact ⟨⟨hs.offers_iff.2 hoffered, hidle.2 hfree⟩, hs.awaits_iff.2 hawaits⟩

end Store

namespace Session

variable {s : Session}

/-- A write of a ride that clients can make applies exactly if it finds what it
needs. -/
theorem applied_iff (hs : s.Coherent) {c : StoreCall} (hc : s.Allows c)
    {applied : Bool} (hride : c.writesRide = true) {st : Store}
    (h : c.write s.store = .ok (applied, st)) :
    applied = true ↔ c.Applicable s.store := by
  have hinj : (∃ next, c.write s.store = .ok (true, next)) →
      applied = true := by
    rintro ⟨next, hnext⟩
    rw [h] at hnext
    cases hnext
    rfl
  cases c with
  | insertRide r =>
      refine ⟨fun happlied => ?_, fun happ =>
        hinj (Store.insertRide_of_applicable hc happ)⟩
      subst happlied
      exact Store.applicable_of_insertRide h
  | assignRide r d =>
      obtain ⟨old, hold, idle, hidle, ⟨at_, haccept⟩, busyAt, hstart⟩ := hc
      have hr : r.status = .accepted := by
        rw [(Ride.accept_eq_ok.1 haccept).2]
      rw [← Store.assignable_iff_applicable hs.lawful hr]
      refine ⟨fun happlied => ?_, fun hassignable =>
        hinj ⟨_, hs.lawful.assignRide_of_assignable hassignable⟩⟩
      subst happlied
      exact (hs.lawful.assignable_of_applied h).1
  | advanceRide r expected =>
      refine ⟨fun happlied => ?_, fun happ => ?_⟩
      · subst happlied
        obtain ⟨row, hrow, hstatus, -, -⟩ := Store.changeRide_applied h
        exact ⟨row, hrow, by simpa using hstatus⟩
      · obtain ⟨row, hrow, hstatus⟩ := happ
        cases applied with
        | true => rfl
        | false =>
          exact absurd (decide_eq_true hstatus) (Store.changeRide_missed h hrow)
  | _ => cases hride

end Session

/-! ## Places -/

section Places

/-- At most one element meets a condition that no two different ones meet. -/
private theorem length_filter_le_one {α : Type} {rows : List α}
    {meets : α → Bool} (hrows : rows.Nodup)
    (h : ∀ a ∈ rows, ∀ b ∈ rows, meets a = true → meets b = true → a = b) :
    (rows.filter meets).length ≤ 1 := by
  have hnodup : (rows.filter meets).Nodup := hrows.sublist List.filter_sublist
  have hmem : ∀ a ∈ rows.filter meets, a ∈ rows ∧ meets a = true :=
    fun a ha => List.mem_filter.1 ha
  cases hfilter : rows.filter meets with
  | nil => exact Nat.zero_le 1
  | cons a rest =>
      cases rest with
      | nil => exact Nat.le_refl 1
      | cons b others =>
          rw [hfilter] at hnodup hmem
          have ha := hmem a (List.mem_cons_self ..)
          have hb := hmem b (List.mem_cons_of_mem _ (List.mem_cons_self ..))
          have hab : a = b := h a ha.1 b hb.1 ha.2 hb.2
          rw [hab, List.nodup_cons] at hnodup
          exact absurd (List.mem_cons_self ..) hnodup.1

variable {s : Store} (h : s.Lawful)

include h

private theorem Store.Lawful.rides_nodup : s.rides.Nodup :=
  (List.pairwise_map.1 h.rideIds).imp fun hne heq => hne (congrArg _ heq)

theorem Store.Lawful.length_holdsRider_le (rider : RiderId) :
    (s.rides.filter (·.holdsRider rider)).length ≤ 1 :=
  length_filter_le_one h.rides_nodup fun _ ha _ hb => h.holdsRider_unique ha hb

theorem Store.Lawful.length_holdsDriver_le (driver : DriverId) :
    (s.rides.filter (·.holdsDriver driver)).length ≤ 1 :=
  length_filter_le_one h.rides_nodup fun _ ha _ hb => h.holdsDriver_unique ha hb

end Places

/-- The active statuses by name. -/
theorem RideRow.holdsRider_eq (row : RideRow) (rider : RiderId) :
    row.holdsRider rider =
      decide (row.rider = rider ∧
        row.status ∈ [.requested, .accepted, .inProgress]) := by
  rw [holdsRider, Bool.decide_and]
  cases row.status <;> rfl

theorem RideRow.holdsDriver_eq (row : RideRow) (driver : DriverId) :
    row.holdsDriver driver =
      decide (row.driver = some driver ∧
        row.status ∈ [.accepted, .inProgress]) := by
  rw [holdsDriver, Bool.decide_and]
  cases row.status <;> rfl

/-! ## The main result -/

namespace Session

/-- In every state that clients can bring about, however old the copies are that
they write from, a rider has at most one ride that is requested, accepted or in
progress, and a driver has at most one that is accepted or in progress.  The
next write of a ride does not fail either: it applies exactly if it finds what
it needs, and answers that it did not apply otherwise. -/
theorem claims_exclusive (calls : List StoreCall) (h : empty.Permits calls) :
    let s := empty.run calls
    (∀ rider, (s.store.rides.filter fun row => row.rider = rider ∧
      row.status ∈ [.requested, .accepted, .inProgress]).length ≤ 1) ∧
    (∀ driver, (s.store.rides.filter fun row => row.driver = some driver ∧
      row.status ∈ [.accepted, .inProgress]).length ≤ 1) ∧
    ∀ c, s.Allows c → c.writesRide = true →
      ∃ applied st, c.write s.store = .ok (applied, st) ∧
        (applied = true ↔ c.Applicable s.store) := by
  intro s
  have hs : s.Coherent := coherent_run coherent_empty h
  refine ⟨fun rider => ?_, fun driver => ?_, fun c hc hride => ?_⟩
  · have hplace := hs.lawful.length_holdsRider_le rider
    simpa only [RideRow.holdsRider_eq] using hplace
  · have hplace := hs.lawful.length_holdsDriver_le driver
    simpa only [RideRow.holdsDriver_eq] using hplace
  · obtain ⟨applied, st, hwrite⟩ := write_ok hs hc hride
    exact ⟨applied, st, hwrite, applied_iff hs hc hride hwrite⟩

/-- In the example the driver is available again while on the first ride;
assigning the second ride from the copies of that time does not apply. -/
theorem claims_exclusive_example :
    empty.Permits Example.calls ∧
      let s := empty.run Example.calls
      let late := StoreCall.assignRide (Example.taken Example.second)
        (Example.idle.withStatus .busy ⟨5⟩)
      (s.store.rides.filter fun row => row.driver = some "d" ∧
        row.status ∈ [.accepted, .inProgress]).length ≤ 1 ∧
      (s.store.driver? "d").map (·.status) = some .available ∧
      s.Allows late ∧ ¬late.Applicable s.store ∧
      ∃ st, late.write s.store = .ok (false, st) := by
  obtain ⟨-, hdrivers, hwrites⟩ :=
    claims_exclusive Example.calls Example.permits_calls
  have hallows : (empty.run Example.calls).Allows
      (.assignRide (Example.taken Example.second)
      (Example.idle.withStatus .busy ⟨5⟩)) :=
    ⟨Example.second, by decide, Example.idle, by decide, ⟨⟨5⟩, rfl⟩, ⟨5⟩, rfl⟩
  have hon : RideRow.ofRide (Example.taken Example.first) ∈
      (empty.run Example.calls).store.rides :=
    by decide
  obtain ⟨applied, st, hwrite, happlied⟩ := hwrites _ hallows rfl
  have hnot : ¬StoreCall.Applicable (empty.run Example.calls).store
      (.assignRide (Example.taken Example.second)
        (Example.idle.withStatus .busy ⟨5⟩)) :=
    fun happ => happ.2.2 _ hon (by decide)
  refine ⟨Example.permits_calls, hdrivers "d", by decide, hallows, hnot, st, ?_⟩
  cases applied with
  | false => exact hwrite
  | true => exact absurd (happlied.1 rfl) hnot

end Session

end Ridehail
