import Mathlib.Data.List.TakeWhile
import Ridehail.Proofs.Dispatch.Paired
import Ridehail.Proofs.Dispatch.Release
import Ridehail.Proofs.Dispatch.Requests

/-!
# Requests are decided by the rider

Much may go wrong while a request is served: the index may not answer, drivers
may be gone, the store may refuse to give them the ride.  None of it shows in
the outcome.  A request fails only because of its rider, who has no name or has
an active ride, and otherwise adds one ride, whatever becomes of it.

The converse is needed as well: a rider whose ride is over is not refused.  It
is not enough that the ride is over in the store, because other calls come in
between.  No call but a request makes a rider active, and whoever has a ride in
the store has a name.

## Main results

* `Dispatch.createRide_created` — the ride that a request adds.
* `World.idle_of_end` — the end of a ride leaves its rider without an active
  one.
* `World.request_decided_by_rider` — the outcome of every request.
-/

namespace Ridehail

/-! ## Riders -/

theorem dropBlanks_eq_nil {cs : List Char} :
    dropBlanks cs = [] ↔ ∀ c ∈ cs, isBlank c = true :=
  List.dropWhile_eq_nil_iff

/-- A text is blank if nothing is left of it without the blanks at its ends. -/
theorem isBlankText_iff {text : String} :
    isBlankText text = true ↔ trimBlanks text = "" := by
  have hnil : trimBlanks text = "" ↔
      dropBlanks (dropBlanks text.toList).reverse = [] := by
    rw [trimBlanks, String.ofList_eq_empty_iff, List.reverse_eq_nil_iff]
  rw [hnil, dropBlanks_eq_nil, isBlankText, List.all_eq_true]
  simp only [List.mem_reverse]
  constructor
  · intro hblank c hc
    exact hblank c ((List.dropWhile_sublist isBlank).subset hc)
  · intro hrest
    cases hdrop : dropBlanks text.toList with
    | nil => exact dropBlanks_eq_nil.1 hdrop
    | cons c rest =>
        -- What is left begins with a character that is no blank.
        have hc := dropBlanks_head text.toList c rest hdrop
        rw [hrest c (hdrop ▸ List.mem_cons_self)] at hc
        cases hc

namespace Store

variable {s s' : Store} {rider : RiderId}

theorem riderActive_iff : s.riderActive rider = true ↔
    ∃ row ∈ s.rides, row.rider = rider ∧
      row.status ∈ [.requested, .accepted, .inProgress] := by
  simp only [riderActive, List.any_eq_true, RideRow.holdsRider_eq,
    decide_eq_true_eq]

/-- An assignment writes the status of its driver. -/
theorem mem_drivers_assigned {r : Ride} {d : Driver} {row : DriverRow}
    (hrow : row ∈ s.drivers) (hid : row.id = d.id) :
    row.withStatus d.status d.updatedAt ∈ (s.assigned r d).drivers :=
  List.mem_map.2 ⟨row, hrow, if_pos hid⟩

/-- Every ride in a store is of a rider who has a name, if no others request
rides. -/
theorem named_kept : KeptForRides (fun rider => isBlankText rider = false)
    fun s => ∀ row ∈ s.rides, isBlankText row.rider = false where
  proceeds hnamed hproceeds later hlater := by
    obtain ⟨row, hrow, hrider, -⟩ := hproceeds later hlater
    exact hrider ▸ hnamed row hrow
  request hnamed hrider hwrite := by
    obtain ⟨-, -, -, rfl⟩ := insertRide_applied hwrite
    rw [List.forall_mem_append, List.forall_mem_singleton]
    exact ⟨hnamed, hrider⟩

/-- A rider without an active ride gets none by the steps of rides, nor by the
requests of other riders. -/
theorem idle_kept (rider : RiderId) :
    KeptForRides (· ≠ rider) fun s => s.riderActive rider = false where
  proceeds hidle hproceeds := by
    rw [riderActive, List.any_eq_false] at hidle ⊢
    intro later hlater hholds
    obtain ⟨row, hrow, hrider, hactive⟩ := hproceeds later hlater
    rw [RideRow.holdsRider, Bool.and_eq_true, decide_eq_true_iff] at hholds
    apply hidle row hrow
    rw [RideRow.holdsRider, hactive hholds.2, hrider, hholds.1]
    simp
  request {s r s'} hidle hother hwrite := by
    obtain ⟨-, -, -, rfl⟩ := insertRide_applied hwrite
    have hrow : (RideRow.ofRide r).holdsRider rider = false := by
      simp [RideRow.holdsRider, RideRow.ofRide, hother]
    rw [riderActive] at hidle ⊢
    rw [List.any_append, hidle]
    simp [hrow]

/-- When the active ride of a rider ends, the rider has none. -/
theorem riderActive_of_end (hs : s.Lawful) {old r : Ride}
    (hold : s.findRide old.id = .ok (some old))
    (hactive : old.status.isActive = true) (hid : r.id = old.id)
    (hrider : r.rider = old.rider) (hended : r.status.isActive = false)
    (h : s.advanceRide r old.status = .ok (true, s')) :
    s'.riderActive r.rider = false := by
  obtain ⟨row, hrow, hread⟩ := findRide_eq_some.1 hold
  obtain ⟨found, hfound, -, -, rfl⟩ := changeRide_applied h
  rw [hid, hrow] at hfound
  cases hfound
  obtain ⟨-, hrowRider, -, hstatus, -⟩ := RideRow.read_eq_ok hread
  have hmem : row ∈ s.rides := (mem_of_ride? hrow).1
  have hholds : row.holdsRider r.rider = true := by
    rw [RideRow.holdsRider, ← hstatus, hactive, hrider, hrowRider]
    simp
  rw [riderActive, List.any_eq_false]
  intro x hx hxholds
  rcases mem_putRide.1 hx with ⟨rfl, -⟩ | ⟨hx, hne⟩
  · rw [RideRow.holdsRider, show (row.advanced r).status = r.status from rfl,
      hended] at hxholds
    simp at hxholds
  · have hsame : x = row := hs.holdsRider_unique hx hmem hxholds hholds
    exact hne (show x.id = row.id from congrArg RideRow.id hsame)

end Store

namespace Dispatch

variable {σ : Type} [DriverIndex σ] {setup : Setup} {w : World σ}
  {rider : RiderId} {pickup : GeoPoint} {destination : Option GeoPoint}

/-! ## The ride that is added -/

omit [DriverIndex σ] in
/-- The service can go on from a world with a new ride. -/
theorem sound_withRequest (hs : w.store.Sound)
    (hidle : w.store.riderActive rider = false)
    (hpickup : pickup.inRange = true)
    (hnew : w.store.ride? (setup.rideId (w.drawn + 1)) = none) :
    (w.withRequest (w.newRide setup rider pickup destination)).store.Sound := by
  have hfresh := World.fresh_newRide hpickup setup w rider destination
  obtain ⟨s', hwrite⟩ :=
    Store.insertRide_of_applicable hfresh ⟨List.any_eq_false.1 hidle, hnew⟩
  obtain ⟨-, -, -, hs'⟩ := Store.insertRide_applied hwrite
  have hsound : s'.Sound := hs.served (.single (.request _ hfresh hwrite))
  rw [hs'] at hsound
  exact hsound

omit [DriverIndex σ] in
/-- The estimate of a new ride is at least a minute if the estimator is one by
distance. -/
theorem one_le_estimate (hbuiltIn : setup.eta.BuiltIn) (w : World σ)
    (start stop : GeoPoint) :
    1 ≤ w.estimate setup start stop := by
  unfold World.estimate
  split
  · exact hbuiltIn.one_le w.now start stop
  · exact EtaEstimator.BuiltIn.straight.one_le w.now start stop

end Dispatch

namespace World

variable {σ : Type} [DriverIndex σ] {setup : Setup} {w next : World σ}

/-- A request has added one ride and was answered with it.  The ride is accepted
if the search gave it to someone, and is as it was requested if not. -/
structure Created (setup : Setup) (w : World σ) (request r : Ride)
    (next : World σ) : Prop where
  rides : next.store.rides = w.store.rides ++ [RideRow.ofRide r]
  accepted_iff : r.status = .accepted ↔ ∃ accepted,
    ((Dispatch.matchRide setup.matching request).runOn
      (w.withRequest request)).1 = .ok (some accepted)
  /-- Whoever was given the ride could be claimed before, and is busy now. -/
  taken : r.status = .accepted →
    ∃ id, r = request.acceptedBy id w.now ∧ w.store.Claimable id ∧
    ∃ row ∈ next.store.drivers, row.id = id ∧ row.status = .busy
  waiting : r.status ≠ .accepted → r = request ∧ r.status = .requested ∧
    next.store.drivers = w.store.drivers

open Dispatch

omit [DriverIndex σ] in
/-- The rows of the rides when a new one was assigned. -/
theorem rides_assigned {r : Ride} (hnew : w.store.ride? r.id = none)
    (d : Driver) (at_ : Instant) :
    ((w.withRequest r).store.assigned (r.acceptedBy d.id at_) d).rides =
      w.store.rides ++ [RideRow.ofRide (r.acceptedBy d.id at_)] := by
  show (w.store.rides ++ [RideRow.ofRide r]).map _ = _
  rw [List.map_append]
  congr 1
  · refine (List.map_congr_left fun row hrow => if_neg ?_).trans
      (List.map_id' _)
    exact Store.ride?_eq_none.1 hnew row hrow
  · exact congrArg (fun row => [row]) (if_pos rfl)

/-- Whoever is named and has no active ride is served. -/
theorem createRide_created (hs : w.store.Sound) {rider : RiderId}
    (hnamed : isBlankText rider = false)
    (hidle : w.store.riderActive rider = false) {pickup : GeoPoint}
    (hpickup : pickup.inRange = true) (destination : Option GeoPoint)
    (hnew : w.store.ride? (setup.rideId (w.drawn + 1)) = none) :
    ∃ r next, (createRide setup rider pickup destination).runOn w =
      (.ok r, next) ∧
      w.Created setup (w.newRide setup rider pickup destination) r next := by
  let request := w.newRide setup rider pickup destination
  have hrun := createRide_runOn destination hnamed hidle hpickup hnew
  have hsound : (w.withRequest request).store.Sound :=
    sound_withRequest hs hidle hpickup hnew
  have hsearch := matchRide_alike (r := request) (s := request) hsound.lawful
    hsound.readable rfl rfl rfl setup.matching rfl
  rcases hsearch with
    ⟨hmatch, -⟩ | ⟨id, hclaimable, ⟨d, p, hfind, -, hmatch⟩, -⟩
  · have hnobody := unmatched_ne setup.matching request (w.withRequest request)
    refine ⟨request,
      (unmatched setup.matching request (w.withRequest request)).2, ?_, ?_⟩
    · rw [hrun, hmatch]
      rcases hanswer :
          (unmatched setup.matching request (w.withRequest request)).1 with
        e | (_ | accepted)
      · rfl
      · rfl
      · exact absurd hanswer (hnobody accepted)
    · refine ⟨rfl, ?_, nofun, fun _ => ⟨rfl, rfl, rfl⟩⟩
      rw [hmatch]
      exact ⟨nofun, fun ⟨accepted, h⟩ => absurd h (hnobody accepted)⟩
  · obtain rfl := Store.id_eq_of_findDriver hfind
    refine ⟨request.acceptedBy d.id w.now,
      ((matchRide setup.matching request).runOn
        (w.withRequest request)).2, ?_, ?_⟩
    · rw [hrun, hmatch]
      rfl
    · obtain ⟨row, hrow, hid, -⟩ := hclaimable.offered
      have hfree : w.store.Claimable d.id :=
        ⟨hclaimable.offered, fun row hrow =>
          hclaimable.idle row (List.mem_append_left _ hrow)⟩
      refine ⟨?_, ?_, fun _ => ⟨d.id, rfl, hfree, ?_⟩, fun h => absurd rfl h⟩
      · rw [hmatch]
        exact rides_assigned hnew (d.withStatus .busy w.now) w.now
      · rw [hmatch]
        exact ⟨fun _ => ⟨_, rfl⟩, fun _ => rfl⟩
      · rw [hmatch]
        exact ⟨_, Store.mem_drivers_assigned hrow hid, hid, rfl⟩

/-! ## Riders whose ride is over -/

/-- Whoever has a ride in the store has a name. -/
theorem Reachable.named (hw : w.Reachable setup) :
    ∀ row ∈ w.store.rides, isBlankText row.rider = false := by
  obtain ⟨w₀, turns, hempty, hstore⟩ := hw
  rw [hstore]
  apply run_keeps_rides Store.named_kept
  · rw [hempty]
    exact fun row hrow => nomatch hrow
  · exact fun t _ rider pickup destination hpickup _ hnamed => hnamed

/-- A rider without an active ride gets none but by a request. -/
theorem riderActive_run {rider : RiderId}
    (hidle : w.store.riderActive rider = false) {turns : List (Turn σ)}
    (hturns : ∀ t ∈ turns, ∀ pickup destination hpickup,
      t.call ≠ .createRide rider pickup destination hpickup) :
    (run setup w turns).store.riderActive rider = false := by
  apply run_keeps_rides (Store.idle_kept rider) hidle
  rintro t ht other pickup destination hpickup hcall - rfl
  exact hturns t ht pickup destination hpickup hcall

/-- Freeing a driver makes no rider active. -/
theorem riderActive_releaseDriver {rider : RiderId}
    (hidle : w.store.riderActive rider = false) (id : DriverId)
    (free : Driver → Except StateError Driver) (expected : List DriverStatus) :
    ((releaseDriver id free expected).runOn w).2.store.riderActive rider =
      false := by
  have hpaired := (matchPaired_self (σ := σ) (Store.idle_kept rider)).toPaired
  exact (follows_releaseDriver hpaired id free expected w w ⟨rfl, hidle⟩).2.2

/-- The end of a ride leaves its rider, who has a name, without an active
ride. -/
theorem idle_of_end (hw : w.Reachable setup) {id : RideId} {r : Ride}
    (h : (∃ driver fare, (completeRide id driver fare).runOn w =
      (.ok r, next)) ∨
      ∃ initiatedBy, (cancelRide id initiatedBy).runOn w = (.ok r, next)) :
    next.store.riderActive r.rider = false ∧ isBlankText r.rider = false := by
  have hs := hw.sound
  have hnamed (old : Ride) (hold : w.store.findRide old.id = .ok (some old))
      (hrider : r.rider = old.rider) : isBlankText r.rider = false := by
    obtain ⟨row, hrow, hread⟩ := Store.findRide_eq_some.1 hold
    rw [hrider, (RideRow.read_eq_ok hread).2.1]
    exact hw.named row (Store.mem_of_ride? hrow).1
  rcases h with ⟨driver, fare, hrun⟩ | ⟨initiatedBy, hrun⟩
  · obtain ⟨old, s', hold, -, hstep, hwrite, hstore, -⟩ := completeRide_ok hrun
    obtain ⟨hstatus, hr⟩ := Ride.complete_eq_ok.1 hstep
    have hrider : r.rider = old.rider := by rw [hr]
    have hidle := Store.riderActive_of_end hs.lawful hold (by rw [hstatus]; rfl)
      (by rw [hr]) hrider (by rw [hr]; rfl) hwrite
    rw [hstore]
    exact ⟨riderActive_releaseDriver (w := { w with store := s' }) hidle _ _ _,
      hnamed old hold hrider⟩
  · obtain ⟨old, s', hold, hstep, hwrite, hstore, -⟩ := cancelRide_parts hrun
    obtain ⟨hstatus, hr⟩ := Ride.cancel_eq_ok.1 hstep
    have hrider : r.rider = old.rider := by rw [hr]
    have hactive : old.status.isActive = true := by
      rcases hstatus with h | h <;> rw [h] <;> rfl
    have hidle :=
      Store.riderActive_of_end hs.lawful hold hactive (by rw [hr]) hrider
      (by rw [hr]; rfl) hwrite
    refine ⟨?_, hnamed old hold hrider⟩
    rw [hstore]
    split
    · exact riderActive_releaseDriver (w := { w with store := s' }) hidle _ _ _
    · exact hidle

/-- Once an active ride of a rider has ended, the next request of the rider
succeeds. -/
theorem createRide_after_end (hw : w.Reachable setup) (id : RideId) (r : Ride)
    (next : World σ)
    (hend :
      (∃ driver fare, (completeRide id driver fare).runOn w = (.ok r, next)) ∨
      ∃ initiatedBy, (cancelRide id initiatedBy).runOn w = (.ok r, next))
    (turns : List (Turn σ)) (hturns : ∀ t ∈ turns, ∀ pickup destination hpickup,
      t.call ≠ .createRide r.rider pickup destination hpickup)
    (later : World σ) (hlater : later.store = (run setup next turns).store)
    (hnew : later.store.ride? (setup.rideId (later.drawn + 1)) = none)
    (pickup : GeoPoint) (destination : Option GeoPoint)
    (hpickup : pickup.inRange = true) :
    ∃ r', ((createRide setup r.rider pickup destination).runOn later).1 =
      .ok r' := by
  obtain ⟨hidle, hnamed⟩ := idle_of_end hw hend
  have hstill : later.store.riderActive r.rider = false := by
    rw [hlater]
    exact riderActive_run hidle hturns
  exact ⟨_,
    congrArg Prod.fst (createRide_runOn destination hnamed hstill hpickup hnew)⟩

/-- The three outcomes of a request. -/
theorem request_cases (hs : w.store.Sound) (rider : RiderId) {pickup : GeoPoint}
    (hpickup : pickup.inRange = true) (destination : Option GeoPoint)
    (hnew : w.store.ride? (setup.rideId (w.drawn + 1)) = none) :
    let outcome := (createRide setup rider pickup destination).runOn w
    isBlankText rider = true ∧ outcome = (.error (.validation .blankRider), w) ∨
      isBlankText rider = false ∧ w.store.riderActive rider = true ∧
        outcome = (.error (.conflict (.riderHasRide rider)),
          { w with drawn := w.drawn + 1 }) ∨
      isBlankText rider = false ∧ w.store.riderActive rider = false ∧
        ∃ r next, outcome = (.ok r, next) ∧
          w.Created setup (w.newRide setup rider pickup destination) r
            next := by
  intro outcome
  cases hblank : isBlankText rider with
  | true => exact .inl ⟨rfl, createRide_blank hblank⟩
  | false =>
      cases hactive : w.store.riderActive rider with
      | true => exact .inr (.inl ⟨rfl, rfl, createRide_conflict hblank hactive⟩)
      | false =>
          exact .inr (.inr ⟨rfl, rfl,
            createRide_created hs hblank hactive hpickup destination hnew⟩)

/-- What a ride that was created has of its request. -/
theorem Created.request_eq {request r : Ride}
    (h : w.Created setup request r next) :
    r.id = request.id ∧ r.rider = request.rider ∧ r.pickup = request.pickup ∧
      r.destination = request.destination ∧
      r.estimateMinutes = request.estimateMinutes := by
  by_cases haccepted : r.status = .accepted
  · obtain ⟨id, rfl, -⟩ := h.taken haccepted
    exact ⟨rfl, rfl, rfl, rfl, rfl⟩
  · obtain ⟨rfl, -⟩ := h.waiting haccepted
    exact ⟨rfl, rfl, rfl, rfl, rfl⟩

/-! ## The main result -/

/-- A request, which draws an identifier that no ride has, fails with a
validation error exactly if nothing is left of the rider without the blanks at
its ends, and otherwise with a conflict exactly if the rider has an active ride;
both leave the store as it was.  Every other request succeeds and adds one ride,
which is accepted exactly if the search gave it to someone, and has an estimate
exactly if there is a destination.  Once an active ride of a rider has ended,
the next request of the rider succeeds, whatever calls come in between. -/
theorem request_decided_by_rider (hw : w.Reachable setup) (rider : RiderId)
    {pickup : GeoPoint} (hpickup : pickup.inRange = true)
    (destination : Option GeoPoint)
    (hnew : w.store.ride? (setup.rideId (w.drawn + 1)) = none) :
    let request := w.newRide setup rider pickup destination
    let outcome := (createRide setup rider pickup destination).runOn w
    let nameless := trimBlanks rider = ""
    let active := ∃ row ∈ w.store.rides,
      row.rider = rider ∧ row.status ∈ [.requested, .accepted, .inProgress]
    ((∃ cause, outcome.1 = .error (.validation cause)) ↔ nameless) ∧
    ((∃ cause, outcome.1 = .error (.conflict cause)) ↔ ¬nameless ∧ active) ∧
    ((∃ r, outcome.1 = .ok r) ↔ ¬nameless ∧ ¬active) ∧
    (∀ e, outcome.1 = .error e → outcome.2.store = w.store) ∧
    (∀ r, outcome.1 = .ok r →
      w.Created setup request r outcome.2 ∧ r.id = setup.rideId (w.drawn + 1) ∧
        r.rider = rider ∧ r.pickup = pickup ∧ r.destination = destination ∧
        (r.estimateMinutes.isSome = true ↔ destination.isSome = true) ∧
        (setup.eta.BuiltIn → ∀ minutes ∈ r.estimateMinutes, 1 ≤ minutes)) ∧
    ∀ id r next,
      ((∃ driver fare, (completeRide id driver fare).runOn w = (.ok r, next)) ∨
        ∃ initiatedBy, (cancelRide id initiatedBy).runOn w = (.ok r, next)) →
      ∀ turns : List (Turn σ), (∀ t ∈ turns, ∀ pickup destination hpickup,
        t.call ≠ .createRide r.rider pickup destination hpickup) →
      ∀ later : World σ, later.store = (run setup next turns).store →
        later.store.ride? (setup.rideId (later.drawn + 1)) = none →
        ∀ pickup destination, pickup.inRange = true →
          ∃ r', ((createRide setup r.rider pickup destination).runOn later).1 =
            .ok r' := by
  intro request outcome nameless active
  have hnameless : isBlankText rider = true ↔ nameless := isBlankText_iff
  have hactive : w.store.riderActive rider = true ↔ active :=
    Store.riderActive_iff
  rcases request_cases hw.sound rider hpickup destination hnew with
    ⟨hblank, houtcome⟩ | ⟨hnamed, hbusy, houtcome⟩ |
      ⟨hnamed, hidle, r, next, houtcome, hcreated⟩
  · have hnameless := hnameless.1 hblank
    have houtcome : outcome = (.error (.validation .blankRider), w) := houtcome
    refine ⟨?_, ?_, ?_, ?_, ?_, createRide_after_end hw⟩ <;>
      simp [houtcome, hnameless]
  · have hnamed : ¬nameless := by rw [← hnameless, hnamed]; simp
    have hactive := hactive.1 hbusy
    have houtcome : outcome = (.error (.conflict (.riderHasRide rider)),
      { w with drawn := w.drawn + 1 }) := houtcome
    refine ⟨?_, ?_, ?_, ?_, ?_, createRide_after_end hw⟩ <;>
      simp [houtcome, hnamed, hactive]
  · have hnamed : ¬nameless := by rw [← hnameless, hnamed]; simp
    have hidle : ¬active := by rw [← hactive, hidle]; simp
    have houtcome : outcome = (.ok r, next) := houtcome
    refine ⟨?_, ?_, ?_, ?_, ?added, createRide_after_end hw⟩
    case added =>
      rw [houtcome]
      rintro _ ⟨⟩
      obtain ⟨hid, hrider, hpickup, hdestination, hestimate⟩ :=
        hcreated.request_eq
      refine ⟨hcreated, hid, hrider, hpickup, hdestination, ?_, ?_⟩
      · rw [hestimate]
        exact Bool.eq_iff_iff.1 Option.isSome_map
      · intro hbuiltIn minutes hminutes
        rw [hestimate] at hminutes
        obtain ⟨stop, -, rfl⟩ := Option.mem_map.1 hminutes
        exact one_le_estimate hbuiltIn w pickup stop
    all_goals simp [houtcome, hnamed, hidle]

namespace Example

/-- The rider of the first ride is on board. -/
def onBoard : World Roster := run {} start accepted

theorem reachable_onBoard : onBoard.Reachable {} := reachable_run rfl accepted

theorem unused_onBoard :
    onBoard.store.ride? (RideId.ofSerial (onBoard.drawn + 1)) = none := by
  decide +kernel

theorem cancels_onBoard :
    ∃ r next, (cancelRide trip "rider").runOn onBoard = (.ok r, next) ∧
    r.rider = "a" ∧ next.store.ride? (RideId.ofSerial (next.drawn + 1)) =
      none := by
  have hrider : ((cancelRide trip "rider").runOn onBoard).1.toOption.map
      (·.rider) = some "a" := by
    decide +kernel
  have hunused : ((cancelRide trip "rider").runOn onBoard).2.store.ride?
      (RideId.ofSerial (((cancelRide trip "rider").runOn onBoard).2.drawn +
        1)) = none := by
    decide +kernel
  rcases hrun : (cancelRide trip "rider").runOn onBoard with ⟨e | r, next⟩
  · rw [hrun] at hrider
    cases hrider
  · rw [hrun] at hrider hunused
    exact ⟨r, next, rfl, Option.some.inj hrider, hunused⟩

end Example

/-- In the example a blank and the rider on board are refused, and another rider
is served; so is the first one after the ride is cancelled. -/
theorem request_decided_by_rider_example :
    Example.onBoard.Reachable {} ∧ Example.place.inRange = true ∧
      Example.onBoard.store.ride?
        (RideId.ofSerial (Example.onBoard.drawn + 1)) = none ∧
      (∃ cause,
        ((createRide {} " " Example.place none).runOn Example.onBoard).1 =
        .error (.validation cause)) ∧
      (∃ cause,
        ((createRide {} "a" Example.place none).runOn Example.onBoard).1 =
        .error (.conflict cause)) ∧
      (∃ r, ((createRide {} "b" Example.place none).runOn Example.onBoard).1 =
        .ok r) ∧
      ∃ r next, (cancelRide Example.trip "rider").runOn Example.onBoard =
        (.ok r, next) ∧
        ∃ r', ((createRide {} r.rider Example.place none).runOn next).1 =
          .ok r' := by
  have hactive : ∃ row ∈ Example.onBoard.store.rides,
      row.rider = "a" ∧ row.status ∈ [.requested, .accepted, .inProgress] := by
        decide +kernel
  have hidle : ¬∃ row ∈ Example.onBoard.store.rides,
      row.rider = "b" ∧ row.status ∈ [.requested, .accepted, .inProgress] := by
        decide +kernel
  obtain ⟨hblank, -⟩ := request_decided_by_rider Example.reachable_onBoard " "
    Example.inRange_place none Example.unused_onBoard
  obtain ⟨-, hconflict, -, -, -, hlater⟩ :=
    request_decided_by_rider Example.reachable_onBoard "a"
    Example.inRange_place none Example.unused_onBoard
  obtain ⟨-, -, hserved, -⟩ :=
    request_decided_by_rider Example.reachable_onBoard "b"
    Example.inRange_place none Example.unused_onBoard
  obtain ⟨r, next, hrun, -, hnew⟩ := Example.cancels_onBoard
  refine ⟨Example.reachable_onBoard, Example.inRange_place,
    Example.unused_onBoard, hblank.2 (by decide),
    hconflict.2 ⟨by decide, hactive⟩, hserved.2 ⟨by decide, hidle⟩,
    r, next, hrun, ?_⟩
  exact hlater Example.trip r next (.inr ⟨"rider", hrun⟩) [] (by simp) next rfl
    hnew Example.place none Example.inRange_place

end World

end Ridehail
