import Ridehail.Proofs.Dispatch.Online

/-!
# What operations commit

An operation that succeeds has made commits of the service and answers with a
record that the store then has.  An operation that fails has committed nothing.
Both are shown together, along the text of the operation: `Dispatch.Ends` says
in which worlds an operation ends, and there is one rule for each kind of step
that an operation can begin with.

Failing without a commit is not a matter of course, because nothing is undone.
It holds because an operation refuses, if at all, before its first write, or
because that write did not apply; what follows an applied write cannot fail.

## Main results

* `Dispatch.ends_createRide`, `ends_completeRide`, … — the outcome of each
  operation.
* `ServiceCall.ends_perform` — the outcome of every call.
-/

namespace Ridehail

namespace Dispatch

variable {σ α β : Type} {w : World σ}

/-! ## Where operations end -/

/-- From the world, the operation ends with an answer and in a world as `Q`
says, or fails in a world as `E` says. -/
def Ends (x : Dispatch σ α) (w : World σ) (E : World σ → Prop)
    (Q : α → World σ → Prop) : Prop :=
  match x.runOn w with
  | (.ok a, next) => Q a next
  | (.error _, next) => E next

section Rules

variable {E E' : World σ → Prop} {Q : β → World σ → Prop}

theorem Ends.of_run {x : Dispatch σ β} {b : β} {next : World σ}
    (hx : x.runOn w = (.ok b, next)) (hQ : Q b next) : Ends x w E Q := by
  rwa [Ends, hx]

theorem ends_pure {b : β} (hQ : Q b w) : Ends (pure b) w E Q := hQ

theorem Ends.mono {Q' : β → World σ → Prop} {x : Dispatch σ β}
    (h : Ends x w E Q) (hE : ∀ next, E next → E' next)
    (hQ : ∀ b next, Q b next → Q' b next) : Ends x w E' Q' := by
  unfold Ends at h ⊢
  rcases hx : x.runOn w with ⟨e | b, next⟩
  · rw [hx] at h
    exact hE next h
  · rw [hx] at h
    exact hQ b next h

theorem Ends.bind {x : Dispatch σ α} {f : α → Dispatch σ β}
    (h : Ends x w E fun a next => Ends (f a) next E Q) :
    Ends (x >>= f) w E Q := by
  unfold Ends at h ⊢
  rw [runOn_bind]
  rcases hx : x.runOn w with ⟨e | a, next⟩
  · rwa [hx] at h
  · rw [hx] at h
    exact h

theorem Ends.map {x : Dispatch σ α} {g : α → β}
    (h : Ends x w E fun a next => Q (g a) next) :
    Ends (g <$> x) w E Q := by
  rw [← bind_pure_comp]
  exact Ends.bind h

/-- A sequence that begins with a step that succeeds. -/
theorem ends_bind_of_run {x : Dispatch σ α} {f : α → Dispatch σ β} {a : α}
    {next : World σ} (hx : x.runOn w = (.ok a, next))
    (hf : Ends (f a) next E Q) : Ends (x >>= f) w E Q :=
  Ends.bind (.of_run hx hf)

theorem ends_bind_now {f : Instant → Dispatch σ β} (hf : Ends (f w.now) w E Q) :
    Ends (now >>= f) w E Q :=
  ends_bind_of_run (runOn_now w) hf

theorem ends_bind_flag {name : String} {f : Bool → Dispatch σ β}
    (hf : ∀ on, Ends (f on) w E Q) : Ends (flag name >>= f) w E Q :=
  ends_bind_of_run (runOn_flag w name) (hf _)

/-- A check that lets the rest happen or fails. -/
theorem ends_guard {c : Prop} [Decidable c] {e : DispatchError}
    {f : PUnit → Dispatch σ β} (hE : E w) (hf : ¬c → Ends (f ⟨⟩) w E Q) :
    Ends (if c then throw e >>= f else f ⟨⟩) w E Q := by
  split
  · exact hE
  · rename_i hc
    exact hf hc

theorem ends_bind_query {look : Store → Except StoreFault α}
    {f : α → Dispatch σ β} (hE : E w)
    (hf : ∀ a, look w.store = .ok a → Ends (f a) w E Q) :
    Ends (query look >>= f) w E Q := by
  apply Ends.bind
  rw [Ends, runOn_query]
  cases hlook : look w.store with
  | error fault => exact hE
  | ok a => exact hf a hlook

theorem ends_bind_transition {x : Except StateError α} {f : α → Dispatch σ β}
    (hE : E w) (hf : ∀ a, x = .ok a → Ends (f a) w E Q) :
    Ends (transition x >>= f) w E Q := by
  apply Ends.bind
  cases hx : x with
  | error cause => exact hE
  | ok a => exact hf a hx

theorem ends_bind_driver {id : DriverId} {f : Driver → Dispatch σ β} (hE : E w)
    (hf : ∀ d, w.store.findDriver id = .ok (some d) → Ends (f d) w E Q) :
    Ends (driver id >>= f) w E Q := by
  apply Ends.bind
  rw [Ends, runOn_driver]
  rcases hfind : w.store.findDriver id with fault | (_ | d)
  · exact hE
  · exact hE
  · exact hf d hfind

theorem ends_bind_ride {id : RideId} {f : Ride → Dispatch σ β} (hE : E w)
    (hf : ∀ r, w.store.findRide id = .ok (some r) → Ends (f r) w E Q) :
    Ends (ride id >>= f) w E Q := by
  apply Ends.bind
  rw [Ends, runOn_ride]
  rcases hfind : w.store.findRide id with fault | (_ | r)
  · exact hE
  · exact hE
  · exact hf r hfind

/-- A write, and what follows it if it applies and if it does not. -/
theorem ends_bind_write {change : Store → Written} {f : Bool → Dispatch σ β}
    (hE : E w) (hsame : ∀ s', change w.store = .ok (false, s') → s' = w.store)
    (hfalse : Ends (f false) w E Q)
    (htrue : ∀ s', change w.store = .ok (true, s') → Ends (f true) { w with
      store := s' } E Q) :
    Ends (write change >>= f) w E Q := by
  apply Ends.bind
  rw [Ends, runOn_write]
  rcases hwrite : change w.store with fault | ⟨applied, s'⟩
  · exact hE
  · cases applied with
    | false =>
        obtain rfl := hsame s' hwrite
        exact hfalse
    | true => exact htrue s' hwrite

/-- What follows an operation whose failure is looked at. -/
theorem ends_bind_outcome {x : Dispatch σ α}
    {f : Except DispatchError α → Dispatch σ β}
    (h : Ends x w (fun next => ∀ e, Ends (f (.error e)) next E Q)
      fun a next => Ends (f (.ok a)) next E Q) :
    Ends (outcome x >>= f) w E Q := by
  apply ends_bind_of_run (runOn_outcome w x)
  unfold Ends at h
  rcases hx : x.runOn w with ⟨e | a, next⟩
  · rw [hx] at h
    exact h e
  · rw [hx] at h
    exact h

theorem ends_bind_checkDriver {r : Ride} {id : DriverId}
    {f : Unit → Dispatch σ β} (hE : E w)
    (hf : r.driver = some id → Ends (f ()) w E Q) :
    Ends (checkDriver r id >>= f) w E Q := by
  unfold checkDriver
  split
  · exact hE
  · rename_i hsame
    exact hf (by simpa using hsame)

/-- A step of a ride is stored, or nothing has happened. -/
theorem ends_bind_storeStep {r : Ride} {previous : RideStatus}
    {f : Unit → Dispatch σ β} (hE : E w)
    (hf : ∀ s', w.store.advanceRide r previous = .ok (true, s') →
      Ends (f ()) { w with store := s' } E Q) :
    Ends (storeStep r previous >>= f) w E Q := by
  apply Ends.bind
  unfold storeStep
  exact ends_bind_write hE (fun _ h => Store.changeRide_unapplied h) hE hf

end Rules

/-! ## Registering and starting -/

variable [DriverIndex σ] {setup : Setup} {c : ServiceCall}

theorem ends_registerDriver (n : NewDriver) :
    Ends (registerDriver n) w w.Still fun d next =>
      w.Commits setup c next ∧ next.store.HasDriver d := by
  have hstill := World.Still.refl w
  unfold registerDriver
  dsimp only
  apply ends_guard hstill
  intro _
  apply ends_bind_now
  apply ends_bind_write hstill fun _ h => Store.insertDriver_unapplied h
  · exact hstill
  · intro s' h
    exact ⟨.single (.register _ s' rfl rfl h),
      Store.hasDriver_of_insertDriver rfl h⟩

theorem ends_startRide (id : RideId) (driver : DriverId) :
    Ends (startRide id driver) w w.Still fun r next =>
      w.Commits setup c next ∧ next.store.HasRide r := by
  have hstill := World.Still.refl w
  unfold startRide
  apply ends_bind_ride hstill
  intro before hbefore
  apply ends_bind_checkDriver hstill
  intro _
  apply ends_bind_now
  apply ends_bind_transition hstill
  intro r hr
  obtain ⟨hstatus, hafter⟩ := Ride.start_eq_ok.1 hr
  have hfound := Store.findRide_self hbefore
  have hstep : before.StepsTo r := ⟨_, .inl hr⟩
  apply ends_bind_storeStep hstill
  intro s' hs'
  rw [← hstatus] at hs'
  refine ⟨.single (.advance before r .started none s' _ hfound
    hstep ?_ ?_ nofun hs'
    (.nobody (.inl ?_))), Store.hasRide_of_advanceRide hfound hstep hs'⟩
  all_goals rw [hafter]
  rfl

/-! ## Finding a driver -/

/-- A claim is lost, and nothing has happened, or it is committed. -/
theorem ends_assignRide (setup : Setup) {E : World σ → Prop} (hE : E w)
    {r : Ride} (hcopy : c.Located → w.store.HasRide r ∨ r ∈ c.copies)
    (id : DriverId) :
    Ends (assignRide r id) w E fun claimed next =>
      match claimed with
      | none => next = w
      | some accepted =>
          w.Commit setup c next ∧
            (w.store.HasRide r → next.store.HasRide accepted) := by
  unfold assignRide
  apply ends_bind_query hE
  intro found hfound
  cases found with
  | none => exact rfl
  | some d =>
      obtain rfl := Store.id_eq_of_findDriver hfound
      dsimp only
      split
      · exact rfl
      · apply ends_bind_now
        apply ends_bind_transition hE
        intro accepted haccept
        apply ends_bind_transition hE
        intro busy hbusy
        obtain ⟨-, rfl⟩ := Driver.startRide_eq_ok.1 hbusy
        apply ends_bind_write hE fun _ h => Store.assignRide_unapplied h
        · exact rfl
        · intro s' h
          rw [if_neg (by simp)]
          apply ends_bind_of_run (runOn_indexDriver _ _)
          apply ends_bind_of_run (runOn_publish _ _)
          apply ends_bind_of_run (runOn_publish _ _)
          refine ends_pure ⟨?_, fun hr => ?_⟩
          · have hcommit : w.Commit setup c _ :=
              .assign r accepted d s' hcopy hfound haccept h
            rw [List.append_cons] at hcommit
            exact hcommit
          · exact hr.assigned (d := d.withStatus .busy w.now) haccept h

theorem ends_claimOneOf (setup : Setup) (policy : MatchingPolicy)
    (strategy : Strategy) {E : World σ → Prop} (hE : E w) {r : Ride}
    (hcopy : c.Located → w.store.HasRide r ∨ r ∈ c.copies)
    (candidates : List Candidate) :
    Ends (claimOneOf policy strategy r candidates) w E fun claimed next =>
      match claimed with
      | none => next = w
      | some accepted =>
          w.Commit setup c next ∧
            (w.store.HasRide r → next.store.HasRide accepted) := by
  -- Every lost claim leaves fewer candidates, in the same world.
  induction h : candidates.length using Nat.strongRecOn
      generalizing candidates with
  | ind n ih =>
      rw [claimOneOf]
      split
      · exact rfl
      · rename_i chosen hchosen
        apply Ends.bind
        apply (ends_assignRide setup hE hcopy chosen.driver).mono fun _ h => h
        intro claimed next hclaimed
        cases claimed with
        | some accepted => exact hclaimed
        | none =>
            obtain rfl := hclaimed
            dsimp only
            split
            · exact ih _ (h ▸ length_othersThan_lt hchosen) _ rfl
            · exact rfl

/-- If no driver is found, nothing has happened, and the ride is as it was. -/
theorem ends_matchRide (policy : MatchingPolicy) {r : Ride}
    (hcopy : c.Located → w.store.HasRide r ∨ r ∈ c.copies) :
    Ends (matchRide policy r) w w.Still fun claimed next =>
      w.Commits setup c next ∧ (w.store.HasRide r →
        next.store.HasRide (claimed.getD r)) := by
  unfold matchRide
  split
  · exact ends_pure ⟨.refl, fun hr => hr⟩
  · let asked : World σ :=
      { w with
        index :=
          (DriverIndex.nearest r.pickup policy.maxDrivers
            policy.maxRadiusKm w.index).2 }
    have hasked : w.Still asked :=
      ⟨asked.index, w.drawn, rfl, .inr ⟨_, _, _, rfl⟩⟩
    apply Ends.bind
    rw [Ends, runOn_askIndex]
    cases (DriverIndex.nearest r.pickup policy.maxDrivers policy.maxRadiusKm
        w.index).1 with
    | error e => exact hasked
    | ok candidates =>
        apply ends_bind_flag
        intro advanced
        have hclaims :=
          ends_claimOneOf setup policy (.ofAdvanced advanced) hasked
            hcopy candidates
        apply hclaims.mono fun _ h => h
        intro claimed next h
        cases claimed with
        | none =>
            obtain rfl := h
            exact ⟨hasked.commits, fun hr => hr⟩
        | some accepted => exact ⟨hasked.commits.tail h.1, h.2⟩

theorem ends_retryMatching (policy : MatchingPolicy) (id : RideId) :
    Ends (retryMatching policy id) w w.Still fun r next =>
      w.Commits setup c next ∧ next.store.HasRide r := by
  have hstill := World.Still.refl w
  unfold retryMatching
  apply ends_bind_ride hstill
  intro r hr
  obtain ⟨row, hrow, hread⟩ := Store.findRide_eq_some.1 (Store.findRide_self hr)
  have hhas : w.store.HasRide r := ⟨row, hrow, RideRow.shows_of_read hread⟩
  apply ends_guard hstill
  intro _
  apply Ends.bind
  apply (ends_matchRide policy fun _ => .inl hhas).mono fun _ h => h
  intro claimed next h
  exact ends_pure ⟨h.1, h.2 hhas⟩

/-- A ride that was made is added, and whatever comes of offering it, it is
there. -/
theorem ends_request (policy : MatchingPolicy) {E : World σ → Prop} (hE : E w)
    {r : Ride} (hr : r.Fresh) (hat : r.updatedAt = w.now)
    (hpickup : r.pickup.inRange = true)
    (hestimate : ∀ minutes ∈ r.estimateMinutes, setup.Estimates minutes)
    (hdestination : c.Located → ∀ p ∈ r.destination, p.inRange = true) :
    Ends (do
      if !(← write (·.insertRide r)) then
        throw (.conflict (.riderHasRide r.rider))
      publishRide .requested r w.now
      match ← outcome (matchRide policy r) with
      | .ok (some accepted) => return accepted
      | _ => return r) w E fun r next =>
        w.Commits setup c next ∧ (c.Located → next.store.HasRide r) := by
  apply ends_bind_write hE fun _ h => Store.insertRide_unapplied h
  · exact hE
  · intro s' h
    rw [if_neg (by simp)]
    apply ends_bind_of_run (runOn_publish _ _)
    let requested : World σ :=
      { w with
        store := s', log := w.log ++ [.ride (.ofRide .requested r w.now)] }
    have hplace (hc : c.Located) : s'.HasRide r :=
      Store.hasRide_of_insertRide hpickup (hdestination hc) h
    have hcommit : w.Commit setup c requested :=
      .request r s' hr hat hestimate hplace h
    apply ends_bind_outcome
    apply (ends_matchRide (w := requested) policy fun hc =>
      .inl (hplace hc)).mono
    · intro next hstill _
      refine ⟨(Relation.ReflTransGen.single hcommit).trans hstill.commits,
        fun hc => ?_⟩
      rw [hstill.store_eq]
      exact hplace hc
    · intro claimed next hmatched
      have hcommits := (Relation.ReflTransGen.single hcommit).trans hmatched.1
      cases claimed with
      | none => exact ⟨hcommits, fun hc => hmatched.2 (hplace hc)⟩
      | some accepted => exact ⟨hcommits, fun hc => hmatched.2 (hplace hc)⟩

theorem ends_createRide (setup : Setup) (rider : RiderId) {pickup : GeoPoint}
    (hpickup : pickup.inRange = true) {destination : Option GeoPoint}
    (hdestination : c.Located → ∀ p ∈ destination, p.inRange = true) :
    Ends (createRide setup rider pickup destination) w w.Still fun r next =>
      w.Commits setup c next ∧ (c.Located → next.store.HasRide r) := by
  obtain ⟨hlat, hlng⟩ := GeoPoint.isNaN_of_inRange hpickup
  let drawn : World σ := { w with drawn := w.drawn + 1 }
  have hdrawn : w.Still drawn := ⟨w.index, _, rfl, .inl rfl⟩
  have hdraw : (drawRideId setup).runOn w =
      (.ok (setup.rideId drawn.drawn), drawn) := rfl
  unfold createRide
  dsimp only
  apply ends_guard (World.Still.refl w)
  intro _
  apply ends_bind_now
  apply ends_bind_of_run hdraw
  have hrequest (estimate : Option Int)
      (h : ∀ minutes ∈ estimate, setup.Estimates minutes) :=
    (ends_request (w := drawn) (c := c) setup.matching hdrawn
      (r := { Ride.request (setup.rideId drawn.drawn) rider pickup
        destination w.now with
        estimateMinutes := estimate })
      ⟨_, _, _, _, _, estimate, hlat, hlng, rfl⟩ rfl hpickup h
      hdestination).mono (fun _ h => h)
      (fun r next h => And.intro (hdrawn.commits.trans h.1) h.2)
  cases destination with
  | none => exact ends_bind_of_run (runOn_pure drawn none) (hrequest none nofun)
  | some stop =>
      obtain ⟨minutes, hminutes, hestimates⟩ :=
        estimateMinutes_runOn setup drawn pickup stop
      apply Ends.bind
      apply Ends.map
      exact .of_run hminutes (hrequest (some minutes) fun m hm => by
        cases hm; exact hestimates)

/-! ## The end of a ride -/

theorem ends_completeRide (hs : w.store.Sound) (id : RideId) (driver : DriverId)
    (fare : Decimal) :
    Ends (completeRide id driver fare) w w.Still fun r next =>
      w.Commits setup c next ∧ next.store.HasRide r := by
  have hstill := World.Still.refl w
  unfold completeRide
  dsimp only
  apply ends_guard hstill
  intro _
  apply ends_bind_ride hstill
  intro before hbefore
  apply ends_bind_checkDriver hstill
  intro hdriver
  apply ends_bind_now
  apply ends_bind_transition hstill
  intro r hr
  obtain ⟨hstatus, hafter⟩ := Ride.complete_eq_ok.1 hr
  have hfound := Store.findRide_self hbefore
  have hstep : before.StepsTo r := ⟨_, .inr (.inl ⟨_, hr⟩)⟩
  have hcompleted : r.status = .completed := by rw [hafter]
  apply ends_bind_storeStep hstill
  intro s' hs'
  rw [← hstatus] at hs'
  have hfree (d : Driver) : (d.status ∈ [DriverStatus.busy] ∧
      d.finishRide w.now = .ok (d.withStatus .available w.now)) ∨
      (d.status ≠ .busy ∧ ∃ cause, d.finishRide w.now = .error cause) := by
    by_cases hbusy : d.status = .busy
    · exact .inl ⟨by rw [hbusy]; decide, if_pos hbusy⟩
    · exact .inr ⟨hbusy, _, if_neg hbusy⟩
  obtain ⟨freed, hrun, hreleased⟩ := releaseDriver_released hs hfound hstep
    (hstep.driver_eq.trans hdriver) (by rw [hcompleted]; rfl) hs' hfree
  apply ends_bind_of_run hrun
  refine ⟨.single (.advance before r .completed none s' freed hfound hstep
    hcompleted.symm (by rw [hafter]) nofun hs' hreleased), ?_⟩
  exact hreleased.hasRide.2 (Store.hasRide_of_advanceRide hfound hstep hs')

theorem ends_cancelRide (hs : w.store.Sound) (id : RideId)
    (initiatedBy : String) :
    Ends (cancelRide id initiatedBy) w w.Still fun r next =>
      w.Commits setup (.cancelRide id initiatedBy) next ∧
        next.store.HasRide r := by
  have hstill := World.Still.refl w
  unfold cancelRide
  dsimp only
  apply ends_bind_ride hstill
  intro before hbefore
  apply ends_bind_now
  apply ends_bind_transition hstill
  intro r hr
  obtain ⟨hstatus, hafter⟩ := Ride.cancel_eq_ok.1 hr
  have hfound := Store.findRide_self hbefore
  have hstep : before.StepsTo r := ⟨_, .inr (.inr hr)⟩
  have hcancelled : r.status = .cancelled := by rw [hafter]
  have hid : r.id = id := hstep.id_eq.trans (Store.id_eq_of_findRide hbefore)
  apply ends_bind_storeStep hstill
  intro s' hs'
  have hfree (d : Driver) : (d.status ∈ [DriverStatus.busy, .enRoute] ∧
      d.leaveRide w.now = .ok (d.withStatus .available w.now)) ∨
      (d.status ≠ .busy ∧ ∃ cause, d.leaveRide w.now = .error cause) := by
    by_cases hbusy : d.status = .busy ∨ d.status = .enRoute
    · exact .inl ⟨by simpa using hbusy, if_pos hbusy⟩
    · exact .inr ⟨fun h => hbusy (.inl h), _, if_neg hbusy⟩
  have hcommit (next : World σ) (hnext : World.Released { w with
      store := s' } r next) :
      w.Commits setup (.cancelRide id initiatedBy) _ :=
    .single (.advance before r .cancelled (some initiatedBy) s' next hfound
      hstep hcancelled.symm
      (by rw [hafter]) (fun _ => ⟨initiatedBy, by rw [← hid]; rfl, rfl⟩) hs'
      hnext)
  have hplace := Store.hasRide_of_advanceRide hfound hstep hs'
  cases hdriver : r.driver with
  | none => exact ⟨hcommit _ (.nobody (.inr hdriver)), hplace⟩
  | some driver =>
      obtain ⟨freed, hrun, hreleased⟩ :=
        releaseDriver_released hs hfound hstep hdriver
        (by rw [hcancelled]; rfl) hs' hfree
      apply ends_bind_of_run hrun
      exact ⟨hcommit freed hreleased, hreleased.hasRide.2 hplace⟩

/-! ## The status of a driver -/

theorem ends_updateLocation (id : DriverId) {ping : Ping}
    (hp : ping.location.inRange = true) :
    Ends (updateLocation id ping) w w.Still fun d next =>
      w.Commits setup c next ∧ next.store.HasDriver d := by
  have hstill := World.Still.refl w
  unfold updateLocation
  apply ends_bind_now
  apply ends_bind_driver hstill
  intro d hd
  obtain ⟨row, hrow, hread⟩ := Store.findDriver_eq_some.1 hd
  obtain ⟨-, rfl⟩ := Store.mem_of_driver? hrow
  have hshows := (DriverRow.shows_of_read hread).located hp w.now
  apply ends_bind_of_run (storePing_runOn hrow hp w.now)
  apply ends_bind_of_run (runOn_indexDriver _ _)
  obtain ⟨pings, hpings⟩ := publishPing_runOn
    { w with
      store := w.store.putDriver (row.located ping.location w.now)
      index := w.indexTold (d.locate ping.location w.now) }
    (d.locate ping.location w.now) ping w.now
  apply ends_bind_of_run hpings
  have hfound : w.store.driver? (row.located ping.location w.now).id =
      some row := hrow
  exact ⟨.single (.report row _ _ pings hrow (.ping hp) hshows),
    Store.hasDriver_putDriver hfound hshows⟩

theorem ends_goOnline (hs : w.store.Sound) (id : DriverId)
    {place : Option GeoPoint} (hplace : ∀ p ∈ place, p.inRange = true) :
    Ends (goOnline id place) w w.Still fun d next =>
      w.Commits setup (.goOnline id place hplace) next ∧
        next.store.HasDriver d := by
  rcases goOnline_refused_or_ok hs id hplace with
    ⟨e, hrun⟩ | ⟨row, hrow, -, d, pings, hrun, hshows, p, hp⟩
  · rw [Ends, hrun]
    exact World.Still.refl w
  · obtain ⟨-, rfl⟩ := Store.mem_of_driver? hrow
    have hreports : row.Reports (.goOnline row.id place hplace) w.now _ :=
      .online rfl hp
    have hfound : w.store.driver?
        ((row.locatedFrom place w.now).withStatus .available w.now).id =
        some row := by
      rw [hreports.id_eq]
      exact hrow
    exact .of_run hrun ⟨.single (.report row _ d pings hrow hreports hshows),
      Store.hasDriver_putDriver hfound hshows⟩

theorem ends_goOffline (id : DriverId) :
    Ends (goOffline id) w w.Still fun d next =>
      w.Commits setup c next ∧ next.store.HasDriver d := by
  unfold goOffline
  apply ends_bind_driver (World.Still.refl w)
  intro d hd
  obtain ⟨row, hrow, hread⟩ := Store.findDriver_eq_some.1 hd
  obtain ⟨-, rfl⟩ := Store.mem_of_driver? hrow
  have hshows := (DriverRow.shows_of_read hread).withStatus .offline w.now
  apply ends_bind_now
  apply ends_bind_of_run (setDriverStatus_runOn hrow
    (d.goOffline w.now) hshows.id_eq (DriverStatus.mem_all row.status) rfl)
  apply ends_bind_of_run (runOn_forgetDriver _ _)
  have hfound : w.store.driver? (row.withStatus .offline w.now).id = some row :=
    hrow
  exact ⟨.single (.retire row w.now hrow),
    Store.hasDriver_putDriver hfound hshows⟩

theorem ends_setEnRoute (id : DriverId) :
    Ends (setEnRoute id) w w.Still fun d next =>
      w.Commits setup c next ∧ next.store.HasDriver d := by
  unfold setEnRoute
  apply ends_bind_driver (World.Still.refl w)
  intro d hd
  obtain ⟨row, hrow, hread⟩ := Store.findDriver_eq_some.1 hd
  obtain ⟨-, rfl⟩ := Store.mem_of_driver? hrow
  have hshows := (DriverRow.shows_of_read hread).withStatus .enRoute w.now
  apply ends_bind_now
  apply ends_bind_of_run (setDriverStatus_runOn hrow
    (d.setEnRoute w.now) hshows.id_eq (DriverStatus.mem_all row.status) rfl)
  apply ends_bind_of_run (runOn_indexDriver _ _)
  have hfound : w.store.driver? (row.withStatus .enRoute w.now).id = some row :=
    hrow
  refine ⟨?_, Store.hasDriver_putDriver hfound hshows⟩
  have hcommit : w.Commit setup c _ := .report row _ _ [] hrow .enRoute hshows
  rw [List.map_nil, List.append_nil] at hcommit
  exact .single hcommit

/-- A driver who is still stale is taken offline; the others are left alone. -/
theorem ends_forceOffline (d : Driver) (cutoff at_ : Instant) :
    Ends (forceOffline d cutoff at_) w w.Still fun _ next =>
      w.Commits setup c next := by
  unfold forceOffline
  apply ends_bind_write (World.Still.refl w) fun _ h =>
    Store.changeDriver_unapplied h
  · exact .refl
  · intro s' h
    obtain ⟨row, hrow, -, -, rfl⟩ := Store.changeDriver_applied h
    obtain ⟨-, hid⟩ := Store.mem_of_driver? hrow
    have hsame : row.id = d.id := hid
    rw [if_pos rfl, ← hsame]
    apply ends_bind_of_run (runOn_forgetDriver _ _)
    exact .single (.retire row at_ (hid.symm ▸ hrow))

/-- A sweep that has begun cannot fail: what goes wrong with a driver is
counted. -/
theorem ends_forceAllOffline (setup : Setup) (cutoff at_ : Instant)
    (drivers : List Driver) (report : SweepReport) {E : World σ → Prop} :
    Ends (forceAllOffline cutoff at_ drivers report) w E fun _ next =>
      w.Commits setup c next := by
  induction drivers generalizing w report with
  | nil => exact .refl
  | cons d rest ih =>
      apply ends_bind_outcome
      apply (ends_forceOffline d cutoff at_).mono
      · intro next hstill e
        exact (ih _).mono (fun _ h => h) fun _ last h => hstill.commits.trans h
      · intro applied next hcommits
        exact (ih _).mono (fun _ h => h) fun _ last h => hcommits.trans h

theorem ends_sweepAt (policy : TrackingPolicy) (at_ : Instant) :
    Ends (sweepAt policy at_) w w.Still fun _ next =>
      w.Commits setup c next := by
  unfold sweepAt
  apply ends_bind_query (World.Still.refl w)
  intro stale _
  exact ends_forceAllOffline setup _ at_ stale _

end Dispatch

/-! ## Calls -/

/-- The store has what a call answered with. -/
def Answer.Holds (s : Store) : Answer → Prop
  | .ride r => s.HasRide r
  | .driver d => s.HasDriver d
  | _ => True

/-- A call that succeeds has made commits of the service, and its answer is what
the store has; a call that fails has committed nothing. -/
theorem ServiceCall.ends_perform {σ : Type} [DriverIndex σ] {w : World σ}
    (hs : w.store.Sound) (setup : Setup) (c : ServiceCall) :
    Dispatch.Ends (c.perform setup) w w.Still fun answer next =>
      w.Commits setup c next ∧ (c.Located → answer.Holds next.store) := by
  have hanswer {α : Type} {x : Dispatch σ α} {holds : α → World σ → Prop}
      {g : α → Answer} (hg : ∀ a next, holds a next → (g a).Holds next.store)
      (h : Dispatch.Ends x w w.Still fun a next =>
        w.Commits setup c next ∧ holds a next) :
      Dispatch.Ends (g <$> x) w w.Still fun answer next =>
        w.Commits setup c next ∧ (c.Located → answer.Holds next.store) :=
    .map (h.mono (fun _ h => h) fun a next h => ⟨h.1, fun _ => hg a next h.2⟩)
  cases c with
  | createRide rider pickup destination hpickup =>
      exact .map (Dispatch.ends_createRide setup rider hpickup fun h => h)
  | retryMatching id =>
      exact hanswer (fun _ _ h => h) (Dispatch.ends_retryMatching _ id)
  | matchRide r =>
      exact hanswer (fun _ _ _ => trivial)
        (Dispatch.ends_matchRide _ fun _ => .inr (List.mem_singleton_self r))
  | assignRide r driver =>
      apply Dispatch.Ends.map
      have hclaim := Dispatch.ends_assignRide setup
        (World.Still.refl w) (c := .assignRide r driver)
        (fun _ => .inr (List.mem_singleton_self r)) driver
      apply hclaim.mono fun _ h => h
      intro claimed next h
      cases claimed with
      | none =>
          obtain rfl := h
          exact ⟨.refl, fun _ => trivial⟩
      | some accepted => exact ⟨.single h.1, fun _ => trivial⟩
  | startRide id driver =>
      exact hanswer (fun _ _ h => h) (Dispatch.ends_startRide id driver)
  | completeRide id driver fare =>
      exact hanswer (fun _ _ h => h)
        (Dispatch.ends_completeRide hs id driver fare)
  | cancelRide id initiatedBy =>
      exact hanswer (fun _ _ h => h)
        (Dispatch.ends_cancelRide hs id initiatedBy)
  | registerDriver n =>
      exact hanswer (fun _ _ h => h) (Dispatch.ends_registerDriver n)
  | updateLocation id ping hping =>
      exact hanswer (fun _ _ h => h) (Dispatch.ends_updateLocation id hping)
  | goOnline id place hplace =>
      exact hanswer (fun _ _ h => h) (Dispatch.ends_goOnline hs id hplace)
  | goOffline id => exact hanswer (fun _ _ h => h) (Dispatch.ends_goOffline id)
  | setEnRoute id =>
      exact hanswer (fun _ _ h => h) (Dispatch.ends_setEnRoute id)
  | sweep at_ =>
      exact .map ((Dispatch.ends_sweepAt _ at_).mono (fun _ h => h)
        fun _ _ h => ⟨h, fun _ => trivial⟩)

end Ridehail
