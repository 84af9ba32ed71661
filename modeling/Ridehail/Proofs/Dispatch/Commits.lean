import Ridehail.Proofs.Dispatch.Calls
import Ridehail.Proofs.Dispatch.Effects
import Ridehail.Proofs.Dispatch.Sound
import Ridehail.Proofs.Store.Readback

/-!
# What the service commits

The service stores a change first, then tells the index and publishes events, so
a single commit shows in the store, in the index and in the log.  `World.Commit`
lists the commits: all that the service can do to a world, with what it knows of
the arguments at that moment.  Every statement about the three of them, or about
how they agree, is then a case analysis of this one relation.

The end of a ride is one commit together with freeing its driver.  In between
there would be a busy driver on no ride.

## Main results

* `World.Commit.served_or_online` — what a commit writes.
* `World.Commits.sound` — commits keep the store sound.
-/

namespace Ridehail

/-- The status that a ride has after a step in its life. -/
def RideEventKind.status : RideEventKind → RideStatus
  | .requested => .requested
  | .accepted => .accepted
  | .started => .inProgress
  | .completed => .completed
  | .cancelled => .cancelled

/-- A number of minutes that the service may estimate for a trip. -/
def Setup.Estimates (setup : Setup) (minutes : Int) : Prop :=
  ∃ estimator now start stop, (estimator = setup.eta ∨ estimator = .straight) ∧
    minutes = EtaEstimator.minutes estimator now start stop

/-- If the event announces a cancellation, the call is one to cancel the ride,
by the one whom the event names. -/
def ServiceCall.Causes (c : ServiceCall) (e : RideEvent) : Prop :=
  e.kind = .cancelled →
    ∃ initiatedBy, c = .cancelRide e.ride initiatedBy ∧
      e.initiatedBy = some initiatedBy

namespace DriverRow

/-- The row with the location that was given, if one was. -/
def locatedFrom (row : DriverRow) (place : Option GeoPoint) (at_ : Instant) :
    DriverRow :=
  match place with
  | some p => row.located p at_
  | none => row

/-- The row after what a driver reports on a call, and does not thereby leave
the service. -/
inductive Reports (c : ServiceCall) (now : Instant)
                    (row : DriverRow) : DriverRow → Prop
  | ping {p : GeoPoint} (hp : p.inRange = true) :
           Reports c now row (row.located p now)
  | enRoute : Reports c now row (row.withStatus .enRoute now)
  | online {id : DriverId} {place : Option GeoPoint}
      {hplace : ∀ p ∈ place, p.inRange = true}
      (hc : c = .goOnline id place hplace) {p : GeoPoint}
      (hp : (row.locatedFrom place now).PlacedAt p) :
      Reports c now row ((row.locatedFrom place now).withStatus .available now)

variable {c : ServiceCall} {now : Instant} {row later : DriverRow}

theorem Reports.id_eq (h : row.Reports c now later) : later.id = row.id := by
  cases h with
  | ping hp => rfl
  | enRoute => rfl
  | @online id place => cases place <;> rfl

/-- No report makes a driver busy. -/
theorem Reports.busy (h : row.Reports c now later)
    (hbusy : later.status = .busy) :
    row.status = .busy := by
  cases h with
  | ping hp => exact hbusy
  | enRoute => cases hbusy
  | online hc hp => cases hbusy

/-- A driver who has a place keeps one. -/
theorem Reports.placed (h : row.Reports c now later) {p : GeoPoint}
    (hp : row.PlacedAt p) :
    ∃ q, later.PlacedAt q := by
  cases h with
  | ping hrange => exact ⟨_, row.placedAt_located hrange now⟩
  | enRoute => exact ⟨p, hp⟩
  | online hc hq => exact ⟨_, hq⟩

theorem Reports.permitted (h : row.Reports c now later) :
    later.permitted = true := by
  cases h with
  | ping hrange => exact (row.placedAt_located hrange now).permitted
  | enRoute => rfl
  | online hc hq => exact PlacedAt.permitted hq

end DriverRow

namespace World

variable {σ : Type} [DriverIndex σ]

/-! ## Commits -/

/-- Nothing happened but that the index may have been asked who is near, and
identifiers may have been drawn. -/
def Still (w next : World σ) : Prop :=
  ∃ index drawn, next = { w with index := index, drawn := drawn } ∧
    (index = w.index ∨ ∃ p count radiusKm,
      index = (DriverIndex.nearest p count radiusKm w.index).2)

/-- The driver of a ride that has taken a step is freed if the ride is over and
the driver may be freed. -/
inductive Released (w : World σ) (r : Ride) : World σ → Prop
  | nobody (h : r.status = .inProgress ∨ r.driver = none) : Released w r w
  | kept (row : DriverRow) (hrow : w.store.driver? row.id = some row)
      (hdriver : r.driver = some row.id) (hstatus : row.status ≠ .busy) :
        Released w r w
  | freed (row : DriverRow) (p : GeoPoint)
      (hrow : w.store.driver? row.id = some row)
      (hdriver : r.driver = some row.id) (hp : row.PlacedAt p)
      (hended : r.status.occupiesDriver = false) :
      Released w r
        { w with
          store := w.store.putDriver (row.withStatus .available w.now)
          index := (DriverIndex.put w.now row.id p .available w.index).2 }

/-- One commit of the service, or none, on a call. -/
inductive Commit (setup : Setup) (c : ServiceCall)
                   (w : World σ) : World σ → Prop
  | still {next : World σ} (h : w.Still next) : Commit setup c w next
  | register (d : Driver) (s' : Store) (hstatus : d.status = .offline)
      (hlocation : d.location = none)
      (h : w.store.insertDriver d = .ok (true, s')) :
      Commit setup c w { w with store := s' }
  | report (row later : DriverRow) (d : Driver) (pings : List LocationEvent)
      (hrow : w.store.driver? row.id = some row)
      (hlater : row.Reports c w.now later) (hd : later.Shows d) :
      Commit setup c w
        { w with
          store := w.store.putDriver later
          index := w.indexTold d
          log := w.log ++ pings.map .location }
  | retire (row : DriverRow) (at_ : Instant)
      (hrow : w.store.driver? row.id = some row) :
      Commit setup c w
        { w with
          store := w.store.putDriver (row.withStatus .offline at_)
          index := (DriverIndex.remove row.id w.index).2 }
  | request (r : Ride) (s' : Store) (hr : r.Fresh) (hat : r.updatedAt = w.now)
      (hestimate : ∀ minutes ∈ r.estimateMinutes, setup.Estimates minutes)
      (hplace : c.Located → s'.HasRide r)
      (h : w.store.insertRide r = .ok (true, s')) :
      Commit setup c w
        { w with
          store := s'
          log := w.log ++ [.ride (.ofRide .requested r w.now)] }
  | assign (copy accepted : Ride) (d : Driver) (s' : Store)
      (hcopy : c.Located → w.store.HasRide copy ∨ copy ∈ c.copies)
      (hd : w.store.findDriver d.id = .ok (some d))
      (haccept : copy.accept d.id w.now = .ok accepted)
      (h : w.store.assignRide accepted (d.withStatus .busy w.now) =
        .ok (true, s')) :
      Commit setup c w
        { w with
          store := s'
          index := w.indexTold (d.withStatus .busy w.now)
          log := w.log ++ [.ride (.ofRide .accepted accepted w.now),
            .assignment
              { ride := accepted.id, driver := d.id, timestamp := w.now }] }
  | advance (old r : Ride) (kind : RideEventKind) (initiatedBy : Option String)
      (s' : Store) (next : World σ)
      (hold : w.store.findRide old.id = .ok (some old)) (hstep : old.StepsTo r)
      (hkind : kind.status = r.status) (hat : r.updatedAt = w.now)
      (hcause : c.Causes { RideEvent.ofRide kind r w.now with
        initiatedBy := initiatedBy })
      (h : w.store.advanceRide r old.status = .ok (true, s'))
      (hnext : Released { w with store := s' } r next) :
      Commit setup c w
        { next with
          log := next.log ++
            [.ride { RideEvent.ofRide kind r w.now with
              initiatedBy := initiatedBy }] }

/-- Any number of commits of the service on a call. -/
abbrev Commits (setup : Setup) (c : ServiceCall) : World σ → World σ → Prop :=
  Relation.ReflTransGen (Commit setup c)

variable {setup : Setup} {c : ServiceCall} {w next : World σ}

theorem Still.refl (w : World σ) : w.Still w :=
  ⟨w.index, w.drawn, rfl, .inl rfl⟩

theorem Still.commits (h : w.Still next) : w.Commits setup c next :=
  .single (.still h)

theorem Still.store_eq (h : w.Still next) : next.store = w.store := by
  obtain ⟨index, drawn, rfl, -⟩ := h
  rfl

theorem Still.log_eq (h : w.Still next) : next.log = w.log := by
  obtain ⟨index, drawn, rfl, -⟩ := h
  rfl

/-! ## What commits write -/

theorem Released.log_eq {r : Ride} (h : w.Released r next) :
    next.log = w.log := by
  cases h <;> rfl

/-- Freeing a driver touches no ride. -/
theorem Released.hasRide {r r' : Ride} (h : w.Released r next) :
    next.store.HasRide r' ↔ w.store.HasRide r' := by
  cases h <;> exact Iff.rfl

theorem Released.store_eq {r : Ride} (h : w.Released r next) :
    next.store = w.store ∨ ∃ row, w.store.driver? row.id = some row ∧
      r.driver = some row.id ∧ r.status.occupiesDriver = false ∧
        (∃ p, row.PlacedAt p) ∧
        next.store = w.store.putDriver (row.withStatus .available w.now) := by
  cases h with
  | nobody h => exact .inl rfl
  | kept row hrow hdriver hstatus => exact .inl rfl
  | freed row p hrow hdriver hp hended =>
      exact .inr ⟨row, hrow, hdriver, hended, ⟨p, hp⟩, rfl⟩

/-- A commit writes what the service writes, or brings a driver online who then
has a place. -/
theorem Commit.served_or_online (h : w.Commit setup c next)
    (hs : w.store.Sound) :
    w.store.Served next.store ∨
      ∃ id place hplace row p, c = .goOnline id place hplace ∧
        w.store.driver? row.id = some row ∧
        (row.locatedFrom place w.now).PlacedAt p ∧
        next.store =
          w.store.putDriver
            ((row.locatedFrom place w.now).withStatus .available w.now) := by
  cases h with
  | still h =>
      left
      rw [h.store_eq]
  | register d s' hstatus hlocation h =>
      exact .inl (.single (.register d hstatus hlocation h))
  | report row later d pings hrow hlater hd =>
      have hpermitted := hlater.permitted
      cases hlater with
      | ping hp =>
          left
          refine .single (.locate row.id _ w.now hp ?_)
          exact Store.changeDriver_of_found hrow rfl hpermitted
      | enRoute =>
          left
          refine .single (.sideline
            ((row.toDriver none).withStatus .enRoute w.now) [row.status]
            (fun h => by cases h) ?_)
          exact Store.changeDriver_of_found hrow (by simp) hpermitted
      | online hc hp => exact .inr ⟨_, _, _, row, _, hc, hrow, hp, rfl⟩
  | retire row at_ hrow =>
      left
      refine .single (.sideline ((row.toDriver none).withStatus .offline at_)
        [row.status] (fun h => by cases h) ?_)
      exact Store.changeDriver_of_found hrow (by simp) rfl
  | request r s' hr hat hestimate hplace h =>
      exact .inl (.single (.request r hr h))
  | assign copy accepted d s' hcopy hd haccept h =>
      exact .inl
        (.single (.assign copy accepted (d.withStatus .busy w.now) w.now
          haccept rfl h))
  | advance old r kind initiatedBy s' mid hold hstep hkind hat hcause h hmid =>
      left
      have hwrite : w.store.ServiceWrite s' := .advance old r hold hstep h
      rcases hmid.store_eq with
        hsame | ⟨row, hrow, hdriver, hended, ⟨p, hp⟩, hfreed⟩
      · show w.store.Served mid.store
        rw [hsame]
        exact .single hwrite
      · have hfree : ¬s'.Engaged row.id :=
          hs.not_engaged_of_ended hold hstep h hended
            (hstep.driver_eq ▸ hdriver)
        show w.store.Served mid.store
        rw [hfreed]
        refine (Relation.ReflTransGen.single hwrite).tail
          (.free ((row.toDriver none).withStatus .available w.now)
            [row.status] hfree ?_)
        exact Store.changeDriver_of_found hrow (by simp)
          (DriverRow.PlacedAt.permitted hp)

/-- A commit keeps the store sound. -/
theorem Commit.sound (h : w.Commit setup c next) (hs : w.store.Sound) :
    next.store.Sound := by
  rcases h.served_or_online hs with
    hserved | ⟨id, place, hplace, row, p, -, hrow, hp, hstore⟩
  · exact hs.served hserved
  · have hid : (row.locatedFrom place w.now).id = row.id := by
      cases place <;> rfl
    have hlater :
        ((row.locatedFrom place w.now).withStatus .available w.now).PlacedAt
          p := hp
    rw [hstore]
    exact hs.putDriver (hid ▸ hrow) (hs.lawful.putDriver hlater.permitted)
      hlater.readable fun _ _ => ⟨p, hlater⟩

theorem Commits.sound (h : w.Commits setup c next) (hs : w.store.Sound) :
    next.store.Sound := by
  induction h with
  | refl => exact hs
  | tail _ hcommit ih => exact hcommit.sound ih

/-- What each commit keeps in a world whose store is sound, any number of them
keep. -/
theorem Commits.keep {P : World σ → Prop} (h : w.Commits setup c next)
    (hs : w.store.Sound)
    (hcommit : ∀ v v', v.store.Sound → P v → v.Commit setup c v' → P v')
    (hw : P w) : P next := by
  induction h with
  | refl => exact hw
  | tail hbefore hlast ih =>
      exact hcommit _ _ (Commits.sound hbefore hs) ih hlast

/-- Without a driver being brought online, commits write what the service
writes. -/
theorem Commits.served (h : w.Commits setup c next) (hs : w.store.Sound)
    (hc : ∀ id place hplace, c ≠ .goOnline id place hplace) :
    w.store.Served next.store := by
  refine h.keep (P := fun v => w.store.Served v.store) hs
    (fun v v' hv hbefore hcommit => ?_) .refl
  rcases hcommit.served_or_online hv with
    hserved | ⟨id, place, hplace, -, -, hcall, -⟩
  · exact hbefore.trans hserved
  · exact absurd hcall (hc id place hplace)

end World

end Ridehail
