import Ridehail.Dispatch.World

/-!
# What operations do to the world

An operation takes a world to an outcome and another world.  The equations of
this module say how, for each of the few ways in which operations touch the
world, so that the theory of an operation follows its text and never looks at
how operations are made.

## Main results

* `Dispatch.runOn_bind` — an operation goes on in the world that its first part
  leaves, unless that part fails.
* `Dispatch.runOn_query`, `runOn_write`, … — the ways in which the world is
  touched.
* `Dispatch.runOn_driver`, `runOn_ride` — looking up a record leaves the world
  alone.
-/

namespace Ridehail

/-- The index once it was told where a driver is, if that is known. -/
def World.indexTold {σ : Type} [DriverIndex σ] (w : World σ) (d : Driver) : σ :=
  match d.location with
  | none => w.index
  | some p => (DriverIndex.put w.now d.id p d.status w.index).2

namespace Dispatch

variable {σ α β : Type} (w : World σ)

/-! ## Sequences -/

@[simp] theorem runOn_pure (a : α) :
    (pure a : Dispatch σ α).runOn w = (.ok a, w) := rfl

@[simp] theorem runOn_throw (e : DispatchError) :
    (throw e : Dispatch σ α).runOn w = (.error e, w) := rfl

/-- A sequence goes on in the world that its first part leaves, unless that
fails. -/
theorem runOn_bind (x : Dispatch σ α) (f : α → Dispatch σ β) :
    (x >>= f).runOn w =
      match x.runOn w with
      | (.ok a, next) => (f a).runOn next
      | (.error e, next) => (.error e, next) := by
  simp only [runOn, ExceptT.run_bind, StateT.run_bind]
  rcases x.run.run w with ⟨a | e, next⟩ <;> rfl

variable {w} in
/-- How a sequence goes on after a part that succeeds. -/
theorem runOn_bind_ok {x : Dispatch σ α} {f : α → Dispatch σ β} {a : α}
    {next : World σ} (h : x.runOn w = (.ok a, next)) :
    (x >>= f).runOn w = (f a).runOn next := by
  rw [runOn_bind, h]

variable {w} in
theorem runOn_bind_error {x : Dispatch σ α} {f : α → Dispatch σ β}
    {e : DispatchError} {next : World σ} (h : x.runOn w = (.error e, next)) :
    (x >>= f).runOn w = (.error e, next) := by
  rw [runOn_bind, h]

variable {w} in
/-- A sequence that succeeds consists of parts that do. -/
theorem bind_eq_ok {x : Dispatch σ α} {f : α → Dispatch σ β} {b : β}
    {last : World σ} :
    (x >>= f).runOn w = (.ok b, last) ↔
      ∃ a next, x.runOn w = (.ok a, next) ∧
        (f a).runOn next = (.ok b, last) := by
  rw [runOn_bind]
  rcases hx : x.runOn w with ⟨e | a, next⟩
  · simp
  · simp only [Prod.mk.injEq, Except.ok.injEq]
    constructor
    · exact fun h => ⟨a, next, ⟨rfl, rfl⟩, h⟩
    · rintro ⟨a', next', ⟨rfl, rfl⟩, h⟩
      exact h

@[simp] theorem runOn_map (g : α → β) (x : Dispatch σ α) :
    (g <$> x).runOn w = ((x.runOn w).1.map g, (x.runOn w).2) := by
  rw [← bind_pure_comp, runOn_bind]
  rcases x.runOn w with ⟨e | a, next⟩ <;> rfl

/-! ## Ways to touch the world -/

@[simp] theorem runOn_now :
    (now : Dispatch σ Instant).runOn w = (.ok w.now, w) := rfl

@[simp] theorem runOn_flag (name : String) :
    (flag name : Dispatch σ Bool).runOn w = (.ok (w.flags.isEnabled name), w) :=
  rfl

@[simp] theorem runOn_outcome (x : Dispatch σ α) :
    (outcome x).runOn w = (.ok (x.runOn w).1, (x.runOn w).2) := rfl

@[simp] theorem runOn_publish (e : Event) :
    (publish e).runOn w = (.ok (), { w with log := w.log ++ [e] }) := rfl

/-- Looking something up leaves the world alone. -/
theorem runOn_query (look : Store → Except StoreFault α) :
    (query look).runOn w =
      match look w.store with
      | .ok a => (.ok a, w)
      | .error fault => (.error (DispatchError.storage fault), w) := by
  rw [query, runOn_bind]
  show (match look w.store with
    | .ok a => (pure a : Dispatch σ α)
    | .error fault => throw (DispatchError.storage fault)).runOn w = _
  cases look w.store <;> rfl

/-- A write leaves its store, and the rest of the world as it was. -/
theorem runOn_write (change : Store → Written) :
    (write change).runOn w =
      match change w.store with
      | .ok (applied, store) => (.ok applied, { w with store := store })
      | .error fault => (.error (DispatchError.storage fault), w) := by
  rw [write, runOn_bind]
  show (match change w.store with
    | .ok (applied, store) =>
        ((do
          modify fun w : World σ => { w with store := store }
          pure applied) : Dispatch σ Bool)
    | .error fault => throw (DispatchError.storage fault)).runOn w = _
  cases change w.store <;> rfl

/-- A question to the index leaves the index in its next state, answered or
not. -/
theorem runOn_askIndex (call : σ → Except IndexError α × σ) :
    (askIndex call).runOn w =
      ((call w.index).1.mapError DispatchError.externalService,
        { w with index := (call w.index).2 }) := by
  rcases hcall : call w.index with ⟨answer, index⟩
  have hget : (get : Dispatch σ (World σ)).runOn w = (.ok w, w) := rfl
  rw [askIndex, runOn_bind_ok hget, hcall]
  cases answer <;> rfl

variable {w} {next : World σ}

theorem query_eq_ok {look : Store → Except StoreFault α} {a : α} :
    (query look).runOn w = (.ok a, next) ↔ look w.store = .ok a ∧ next = w := by
  rw [runOn_query]
  cases look w.store <;> simp [eq_comm]

theorem write_eq_ok {change : Store → Written} {applied : Bool} :
    (write change).runOn w = (.ok applied, next) ↔
      ∃ s', change w.store = .ok (applied, s') ∧ next = { w with
        store := s' } := by
  rw [runOn_write]
  rcases change w.store with fault | ⟨applied', s'⟩
  · simp
  · simp only [Prod.mk.injEq, Except.ok.injEq]
    constructor
    · rintro ⟨rfl, rfl⟩
      exact ⟨s', ⟨rfl, rfl⟩, rfl⟩
    · rintro ⟨s'', ⟨rfl, rfl⟩, rfl⟩
      exact ⟨rfl, rfl⟩

/-! ## Records -/

theorem runOn_transition (w : World σ) (x : Except StateError α) :
    (transition x : Dispatch σ α).runOn w =
      (x.mapError DispatchError.invalidState, w) := by
  cases x <;> rfl

theorem runOn_driver (w : World σ) (id : DriverId) :
    (driver id).runOn w =
      match w.store.findDriver id with
      | .ok (some d) => (.ok d, w)
      | .ok none => (.error (.notFound (.driver id)), w)
      | .error fault => (.error (.storage fault), w) := by
  rw [driver, runOn_bind, runOn_query]
  rcases w.store.findDriver id with fault | (_ | d) <;> rfl

theorem runOn_ride (w : World σ) (id : RideId) :
    (ride id).runOn w =
      match w.store.findRide id with
      | .ok (some r) => (.ok r, w)
      | .ok none => (.error (.notFound (.ride id)), w)
      | .error fault => (.error (.storage fault), w) := by
  rw [ride, runOn_bind, runOn_query]
  rcases w.store.findRide id with fault | (_ | r) <;> rfl

theorem transition_eq_ok {x : Except StateError α} {a : α} :
    (transition x : Dispatch σ α).runOn w = (.ok a, next) ↔
      x = .ok a ∧ next = w := by
  rw [runOn_transition]
  cases x with
  | error e =>
      show ((Except.error (DispatchError.invalidState e), w) :
        Except DispatchError α × World σ) = (.ok a, next) ↔ _
      simp
  | ok b =>
      show ((Except.ok b, w) : Except DispatchError α × World σ) =
        (.ok a, next) ↔ _
      simp [eq_comm]

theorem driver_eq_ok {id : DriverId} {d : Driver} :
    (driver id).runOn w = (.ok d, next) ↔
      w.store.findDriver id = .ok (some d) ∧ next = w := by
  rw [runOn_driver]
  rcases w.store.findDriver id with fault | (_ | d) <;> simp [eq_comm]

theorem ride_eq_ok {id : RideId} {r : Ride} :
    (ride id).runOn w = (.ok r, next) ↔
      w.store.findRide id = .ok (some r) ∧ next = w := by
  rw [runOn_ride]
  rcases w.store.findRide id with fault | (_ | r) <;> simp [eq_comm]

variable [DriverIndex σ]

/-- A driver is told to the index at their location. -/
@[simp] theorem runOn_indexDriver (w : World σ) (d : Driver) :
    (indexDriver d).runOn w = (.ok (), { w with index := w.indexTold d }) := by
  unfold indexDriver World.indexTold
  cases d.location <;> rfl

@[simp] theorem runOn_forgetDriver (w : World σ) (id : DriverId) :
    (forgetDriver id).runOn w =
      (.ok (), { w with index := (DriverIndex.remove id w.index).2 }) := rfl

end Dispatch

end Ridehail
