import ObscuraProto.Bridge.RequestPool
import ObscuraProto.Library.PoolProgress
import ObscuraProto.Library.Ranking

/-!
# The module's executors

The stream executor and the request executor are made under one lock, when they are
first asked for and again after a shutdown.  The shutdown holds the lock while it waits
for one executor and then for the other.
-/

namespace ObscuraProto

open Transition

inductive PoolKind where
  | stream | request
  deriving DecidableEq

/-- `_STREAM_EXECUTOR_MAX_WORKERS`. -/
def streamExecutorMaxWorkers : Nat := 1

def PoolKind.maxWorkers : PoolKind → Nat
  | stream => streamExecutorMaxWorkers
  | request => requestExecutorMaxWorkers

theorem PoolKind.maxWorkers_pos (kind : PoolKind) : 0 < kind.maxWorkers := by
  cases kind <;> decide

structure ModuleState where
  /-- `_stream_executor`, with all executors there were. -/
  stream : LazyPool.State := {}
  /-- `_request_executor`. -/
  request : LazyPool.State := {}
  /-- The executor `_shutdown_executors()` waits for, holding `_executor_lock`. -/
  closing : Option PoolKind := none
  deriving DecidableEq

inductive ModuleLabel where
  /-- `_get_executor()` or `_get_request_executor()`. -/
  | get (kind : PoolKind)
  | submit (kind : PoolKind) (task : Nat)
  | begin (kind : PoolKind) (executor : Nat)
  | finish (kind : PoolKind) (task : Nat)
  /-- `_shutdown_executors()` takes the lock. -/
  | shutdown
  /-- The executor it waits for has run all its tasks. -/
  | drained
  deriving DecidableEq

/-- The executor of a kind for a caller that has the lock. -/
def getExecutor (pool : LazyPool.State) : LazyPool.State × Nat :=
  let created :=
    { pool with
      executors := pool.executors ++ [{}]
      current := some pool.executors.length }
  match pool.current with
  | some id =>
      match pool.executors[id]? with
      | some executor => if executor.accepting then (pool, id) else (created, pool.executors.length)
      | none => (created, pool.executors.length)
  | none => (created, pool.executors.length)

namespace ModuleState

def pool (state : ModuleState) : PoolKind → LazyPool.State
  | .stream => state.stream
  | .request => state.request

def setPool (state : ModuleState) (kind : PoolKind) (pool : LazyPool.State) : ModuleState :=
  match kind with
  | .stream => { state with stream := pool }
  | .request => { state with request := pool }

/-- A step of one pool. -/
def advance (state : ModuleState) (kind : PoolKind) (label : LazyPool.Label) :
    Option ModuleState :=
  ((state.pool kind).step kind.maxWorkers label).map (state.setPool kind)

/-- `shutdown(wait=True)` on an executor that is not shut down yet. -/
def close (state : ModuleState) (kind : PoolKind) : Option ModuleState :=
  (state.advance kind .close).map fun next => { next with closing := some kind }

/-- The part of `_shutdown_executors()` after the stream executor. -/
def closeRequest (state : ModuleState) : ModuleState :=
  match state.close .request with
  | some next => next
  | none => { state with closing := none }

/-- `_shutdown_executors()` up to its first wait. -/
def closeBoth (state : ModuleState) : ModuleState :=
  match state.close .stream with
  | some next => next
  | none => state.closeRequest

def step (state : ModuleState) : ModuleLabel → Option ModuleState
  | .get kind =>
      if state.closing = none then
        match getExecutor (state.pool kind) with
        | (pool, id) => some (state.setPool kind { pool with tasks := pool.tasks ++ [.fetched id] })
      else none
  | .submit kind task => state.advance kind (.submit task)
  | .begin kind executor => state.advance kind (.begin executor)
  | .finish kind task => state.advance kind (.finish task)
  | .shutdown => if state.closing = none then some state.closeBoth else none
  | .drained =>
      match state.closing with
      | some .stream => (state.advance .stream .clear).map closeRequest
      | some .request =>
          (state.advance .request .clear).map fun next => { next with closing := none }
      | none => none

end ModuleState

/-- The executors of the module with their callers. -/
def moduleExecutors : System ModuleState ModuleLabel where
  initial := {}
  step := ModuleState.step

/-! ## The two pools -/

namespace ModuleState

variable {state next : ModuleState} {kind other : PoolKind} {pool : LazyPool.State}

@[simp] theorem pool_setPool (state : ModuleState) (kind other : PoolKind)
    (pool : LazyPool.State) :
    (state.setPool kind pool).pool other = if other = kind then pool else state.pool other := by
  cases kind <;> cases other <;> rfl

@[simp] theorem closing_setPool (state : ModuleState) (kind : PoolKind) (pool : LazyPool.State) :
    (state.setPool kind pool).closing = state.closing := by
  cases kind <;> rfl

@[simp] theorem pool_withClosing (state : ModuleState) (closing : Option PoolKind)
    (kind : PoolKind) : ModuleState.pool { state with closing } kind = state.pool kind := by
  cases kind <;> rfl

theorem advance_eq_some {label : LazyPool.Label} (advanced : state.advance kind label = some next) :
    ∃ pool, (LazyPool.system kind.maxWorkers).step (state.pool kind) label = some pool ∧
      next = state.setPool kind pool := by
  obtain ⟨pool, stepped, rfl⟩ := Option.map_eq_some_iff.mp advanced
  exact ⟨pool, stepped, rfl⟩

/-- Each pool goes through steps of its own. -/
def Refines (state next : ModuleState) : Prop :=
  ∀ kind, (LazyPool.system kind.maxWorkers).Along System.Free (state.pool kind) (next.pool kind)

/-- An executor is closed and not forgotten exactly while the shutdown waits for it. -/
def Locked (state : ModuleState) : Prop :=
  ∀ kind, (state.pool kind).status = some false ↔ state.closing = some kind

/-- No executor is closed. -/
def Unclosed (state : ModuleState) : Prop :=
  ∀ kind, (state.pool kind).status ≠ some false

theorem Locked.unclosed (locked : state.Locked) (unlocked : state.closing = none) :
    state.Unclosed := by
  intro kind closed
  rw [locked kind, unlocked] at closed
  cases closed

theorem refines_setPool {label : LazyPool.Label}
    (stepped : (LazyPool.system kind.maxWorkers).step (state.pool kind) label = some pool) :
    state.Refines (state.setPool kind pool) := by
  intro other
  rw [pool_setPool]
  split
  · next same =>
      subst same
      exact .step .refl trivial stepped
  · exact .refl

/-- Without a closed executor, a caller with the lock takes a step of the pool. -/
theorem step_get (pool : LazyPool.State) (capacity : Nat) (unclosed : pool.status ≠ some false) :
    (LazyPool.system capacity).step pool .get =
      some { (getExecutor pool).1 with
        tasks := (getExecutor pool).1.tasks ++ [.fetched (getExecutor pool).2] } := by
  cases current : pool.current with
  | none => simp [LazyPool.system, LazyPool.State.step, getExecutor, current]
  | some id =>
      cases found : pool.executors[id]? with
      | none => simp [LazyPool.State.status, current, found] at unclosed
      | some executor =>
          have accepting : executor.accepting = true := by
            simpa [LazyPool.State.status, current, found] using unclosed
          simp [LazyPool.system, LazyPool.State.step, getExecutor, current, found, accepting]

/-- A step that leaves the executor as it is keeps the lock. -/
theorem Locked.setPool (locked : state.Locked)
    (same : pool.status = some false ↔ (state.pool kind).status = some false) :
    (state.setPool kind pool).Locked := by
  intro other
  rw [pool_setPool, closing_setPool]
  split
  · next here => rw [same, ← locked other, here]
  · exact locked other

theorem Unclosed.close (unclosed : state.Unclosed) (closed : state.close kind = some next) :
    state.Refines next ∧ next.Locked := by
  obtain ⟨after, advanced, rfl⟩ := Option.map_eq_some_iff.mp closed
  obtain ⟨pool, stepped, rfl⟩ := advance_eq_some advanced
  constructor
  · intro other
    rw [pool_withClosing]
    exact refines_setPool stepped other
  · intro other
    rw [pool_withClosing, pool_setPool]
    split
    · next here => simp [here, (LazyPool.status_of_step stepped).2]
    · next apart => simp [unclosed other, Ne.symm apart]

theorem Unclosed.closeRequest (unclosed : state.Unclosed) :
    state.Refines state.closeRequest ∧ state.closeRequest.Locked := by
  rw [ModuleState.closeRequest]
  split
  · next closed => exact unclosed.close closed
  · constructor
    · intro kind
      rw [pool_withClosing]
      exact .refl
    · intro kind
      rw [pool_withClosing]
      simp [unclosed kind]

theorem Unclosed.closeBoth (unclosed : state.Unclosed) :
    state.Refines state.closeBoth ∧ state.closeBoth.Locked := by
  rw [ModuleState.closeBoth]
  split
  · next closed => exact unclosed.close closed
  · exact unclosed.closeRequest

theorem Refines.trans {middle : ModuleState} (first : state.Refines middle)
    (second : middle.Refines next) : state.Refines next :=
  fun kind => (first kind).trans (second kind)

theorem Locked.step {label : ModuleLabel} (locked : state.Locked)
    (taken : moduleExecutors.step state label = some next) :
    state.Refines next ∧ next.Locked := by
  have task : ∀ {kind : PoolKind} {label : LazyPool.Label} {next : ModuleState},
      state.advance kind label = some next →
        (∀ {pool : LazyPool.State},
          (LazyPool.system kind.maxWorkers).step (state.pool kind) label = some pool →
            pool.status = (state.pool kind).status) → state.Refines next ∧ next.Locked := by
    intro kind label next advanced same
    obtain ⟨pool, stepped, rfl⟩ := advance_eq_some advanced
    exact ⟨refines_setPool stepped, locked.setPool (by rw [same stepped])⟩
  cases label with
  | get kind =>
      simp only [moduleExecutors, ModuleState.step, Option.ite_none_right_eq_some,
        Option.some.injEq] at taken
      obtain ⟨unlocked, rfl⟩ := taken
      have unclosed := locked.unclosed unlocked kind
      have stepped := step_get (state.pool kind) kind.maxWorkers unclosed
      refine ⟨refines_setPool stepped, locked.setPool ?_⟩
      simp [(LazyPool.status_of_step stepped).2, unclosed]
  | submit kind id => exact task taken fun stepped => LazyPool.status_of_step stepped
  | begin kind id => exact task taken fun stepped => LazyPool.status_of_step stepped
  | finish kind id => exact task taken fun stepped => LazyPool.status_of_step stepped
  | shutdown =>
      simp only [moduleExecutors, ModuleState.step, Option.ite_none_right_eq_some,
        Option.some.injEq] at taken
      obtain ⟨unlocked, rfl⟩ := taken
      exact (locked.unclosed unlocked).closeBoth
  | drained =>
      have cleared : ∀ {kind : PoolKind} {pool : LazyPool.State}, state.closing = some kind →
          (LazyPool.system kind.maxWorkers).step (state.pool kind) .clear = some pool →
            (state.setPool kind pool).Unclosed := by
        intro kind pool closing stepped other
        rw [pool_setPool]
        split
        · simp [(LazyPool.status_of_step stepped).2]
        · next apart =>
            rw [Ne, locked other, closing]
            exact fun same => apart (Option.some.inj same).symm
      simp only [moduleExecutors, ModuleState.step] at taken
      split at taken
      · next closing =>
          obtain ⟨after, advanced, rfl⟩ := Option.map_eq_some_iff.mp taken
          obtain ⟨pool, stepped, rfl⟩ := advance_eq_some advanced
          have closed := (cleared closing stepped).closeRequest
          exact ⟨(refines_setPool stepped).trans closed.1, closed.2⟩
      · next closing =>
          obtain ⟨after, advanced, rfl⟩ := Option.map_eq_some_iff.mp taken
          obtain ⟨pool, stepped, rfl⟩ := advance_eq_some advanced
          have unclosed := cleared closing stepped
          constructor
          · intro kind
            rw [pool_withClosing]
            exact refines_setPool stepped kind
          · intro kind
            rw [pool_withClosing]
            exact ⟨fun closed => absurd closed (unclosed kind), nofun⟩
      · cases taken

theorem locked_of_reached {allowed : ModuleState → ModuleLabel → Prop}
    (reached : moduleExecutors.Reached allowed state) : state.Locked := by
  apply reached.invariant Locked
  · intro kind
    cases kind <;> simp [moduleExecutors, pool, LazyPool.State.status]
  · intro state label next locked _ taken
    exact (locked.step taken).2

/-- Each pool of the module is a pool of the library. -/
theorem pool_of_reached {allowed : ModuleState → ModuleLabel → Prop}
    (reached : moduleExecutors.Reached allowed state) (kind : PoolKind) :
    (LazyPool.system kind.maxWorkers).Reached System.Free (state.pool kind) := by
  apply reached.invariant_of
    (fun state => (LazyPool.system kind.maxWorkers).Reached System.Free (state.pool kind))
    (fun _ => locked_of_reached)
  · cases kind <;> exact .refl
  · intro state label next locked running _ taken
    exact running.trans ((locked.step taken).1 kind)

theorem sound_of_reached {allowed : ModuleState → ModuleLabel → Prop}
    (reached : moduleExecutors.Reached allowed state) (kind : PoolKind) :
    LazyPool.Sound kind.maxWorkers (state.pool kind) :=
  LazyPool.sound_of_reached (pool_of_reached reached kind)

/-- What the module's executors of a kind do, however often they are made anew. -/
structure Serves (kind : PoolKind) (pool : LazyPool.State) : Prop where
  workers : (pool.executors.map (·.running.length)).sum ≤ kind.maxWorkers
  once : pool.submitted.Nodup
  inOrder : pool.begun <+: pool.submitted
  /-- After a shutdown nothing is left behind. -/
  drained : pool.current = none → ∀ task ∈ pool.submitted, pool.tasks[task]? = some .finished

end ModuleState

open ModuleState in
/-- At most one stream operation and four waits run at a time, on old and new executors
together, each task once and in the order of the submissions; a shutdown leaves none. -/
theorem moduleExecutors_serves (state : ModuleState)
    (reached : moduleExecutors.Reached System.Free state) (kind : PoolKind) :
    Serves kind (state.pool kind) := by
  have sound := sound_of_reached reached kind
  exact ⟨sound.running_le, sound.once, sound.begun_prefix, sound.finished_of_absent⟩

open ModuleState in
/-- Five waits on four workers, a shutdown that finds one of them queued, and a wait on the
next executor. -/
theorem moduleExecutors_serves_again :
    ∃ state, moduleExecutors.Reached System.Free state ∧
      state.request.begun = [0, 1, 2, 3, 4, 5] ∧ state.request.current = some 1 ∧
        Serves .request (state.pool .request) := by
  have ran : (moduleExecutors.run System.Free moduleExecutors.initial
      [.get .request, .get .request, .get .request, .get .request, .get .request,
        .submit .request 0, .submit .request 1, .submit .request 2, .submit .request 3,
        .submit .request 4, .begin .request 0, .begin .request 0, .begin .request 0,
        .begin .request 0, .shutdown, .finish .request 2, .begin .request 0, .finish .request 0,
        .finish .request 1, .finish .request 3, .finish .request 4, .drained, .get .request,
        .submit .request 5, .begin .request 1]).map (fun state =>
          (state.request.begun, state.request.current)) = some ([0, 1, 2, 3, 4, 5], some 1) := by
    decide +kernel
  obtain ⟨state, taken, observed⟩ := Option.map_eq_some_iff.mp ran
  obtain ⟨begun, current⟩ := Prod.mk.inj observed
  have reached := System.along_of_run taken
  exact ⟨state, reached, begun, current, moduleExecutors_serves state reached .request⟩

end ObscuraProto
