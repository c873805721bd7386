import ObscuraProto.Endpoint.Executors

/-!
# Shutting the executors down

`_shutdown_executors()` waits with the lock held.  It ends if the tasks of the executors
end, after a bounded number of steps; a task that never ends keeps it waiting, and every
caller of `_get_executor()` and `_get_request_executor()` with it.
-/

namespace ObscuraProto

open Transition

/-- A step of a worker, or of a shutdown that goes on. -/
def ModuleLabel.isProgress : ModuleLabel → Bool
  | .begin .. | .finish .. | .drained => true
  | .get _ | .submit .. | .shutdown => false

/-- A step of a worker of one executor. -/
def ModuleLabel.isWorkerOf (kind : PoolKind) : ModuleLabel → Bool
  | .begin other _ | .finish other _ => other == kind
  | .get _ | .submit .. | .shutdown | .drained => false

/-- A caller gets an executor. -/
def ModuleLabel.isGetOf (kind : PoolKind) : ModuleLabel → Bool
  | .get other => other == kind
  | .submit .. | .begin .. | .finish .. | .shutdown | .drained => false

/-- A step of a caller who has an executor, or of a worker. -/
def ModuleLabel.isTask : ModuleLabel → Bool
  | .submit .. | .begin .. | .finish .. => true
  | .get _ | .shutdown | .drained => false

namespace ModuleState

variable {state next : ModuleState} {kind : PoolKind} {label : ModuleLabel}

/-- The waits that are left to the shutdown. -/
def phases (state : ModuleState) : Nat :=
  match state.closing with
  | some .stream => 2
  | some .request => 1
  | none => 0

/-- The steps left while the lock is held. -/
def work (state : ModuleState) : Nat :=
  state.stream.work + state.request.work + state.phases

/-- A shutdown holds the lock. -/
def Held (state : ModuleState) (_ : ModuleLabel) : Prop :=
  state.closing ≠ none

instance (state : ModuleState) (label : ModuleLabel) : Decidable (state.Held label) :=
  inferInstanceAs (Decidable (_ ≠ _))

theorem work_setPool (state : ModuleState) (kind : PoolKind) (pool : LazyPool.State) :
    (state.setPool kind pool).work + (state.pool kind).work = state.work + pool.work := by
  cases kind <;> simp only [work, setPool, ModuleState.pool, phases] <;> omega

theorem work_closeRequest (sound : LazyPool.Sound PoolKind.request.maxWorkers state.request) :
    state.closeRequest.work ≤ state.stream.work + state.request.work + 1 := by
  rw [closeRequest]
  split
  · next closed =>
      obtain ⟨after, advanced, rfl⟩ := Option.map_eq_some_iff.mp closed
      obtain ⟨pool, stepped, rfl⟩ := advance_eq_some advanced
      have same := LazyPool.work_of_step sound stepped
      simp only [work, setPool, phases, same, le_refl]
  · simp [work, phases]

/-- Every step while the lock is held uses up work. -/
theorem work_lt (reached : moduleExecutors.Reached System.Free state) (held : state.Held label)
    (taken : moduleExecutors.step state label = some next) : next.work < state.work := by
  have sound := sound_of_reached reached
  have task : ∀ {kind : PoolKind} {label : LazyPool.Label} {next : ModuleState},
      state.advance kind label = some next →
        (∀ {pool : LazyPool.State},
          (LazyPool.system kind.maxWorkers).step (state.pool kind) label = some pool →
            pool.work < (state.pool kind).work) → next.work < state.work := by
    intro kind label next advanced lower
    obtain ⟨pool, stepped, rfl⟩ := advance_eq_some advanced
    have total := state.work_setPool kind pool
    have used := lower stepped
    omega
  cases label with
  | get kind =>
      simp only [moduleExecutors, ModuleState.step, Option.ite_none_right_eq_some] at taken
      exact absurd taken.1 held
  | submit kind id => exact task taken fun stepped => LazyPool.work_of_step (sound kind) stepped
  | begin kind id => exact task taken fun stepped => LazyPool.work_of_step (sound kind) stepped
  | finish kind id => exact task taken fun stepped => LazyPool.work_of_step (sound kind) stepped
  | shutdown =>
      simp only [moduleExecutors, ModuleState.step, Option.ite_none_right_eq_some] at taken
      exact absurd taken.1 held
  | drained =>
      simp only [moduleExecutors, ModuleState.step] at taken
      split at taken
      · next closing =>
          obtain ⟨after, advanced, rfl⟩ := Option.map_eq_some_iff.mp taken
          obtain ⟨pool, stepped, rfl⟩ := advance_eq_some advanced
          have same : pool.work = state.stream.work :=
            LazyPool.work_of_step (sound .stream) stepped
          have bounded : (state.setPool .stream pool).closeRequest.work ≤
              (state.setPool .stream pool).stream.work +
                (state.setPool .stream pool).request.work + 1 :=
            work_closeRequest (sound .request)
          have before : state.work = state.stream.work + state.request.work + 2 := by
            simp [work, phases, closing]
          simp only [setPool, same] at bounded ⊢
          omega
      · next closing =>
          obtain ⟨after, advanced, rfl⟩ := Option.map_eq_some_iff.mp taken
          obtain ⟨pool, stepped, rfl⟩ := advance_eq_some advanced
          have same : pool.work = state.request.work :=
            LazyPool.work_of_step (sound .request) stepped
          simp [work, phases, closing, setPool, same]
      · cases taken

/-- The work left ranks the states in which a shutdown holds the lock. -/
def shutdownRanking :
    moduleExecutors.Ranking Held (moduleExecutors.Reached System.Free) (fun _ => true) where
  rank := work
  kept _ label _ reached _ taken := reached.take label trivial taken
  lowered _ _ _ reached held taken _ := work_lt reached held taken
  unraised _ _ _ reached held taken := (work_lt reached held taken).le

theorem advance_of_steps {label : LazyPool.Label} {pool : LazyPool.State}
    (steps : LazyPool.Steps kind.maxWorkers (state.pool kind) label pool) :
    state.advance kind label = some (state.setPool kind pool) := by
  have stepped : (state.pool kind).step kind.maxWorkers label = some pool := steps.step
  rw [advance, stepped]
  rfl

/-- While the lock is held, a worker can go on or the shutdown can. -/
theorem exists_progress (reached : moduleExecutors.Reached System.Free state)
    (closing : state.closing = some kind) :
    ∃ label next, moduleExecutors.step state label = some next ∧ label.isProgress = true := by
  have closed := (locked_of_reached reached kind).mpr closing
  obtain ⟨label, pool, steps, isProgress⟩ :=
    LazyPool.exists_steps (sound_of_reached reached kind) kind.maxWorkers_pos closed
  have advanced := advance_of_steps steps
  rcases isProgress with ⟨id, rfl⟩ | ⟨task, rfl⟩ | rfl
  · exact ⟨.begin kind id, _, advanced, rfl⟩
  · exact ⟨.finish kind task, _, advanced, rfl⟩
  · cases kind with
    | stream =>
        refine ⟨.drained, (state.setPool .stream pool).closeRequest, ?_, rfl⟩
        simp only [moduleExecutors, ModuleState.step, closing, advanced, Option.map_some]
    | request =>
        refine ⟨.drained, { state.setPool .request pool with closing := none }, ?_, rfl⟩
        simp only [moduleExecutors, ModuleState.step, closing, advanced, Option.map_some]

/-- A task of the executor the shutdown waits for is running. -/
def Blocked (kind : PoolKind) (task : Nat) (state : ModuleState) : Prop :=
  moduleExecutors.Reached System.Free state ∧ state.closing = some kind ∧
    ∃ id, (state.pool kind).tasks[task]? = some (.running id)

theorem Blocked.advance {task : Nat} {other : PoolKind} {label : LazyPool.Label}
    (blocked : state.Blocked kind task) (later : moduleExecutors.Reached System.Free next)
    (advanced : state.advance other label = some next)
    (unfinished : other = kind → label ≠ .finish task) : next.Blocked kind task := by
  obtain ⟨reached, closing, id, isRunning⟩ := blocked
  obtain ⟨pool, stepped, rfl⟩ := advance_eq_some advanced
  refine ⟨later, by rw [closing_setPool, closing], id, ?_⟩
  rw [pool_setPool]
  split
  · next same =>
      subst same
      have sound := sound_of_reached reached kind
      exact (LazyPool.running_of_step sound stepped isRunning (unfinished rfl)).1
  · exact isRunning

theorem Blocked.step {task : Nat} (blocked : state.Blocked kind task)
    (unfinished : label ≠ .finish kind task)
    (taken : moduleExecutors.step state label = some next) :
    next.Blocked kind task ∧ label.isTask = true := by
  have later := blocked.1.take label trivial taken
  cases label with
  | submit other id => exact ⟨blocked.advance later taken (by simp), rfl⟩
  | begin other id => exact ⟨blocked.advance later taken (by simp), rfl⟩
  | finish other id =>
      refine ⟨blocked.advance later taken ?_, rfl⟩
      rintro rfl same
      cases same
      exact unfinished rfl
  | get other =>
      simp only [moduleExecutors, ModuleState.step, Option.ite_none_right_eq_some] at taken
      rw [blocked.2.1] at taken
      cases taken.1
  | shutdown =>
      simp only [moduleExecutors, ModuleState.step, Option.ite_none_right_eq_some] at taken
      rw [blocked.2.1] at taken
      cases taken.1
  | drained =>
      obtain ⟨reached, closing, id, isRunning⟩ := blocked
      have stays : ∀ pool, (LazyPool.system kind.maxWorkers).step (state.pool kind) .clear ≠
          some pool := fun pool stepped =>
        (LazyPool.running_of_step (sound_of_reached reached kind) stepped isRunning (by simp)).2 rfl
      simp only [moduleExecutors, ModuleState.step, closing] at taken
      cases kind with
      | stream =>
          obtain ⟨after, advanced, -⟩ := Option.map_eq_some_iff.mp taken
          obtain ⟨pool, stepped, -⟩ := advance_eq_some advanced
          exact absurd stepped (stays pool)
      | request =>
          obtain ⟨after, advanced, -⟩ := Option.map_eq_some_iff.mp taken
          obtain ⟨pool, stepped, -⟩ := advance_eq_some advanced
          exact absurd stepped (stays pool)

/-! ## The two kinds apart -/

/-- Closing or forgetting an executor leaves the work of both. -/
theorem pool_work_advance {other : PoolKind} {label : LazyPool.Label}
    (closing : label = .close ∨ label = .clear) (advanced : state.advance other label = some next) :
    (next.pool kind).work = (state.pool kind).work := by
  obtain ⟨pool, stepped, rfl⟩ := advance_eq_some advanced
  have same := LazyPool.work_of_closing closing stepped
  rw [pool_setPool]
  split
  · next here => rw [here, same]
  · rfl

theorem pool_work_close {other : PoolKind} (closed : state.close other = some next) :
    (next.pool kind).work = (state.pool kind).work := by
  obtain ⟨after, advanced, rfl⟩ := Option.map_eq_some_iff.mp closed
  rw [pool_withClosing, pool_work_advance (.inl rfl) advanced]

theorem pool_work_closeRequest : (state.closeRequest.pool kind).work = (state.pool kind).work := by
  rw [closeRequest]
  split
  · next closed => exact pool_work_close closed
  · rw [pool_withClosing]

theorem pool_work_closeBoth : (state.closeBoth.pool kind).work = (state.pool kind).work := by
  rw [closeBoth]
  split
  · next closed => exact pool_work_close closed
  · exact pool_work_closeRequest

/-- A worker's step uses up work of its own executor, and only a new caller adds to it. -/
theorem pool_work_of_step (reached : moduleExecutors.Reached System.Free state)
    (taken : moduleExecutors.step state label = some next) :
    (next.pool kind).work + (label.isWorkerOf kind).toNat ≤
      (state.pool kind).work + 3 * (label.isGetOf kind).toNat := by
  have sound := sound_of_reached reached
  have task : ∀ {other : PoolKind} {label : LazyPool.Label} {next : ModuleState},
      state.advance other label = some next →
        (∀ {pool : LazyPool.State},
          (LazyPool.system other.maxWorkers).step (state.pool other) label = some pool →
            pool.work < (state.pool other).work) →
          (next.pool kind).work + (other == kind).toNat ≤ (state.pool kind).work := by
    intro other label next advanced lower
    obtain ⟨pool, stepped, rfl⟩ := advance_eq_some advanced
    have used := lower stepped
    rw [pool_setPool]
    by_cases same : kind = other
    · subst same
      rw [if_pos rfl, BEq.rfl]
      exact used
    · simp [same, Ne.symm same]
  cases label with
  | get other =>
      simp only [moduleExecutors, ModuleState.step, Option.ite_none_right_eq_some,
        Option.some.injEq] at taken
      obtain ⟨unlocked, rfl⟩ := taken
      have stepped := step_get (state.pool other) other.maxWorkers
        ((locked_of_reached reached).unclosed unlocked other)
      have more := LazyPool.work_of_get stepped
      rw [pool_setPool]
      by_cases same : kind = other
      · subst same
        simp [more, ModuleLabel.isWorkerOf, ModuleLabel.isGetOf]
      · simp [same, ModuleLabel.isWorkerOf]
  | submit other id =>
      have used := task taken fun stepped => LazyPool.work_of_step (sound other) stepped
      simp only [ModuleLabel.isWorkerOf, ModuleLabel.isGetOf, Bool.toNat_false]
      omega
  | begin other id =>
      have used := task taken fun stepped => LazyPool.work_of_step (sound other) stepped
      simp only [ModuleLabel.isWorkerOf, ModuleLabel.isGetOf, Bool.toNat_false]
      omega
  | finish other id =>
      have used := task taken fun stepped => LazyPool.work_of_step (sound other) stepped
      simp only [ModuleLabel.isWorkerOf, ModuleLabel.isGetOf, Bool.toNat_false]
      omega
  | shutdown =>
      simp only [moduleExecutors, ModuleState.step, Option.ite_none_right_eq_some,
        Option.some.injEq] at taken
      obtain ⟨-, rfl⟩ := taken
      rw [pool_work_closeBoth]
      exact Nat.le_add_right _ _
  | drained =>
      simp only [moduleExecutors, ModuleState.step] at taken
      split at taken
      · obtain ⟨after, advanced, rfl⟩ := Option.map_eq_some_iff.mp taken
        rw [pool_work_closeRequest, pool_work_advance (.inr rfl) advanced]
        exact Nat.le_add_right _ _
      · obtain ⟨after, advanced, rfl⟩ := Option.map_eq_some_iff.mp taken
        rw [pool_withClosing, pool_work_advance (.inr rfl) advanced]
        exact Nat.le_add_right _ _
      · cases taken

/-- The work of the workers of one executor is paid for by its callers. -/
def workerBudget (kind : PoolKind) :
    moduleExecutors.Budget System.Free (moduleExecutors.Reached System.Free)
      (ModuleLabel.isWorkerOf kind) (ModuleLabel.isGetOf kind) 3 where
  rank state := (state.pool kind).work
  kept _ label _ reached _ taken := reached.take label trivial taken
  charged _ _ _ reached _ taken := pool_work_of_step reached taken

end ModuleState

open ModuleState in
/-- A shutdown takes a bounded number of steps, callers and workers included, and cannot
get stuck. -/
theorem moduleExecutors_shutdown_ends {state later : ModuleState} {labels : List ModuleLabel}
    (reached : moduleExecutors.Reached System.Free state)
    (ran : moduleExecutors.run Held state labels = some later) :
    labels.length ≤ state.work ∧
      (later.closing = none ∨
        ∃ label next, moduleExecutors.step later label = some next ∧ label.isProgress = true) := by
  have bounded := shutdownRanking.countP_add_rank_le reached ran
  rw [List.countP_true] at bounded
  refine ⟨Nat.le_of_add_right_le bounded, ?_⟩
  cases closing : later.closing with
  | none => exact .inl rfl
  | some kind => exact .inr (exists_progress (shutdownRanking.domain_of_run reached ran) closing)

open ModuleState in
/-- A stream operation runs and a wait is queued when the shutdown begins. -/
theorem moduleExecutors_shutdown_ends_both :
    ∃ state later labels, moduleExecutors.run Held state labels = some later ∧
      labels.length = 5 ∧ later.closing = none ∧ labels.length ≤ state.work ∧
        (later.closing = none ∨ ∃ label next,
          moduleExecutors.step later label = some next ∧ label.isProgress = true) := by
  let origin : List ModuleLabel :=
    [.get .stream, .submit .stream 0, .begin .stream 0, .get .request, .submit .request 0,
      .shutdown]
  let labels : List ModuleLabel :=
    [.finish .stream 0, .drained, .begin .request 0, .finish .request 0, .drained]
  have ran : ((moduleExecutors.run System.Free moduleExecutors.initial origin).bind fun state =>
      (moduleExecutors.run Held state labels).map (·.closing)) = some none := by decide +kernel
  obtain ⟨state, taken, rest⟩ := Option.bind_eq_some_iff.mp ran
  obtain ⟨later, closed, closing⟩ := Option.map_eq_some_iff.mp rest
  exact ⟨state, later, labels, closed, rfl, closing,
    moduleExecutors_shutdown_ends (System.along_of_run taken) closed⟩

open ModuleState in
/-- While a task of the executor being shut down does not finish, the shutdown does not
end, and nobody gets an executor of either kind. -/
theorem moduleExecutors_shutdown_blocked {state later : ModuleState} {labels : List ModuleLabel}
    {kind : PoolKind} {task id : Nat} (reached : moduleExecutors.Reached System.Free state)
    (closing : state.closing = some kind)
    (isRunning : (state.pool kind).tasks[task]? = some (.running id))
    (ran : moduleExecutors.run System.Free state labels = some later)
    (unfinished : .finish kind task ∉ labels) :
    later.closing = some kind ∧ ∀ label ∈ labels, label.isTask = true := by
  have blocked : state.Blocked kind task := ⟨reached, closing, id, isRunning⟩
  clear reached closing isRunning
  induction labels generalizing state with
  | nil =>
      cases ran
      exact ⟨blocked.2.1, nofun⟩
  | cons label labels ih =>
      obtain ⟨-, next, taken, rest⟩ := System.run_cons ran
      rw [List.mem_cons, not_or] at unfinished
      obtain ⟨still, isTask⟩ := blocked.step (Ne.symm unfinished.1) taken
      obtain ⟨held, tasks⟩ := ih rest unfinished.2 still
      exact ⟨held, List.forall_mem_cons.mpr ⟨isTask, tasks⟩⟩

open ModuleState in
/-- A wait without a response holds up a shutdown that has other tasks to run. -/
theorem moduleExecutors_shutdown_blocked_wait :
    ∃ state later labels, moduleExecutors.run System.Free state labels = some later ∧
      labels.length = 3 ∧ later.closing = some .request ∧
      ∀ label ∈ labels, label.isTask = true := by
  let origin : List ModuleLabel :=
    [.get .request, .submit .request 0, .begin .request 0, .get .request, .submit .request 1,
      .get .request, .shutdown]
  let labels : List ModuleLabel :=
    [.begin .request 0, .submit .request 2, .finish .request 1]
  have ran : ((moduleExecutors.run System.Free moduleExecutors.initial origin).bind fun state =>
      (moduleExecutors.run System.Free state labels).map fun _ =>
        (state.closing, (state.pool .request).tasks[0]?)) =
      some (some .request, some (.running 0)) := by decide +kernel
  obtain ⟨state, taken, rest⟩ := Option.bind_eq_some_iff.mp ran
  obtain ⟨later, worked, observed⟩ := Option.map_eq_some_iff.mp rest
  obtain ⟨closing, isRunning⟩ := Prod.mk.inj observed
  exact ⟨state, later, labels, worked, rfl,
    moduleExecutors_shutdown_blocked (System.along_of_run taken) closing isRunning worked
      (by decide)⟩

open ModuleState in
/-- The workers of one executor finish what they have taken in a bounded number of steps
of theirs, whatever becomes of the tasks of the other one and of the lock. -/
theorem moduleExecutors_isolated {state later : ModuleState} {labels : List ModuleLabel}
    (kind : PoolKind) (reached : moduleExecutors.Reached System.Free state)
    (ran : moduleExecutors.run System.Free state labels = some later) :
    labels.countP (ModuleLabel.isWorkerOf kind) ≤
        (state.pool kind).work + 3 * labels.countP (ModuleLabel.isGetOf kind) ∧
      ((∀ task ∈ (later.pool kind).submitted,
          (later.pool kind).tasks[task]? = some .finished) ∨
        ∃ label next, moduleExecutors.step later label = some next ∧
          label.isWorkerOf kind = true) := by
  have bounded := (workerBudget kind).countP_add_rank_le reached ran
  refine ⟨Nat.le_of_add_right_le bounded, ?_⟩
  have sound := sound_of_reached (reached.trans (System.along_of_run ran)) kind
  by_cases finished : ∀ task ∈ (later.pool kind).submitted,
      (later.pool kind).tasks[task]? = some .finished
  · exact .inl finished
  · simp only [not_forall] at finished
    obtain ⟨task, taken, unfinished⟩ := finished
    obtain ⟨label, pool, steps, isWorker⟩ :=
      LazyPool.exists_worker_steps sound kind.maxWorkers_pos taken unfinished
    have advanced := advance_of_steps steps
    rcases isWorker with ⟨id, rfl⟩ | ⟨id, rfl⟩
    · exact .inr ⟨.begin kind id, _, advanced, BEq.rfl⟩
    · exact .inr ⟨.finish kind id, _, advanced, BEq.rfl⟩

open ModuleState in
/-- A wait is served while a stream operation runs and a shutdown waits for it. -/
theorem moduleExecutors_isolated_shutdown :
    ∃ state later labels, moduleExecutors.run System.Free state labels = some later ∧
      labels.length = 2 ∧ later.closing = some .stream ∧
      labels.countP (ModuleLabel.isWorkerOf .request) ≤
          (state.pool .request).work + 3 * labels.countP (ModuleLabel.isGetOf .request) ∧
        ((∀ task ∈ (later.pool .request).submitted,
            (later.pool .request).tasks[task]? = some .finished) ∨
          ∃ label next, moduleExecutors.step later label = some next ∧
            label.isWorkerOf .request = true) := by
  let origin : List ModuleLabel :=
    [.get .stream, .submit .stream 0, .begin .stream 0, .get .request, .submit .request 0,
      .shutdown]
  let labels : List ModuleLabel := [.begin .request 0, .finish .request 0]
  have ran : ((moduleExecutors.run System.Free moduleExecutors.initial origin).bind fun state =>
      (moduleExecutors.run System.Free state labels).map (·.closing)) = some (some .stream) := by
    decide +kernel
  obtain ⟨state, taken, rest⟩ := Option.bind_eq_some_iff.mp ran
  obtain ⟨later, worked, closing⟩ := Option.map_eq_some_iff.mp rest
  exact ⟨state, later, labels, worked, rfl, closing,
    moduleExecutors_isolated .request (System.along_of_run taken) worked⟩

end ObscuraProto
