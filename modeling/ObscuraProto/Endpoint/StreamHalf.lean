import ObscuraProto.Endpoint.Executors
import ObscuraProto.Stream.Shutdown

/-!
# The stream operations on the module's executors

The stream executor is modelled with the operations of the streams, which may go to the
default executor, and as one of the two executors of the module.  Every run of the first
model is a run of the second.
-/

namespace ObscuraProto

open Transition Processes

/-- The executor in the pool of the module. -/
def StreamExecutor.inPool (executor : StreamExecutor) : LazyPool.Executor :=
  ⟨executor.accepting, executor.queue, executor.running.toList⟩

/-- The stage of an operation and that of its task.  An operation that goes to the default
executor is a task that no executor takes. -/
def Stage.InPool : Stage → LazyPool.Stage → Prop
  | fetched executor, task => task = .fetched executor
  | pending (.executor executor), task => task = .queued executor
  | running (.executor executor), task => task = .running executor
  | pending .pool, task | running .pool, task => ¬ task.Taken
  | finished, task => task = .finished ∨ ¬ task.Taken

namespace ModuleState

variable {whole : ModuleState}

theorem advance_stream {label : LazyPool.Label} {pool : LazyPool.State}
    (stepped : (LazyPool.system streamExecutorMaxWorkers).step whole.stream label = some pool) :
    whole.advance .stream label = some { whole with stream := pool } :=
  congrArg (Option.map _) stepped

theorem closeRequest_of_unused (unused : whole.request = {}) :
    whole.closeRequest = { whole with closing := none } := by
  have absent : whole.advance .request .close = none := by
    simp [advance, pool, unused, LazyPool.State.step]
  rw [closeRequest, close, absent]
  rfl

end ModuleState

namespace StreamState

/-- The executors and operations are those of the pool. -/
structure InPool (state : StreamState) (pool : LazyPool.State) : Prop where
  executors : pool.executors = state.executors.map StreamExecutor.inPool
  current : pool.current = state.current
  length : pool.tasks.length = state.ops.length
  tasks : ∀ (id : OpId) (op : StreamOp), state.ops[id]? = some op →
    ∃ task, pool.tasks[id]? = some task ∧ op.stage.InPool task
  begun : pool.begun.Sublist state.begun

/-- The stream executor of the module is the one of the streams, and nobody uses the
request executor. -/
structure InModule (state : StreamState) (whole : ModuleState) : Prop where
  stream : state.InPool whole.stream
  request : whole.request = {}
  closing : whole.closing = state.closing.map fun _ => .stream

variable {state next : StreamState} {pool : LazyPool.State} {id : OpId} {op : StreamOp}
  {executorId : ExecutorId} {executor : StreamExecutor}

/-! ## Steps of the pool -/

theorem getExecutor_keeps (state : StreamState) :
    state.getExecutor.1.ops = state.ops ∧ state.getExecutor.1.begun = state.begun ∧
      state.getExecutor.1.closing = state.closing := by
  rcases state.getExecutor_cases with ⟨id, executor, -, -, -, got⟩ | ⟨-, got⟩
  · rw [got]
    exact ⟨rfl, rfl, rfl⟩
  · rw [got]
    exact ⟨rfl, rfl, rfl⟩

namespace InPool

theorem found (shown : state.InPool pool) (known : state.executors[executorId]? = some executor) :
    pool.executors[executorId]? = some executor.inPool := by
  rw [shown.executors, List.getElem?_map, known]
  rfl

/-- An operation moves on with its task. -/
theorem tasks_move (shown : state.InPool pool) (started : state.ops[id]? = some op) {stage : Stage}
    {task : LazyPool.Stage} (seen : stage.InPool task) (other : OpId) (moved : StreamOp)
    (entry : (state.ops.set id { op with stage })[other]? = some moved) :
    ∃ task', (pool.tasks.set id task)[other]? = some task' ∧ moved.stage.InPool task' := by
  rcases of_getElem?_set entry with ⟨rfl, rfl⟩ | ⟨apart, before⟩
  · obtain ⟨earlier, there, -⟩ := shown.tasks other op started
    rw [getElem?_set_of_found there, if_pos rfl]
    exact ⟨task, rfl, seen⟩
  · rw [List.getElem?_set_ne (Ne.symm apart)]
    exact shown.tasks other moved before

/-- An operation moves on, and its task stays where it is. -/
theorem stays (shown : state.InPool pool) (started : state.ops[id]? = some op) {stage : Stage}
    (seen : ∀ task, op.stage.InPool task → stage.InPool task) {poolQueue begun : List OpId}
    (begins : state.begun.Sublist begun) :
    InPool { state with ops := state.ops.set id { op with stage }, poolQueue, begun } pool where
  executors := shown.executors
  current := shown.current
  length := by
    rw [List.length_set]
    exact shown.length
  tasks other moved entry := by
    rcases of_getElem?_set entry with ⟨rfl, rfl⟩ | ⟨-, before⟩
    · obtain ⟨task, there, earlier⟩ := shown.tasks other op started
      exact ⟨task, there, seen task earlier⟩
    · exact shown.tasks other moved before
  begun := shown.begun.trans begins

/-- An executor changes. -/
theorem executors_set (shown : state.InPool pool) {after : StreamExecutor}
    {afterInPool : LazyPool.Executor} (seen : afterInPool = after.inPool)
    (executorId : ExecutorId) :
    pool.executors.set executorId afterInPool =
      (state.executors.set executorId after).map StreamExecutor.inPool := by
  rw [shown.executors, List.map_set, seen]

/-- An operation moves on with its task. -/
theorem moves (shown : state.InPool pool) (started : state.ops[id]? = some op)
    {executors : List StreamExecutor} {executorsInPool : List LazyPool.Executor}
    (same : executorsInPool = executors.map StreamExecutor.inPool) {begun begunInPool : List OpId}
    (begins : begunInPool.Sublist begun) (poolQueue submitted : List OpId) {stage : Stage}
    {task : LazyPool.Stage} (seen : stage.InPool task) :
    InPool { state with ops := state.ops.set id { op with stage }, executors, poolQueue, begun }
      { pool with
        executors := executorsInPool
        tasks := pool.tasks.set id task
        submitted
        begun := begunInPool } where
  executors := same
  current := shown.current
  length := by
    rw [List.length_set, List.length_set]
    exact shown.length
  tasks := shown.tasks_move started seen
  begun := begins

/-- The two models agree on `_get_executor()`. -/
theorem getExecutor_eq (shown : state.InPool pool) :
    ObscuraProto.getExecutor pool =
      ({ pool with
          executors := state.getExecutor.1.executors.map StreamExecutor.inPool
          current := state.getExecutor.1.current }, state.getExecutor.2) := by
  obtain ⟨executors, current, tasks, submitted, begun⟩ := pool
  obtain ⟨rfl, rfl, -, -, -⟩ := shown
  rcases state.getExecutor_cases with ⟨id, executor, current, found, accepting, got⟩ | ⟨shut, got⟩
  · have there : (state.executors.map StreamExecutor.inPool)[id]? = some executor.inPool := by
      rw [List.getElem?_map, found]
      rfl
    have accepts : executor.inPool.accepting = true := accepting
    simp only [ObscuraProto.getExecutor, got, current, there, accepts, if_pos]
  · rw [got]
    cases current : state.current with
    | none => simp [ObscuraProto.getExecutor, createExecutor, StreamExecutor.inPool]
    | some id =>
        cases found : state.executors[id]? with
        | none => simp [ObscuraProto.getExecutor, createExecutor, StreamExecutor.inPool, found]
        | some executor =>
            have refusing : executor.accepting = false := shut id executor current found
            simp [ObscuraProto.getExecutor, createExecutor, StreamExecutor.inPool, found, refusing]

/-- A new operation is a new task. -/
theorem start (shown : state.InPool pool) (stream : StreamId) (call : StreamCall) :
    InPool (state.getExecutor.1.addOp stream call state.getExecutor.2)
      { (ObscuraProto.getExecutor pool).1 with
        tasks := (ObscuraProto.getExecutor pool).1.tasks ++
          [.fetched (ObscuraProto.getExecutor pool).2] } := by
  have kept := state.getExecutor_keeps
  rw [shown.getExecutor_eq]
  refine ⟨rfl, rfl, ?_, ?_, kept.2.1 ▸ shown.begun⟩
  · simp [addOp, kept.1, shown.length]
  · intro id op entry
    rw [addOp, kept.1] at entry
    rw [getElem?_append_fresh, shown.length]
    rcases of_getElem?_append entry with before | ⟨rfl, rfl⟩
    · rw [if_neg (Nat.ne_of_lt (List.getElem?_eq_some_iff.mp before).1)]
      exact shown.tasks id op before
    · rw [if_pos rfl]
      exact ⟨_, rfl, rfl⟩

end InPool

/-! ## Steps of the module -/

namespace InModule

variable {whole : ModuleState}

/-- The stream executor takes a step, and the lock stays as it is. -/
theorem advance (shown : state.InModule whole) (same : next.closing = state.closing)
    {label : LazyPool.Label} (moduleLabel : ModuleLabel)
    (isStep : whole.step moduleLabel = whole.advance .stream label)
    (stepped : (LazyPool.system streamExecutorMaxWorkers).step whole.stream label = some pool)
    (after : next.InPool pool) :
    ∃ whole', moduleExecutors.Along System.Free whole whole' ∧ next.InModule whole' := by
  refine ⟨{ whole with stream := pool }, System.Along.take .refl moduleLabel trivial ?_, after,
    shown.request, ?_⟩
  · change whole.step moduleLabel = _
    rw [isStep]
    exact ModuleState.advance_stream stepped
  · rw [same]
    exact shown.closing

theorem stays (shown : state.InModule whole) (same : next.closing = state.closing)
    (after : next.InPool whole.stream) :
    ∃ whole', moduleExecutors.Along System.Free whole whole' ∧ next.InModule whole' :=
  ⟨whole, .refl, after, shown.request, by rw [same]; exact shown.closing⟩

theorem start (shown : state.InModule whole) (unlocked : state.closing = none) (stream : StreamId)
    (call : StreamCall) :
    ∃ whole', moduleExecutors.Along System.Free whole whole' ∧
      (state.getExecutor.1.addOp stream call state.getExecutor.2).InModule whole' := by
  have free : whole.closing = none := by
    rw [shown.closing, unlocked]
    rfl
  have closing : (state.getExecutor.1.addOp stream call state.getExecutor.2).closing = none :=
    state.getExecutor_keeps.2.2.trans unlocked
  refine ⟨{ whole with stream := _ }, System.Along.take .refl (.get .stream) trivial ?_,
    shown.stream.start stream call, shown.request, ?_⟩
  · exact if_pos free
  · rw [closing]
    exact free

/-- The shutdown takes the lock and closes the stream executor first. -/
theorem shutdown (shown : state.InModule whole) (unlocked : state.closing = none)
    (current : state.current = some executorId)
    (found : state.executors[executorId]? = some executor) (accepting : executor.accepting = true) :
    ∃ whole', moduleExecutors.Along System.Free whole whole' ∧
      InModule
        { state with
          executors := state.executors.set executorId { executor with accepting := false }
          closing := some executorId } whole' := by
  have stream := shown.stream
  have free : whole.closing = none := by
    rw [shown.closing, unlocked]
    rfl
  have closed := ModuleState.advance_stream (LazyPool.Steps.close (stream.current.trans current)
    (stream.found found) accepting).step
  refine ⟨_, System.Along.take .refl .shutdown trivial (if_pos free), ?_⟩
  rw [ModuleState.closeBoth, ModuleState.close, closed]
  refine ⟨⟨stream.executors_set ?_ executorId, stream.current, stream.length, stream.tasks,
    stream.begun⟩, shown.request, rfl⟩
  rfl

/-- The stream executor is drained, and there is no request executor to wait for. -/
theorem shutdownDone (shown : state.InModule whole) (closing : state.closing = some executorId)
    (current : state.current = some executorId)
    (drained : state.executors[executorId]? = some ⟨false, [], none⟩) :
    ∃ whole', moduleExecutors.Along System.Free whole whole' ∧
      InModule { state with current := none, closing := none } whole' := by
  have stream := shown.stream
  have waiting : whole.closing = some .stream := by
    rw [shown.closing, closing]
    rfl
  have cleared := ModuleState.advance_stream (LazyPool.Steps.clear (stream.current.trans current)
    (stream.found drained)).step
  refine ⟨{ whole with stream := { whole.stream with current := none }, closing := none },
    System.Along.take .refl .drained trivial ?_, ?_⟩
  · simp only [moduleExecutors, ModuleState.step, waiting, cleared, Option.map_some]
    exact congrArg some (ModuleState.closeRequest_of_unused shown.request)
  · exact ⟨⟨stream.executors, rfl, stream.length, stream.tasks, stream.begun⟩, shown.request, rfl⟩

theorem step (shown : state.InModule whole) (registry : state.Registry) (placed : state.Placed)
    {label : StreamLabel} (taken : streamExecutor.step state label = some next) :
    ∃ whole', moduleExecutors.Along System.Free whole whole' ∧ next.InModule whole' := by
  have stream := shown.stream
  cases label with
  | start streamId call =>
      simp only [streamExecutor, StreamState.step, Option.ite_none_right_eq_some,
        Option.some.injEq] at taken
      obtain ⟨⟨unlocked, -⟩, rfl⟩ := taken
      exact shown.start unlocked streamId call
  | submit id =>
      cases streamSteps_of_step taken with
      | @submit _ op executorId executor started fetched found accepting =>
          obtain ⟨task, known, seen⟩ := stream.tasks id op started
          rw [fetched] at seen
          cases seen
          refine shown.advance rfl (.submit .stream id) rfl
            (LazyPool.Steps.submit known (stream.found found) accepting).step ?_
          refine stream.moves started (stream.executors_set ?_ executorId) stream.begun _ _ ?_
          · rfl
          · rfl
  | fallback id =>
      cases streamSteps_of_step taken with
      | @fallback _ op executorId executor started fetched found refusing =>
          obtain ⟨task, known, seen⟩ := stream.tasks id op started
          rw [fetched] at seen
          cases seen
          refine shown.advance rfl (.submit .stream id) rfl
            (LazyPool.Steps.refuse known (stream.found found) refusing).step ?_
          refine stream.moves started stream.executors stream.begun _ _ ?_
          exact fun taken => taken
  | begin executorId =>
      cases streamSteps_of_step taken with
      | @begin _ accepting id queue op found started =>
          have room : (none : Option OpId).toList.length < streamExecutorMaxWorkers := by decide
          refine shown.advance rfl (.begin .stream executorId) rfl
            (LazyPool.Steps.begin (stream.found found) room).step ?_
          refine stream.moves started (stream.executors_set ?_ executorId)
            (stream.begun.append (List.Sublist.refl [id])) _ _ ?_
          · rfl
          · rfl
  | finish executorId =>
      cases streamSteps_of_step taken with
      | @finish _ accepting id queue op found started =>
          have stage := (placed.working executorId id).mp (workerOf_of_found found)
          rw [stageOf_of_found started, Option.some.injEq] at stage
          obtain ⟨task, known, seen⟩ := stream.tasks id op started
          rw [stage] at seen
          cases seen
          refine shown.advance rfl (.finish .stream id) rfl
            (LazyPool.Steps.finish known (stream.found found)).step ?_
          refine stream.moves started (stream.executors_set ?_ executorId) stream.begun _ _ ?_
          · simp [StreamExecutor.inPool]
          · exact .inl rfl
  | poolBegin =>
      cases streamSteps_of_step taken with
      | @poolBegin id queue op first started =>
          have waits : id ∈ state.queueOf .pool := by
            rw [queueOf, first]
            exact List.mem_cons_self
          have stage := (placed.queued .pool id).mp waits
          rw [stageOf_of_found started, Option.some.injEq] at stage
          refine shown.stays rfl (stream.stays started ?_ (List.sublist_append_left _ _))
          intro task seen
          rw [stage] at seen
          exact seen
  | poolFinish id =>
      cases streamSteps_of_step taken with
      | @poolFinish _ op started running =>
          refine shown.stays rfl (stream.stays started ?_ (List.Sublist.refl _))
          intro task seen
          rw [running] at seen
          exact .inr seen
  | shutdown =>
      cases streamSteps_of_step taken with
      | @shutdown id executor unlocked current found accepting =>
          exact shown.shutdown unlocked current found accepting
  | shutdownDone =>
      cases streamSteps_of_step taken with
      | @shutdownDone id accepting closing drained =>
          have closed : accepting = false := by
            by_contra accepts
            have opened := registry.opened id _ drained (by simpa using accepts)
            rw [opened.2] at closing
            cases closing
          subst closed
          exact shown.shutdownDone closing (registry.closed id closing) drained

/-- A call on any thread whose `submit()` raises leaves its task untaken. -/
theorem refused (shown : state.InModule whole) (started : state.ops[id]? = some op)
    (fetched : op.stage = .fetched executorId) :
    InModule
      { state.setStage id op (.pending .pool) with poolQueue := state.poolQueue ++ [id] }
      whole := by
  refine ⟨shown.stream.stays started ?_ (List.Sublist.refl _), shown.request, shown.closing⟩
  intro task seen
  rw [fetched] at seen
  cases seen
  exact fun taken => taken

theorem initial : InModule {} {} :=
  ⟨⟨rfl, rfl, rfl, nofun, List.Sublist.refl _⟩, rfl, rfl⟩

end InModule
end StreamState

/-- Every run of the stream executor is a run of the executors of the module. -/
theorem streamExecutor_inModule {allowed : StreamState → StreamLabel → Prop} {state : StreamState}
    (reached : streamExecutor.Reached allowed state) :
    ∃ whole, moduleExecutors.Reached System.Free whole ∧ state.InModule whole := by
  have sound : ∀ state, streamExecutor.Reached allowed state → state.Registry ∧ state.Placed :=
    fun _ reached =>
      ⟨StreamState.registry_of_reached reached, StreamState.placed_of_reached reached⟩
  refine reached.followed StreamState.InModule sound StreamState.InModule.initial ?_
  intro state label next whole known shown _ taken
  exact shown.step known.1 known.2 taken

/-- So is every run of the calls of `_run_in_stream_executor`, on any threads. -/
theorem streamOperations_inModule {result : OpId → Except PyExc PyValue} {state : OperationState}
    (reached : (streamOperations result).Reached System.Free state) :
    ∃ whole, moduleExecutors.Reached System.Free whole ∧ state.executors.InModule whole := by
  refine reached.followed (fun state whole => state.executors.InModule whole)
    (fun _ => OperationState.consistent_of_reached) StreamState.InModule.initial ?_
  intro state label next whole consistent shown _ taken
  cases label with
  | call stream call =>
      simp only [streamOperations, OperationState.step, Option.ite_none_right_eq_some,
        Option.some.injEq] at taken
      obtain ⟨unlocked, rfl⟩ := taken
      exact shown.start unlocked stream call
  | refused id =>
      simp only [streamOperations, OperationState.step] at taken
      split at taken
      · next started =>
          simp only [Option.ite_none_right_eq_some, Option.some.injEq] at taken
          obtain ⟨-, rfl⟩ := taken
          exact ⟨whole, .refl, shown.refused started rfl⟩
      · cases taken
  | refusedTwice id =>
      simp only [streamOperations, OperationState.step] at taken
      split at taken
      · simp only [Option.ite_none_right_eq_some, Option.some.injEq] at taken
        obtain ⟨-, rfl⟩ := taken
        exact ⟨whole, .refl, shown⟩
      · cases taken
  | resume id =>
      simp only [streamOperations, OperationState.step] at taken
      split at taken
      · simp only [Option.ite_none_right_eq_some] at taken
        obtain ⟨-, taken⟩ := taken
        split at taken
        · cases taken
          exact ⟨whole, .refl, shown⟩
        · cases taken
          exact ⟨whole, .refl, shown⟩
      · cases taken
  | executor label =>
      simp only [streamOperations, OperationState.step, Option.ite_none_right_eq_some,
        Option.map_eq_some_iff] at taken
      obtain ⟨-, executors, stepped, rfl⟩ := taken
      exact shown.step consistent.registry consistent.placed stepped

end ObscuraProto
