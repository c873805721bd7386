import ObscuraProto.Stream.Executor

/-!
# Where the stream operations are

Only the current executor can have work or accept it, and the queues, the workers
and the record of native calls agree with the stages of the operations.
-/

namespace ObscuraProto

open Transition Processes

namespace StreamState

def stageOf (state : StreamState) (id : OpId) : Option Stage :=
  state.ops[id]?.map (·.stage)

/-- The native call of the operation has begun. -/
def HasBegun (state : StreamState) (id : OpId) : Prop :=
  ∃ stage, state.stageOf id = some stage ∧ stage.Begun

def queueOf (state : StreamState) : Place → List OpId
  | .executor id => (state.executors[id]?.map (·.queue)).getD []
  | .pool => state.poolQueue

/-- What the worker of an executor runs. -/
def workerOf (state : StreamState) (id : ExecutorId) : Option OpId :=
  state.executors[id]?.bind (·.running)

variable {state next : StreamState} {id : OpId} {op : StreamOp} {executorId : ExecutorId}
  {executor after : StreamExecutor}

/-! ## Looking up after a step -/

section Lookup

variable {ops : List StreamOp} {stage : Stage} {executors : List StreamExecutor}
  {current closing : Option ExecutorId} {poolQueue begun : List OpId}

theorem stageOf_of_found (started : state.ops[id]? = some op) :
    state.stageOf id = some op.stage := by
  simp [stageOf, started]

theorem stageOf_fresh (state : StreamState) : state.stageOf state.ops.length = none := by
  simp [stageOf]

theorem stageOf_move (started : state.ops[id]? = some op) (other : OpId) :
    stageOf ⟨state.ops.set id ⟨op.stream, op.call, stage⟩, executors, current, closing,
        poolQueue, begun⟩ other =
      if other = id then some stage else state.stageOf other := by
  simp only [stageOf, getElem?_set_of_found started]
  split <;> rfl

theorem stageOf_add (other : OpId) :
    stageOf ⟨state.ops ++ [op], executors, current, closing, poolQueue, begun⟩ other =
      if other = state.ops.length then some op.stage else state.stageOf other := by
  simp only [stageOf, getElem?_append_fresh]
  split <;> rfl

theorem queueOf_of_found (found : state.executors[executorId]? = some executor) :
    state.queueOf (.executor executorId) = executor.queue := by
  simp [queueOf, found]

theorem workerOf_of_found (found : state.executors[executorId]? = some executor) :
    state.workerOf executorId = executor.running := by
  simp [workerOf, found]

theorem queueOf_set (found : state.executors[executorId]? = some executor) (place : Place) :
    queueOf ⟨ops, state.executors.set executorId after, current, closing, state.poolQueue,
        begun⟩ place =
      if place = .executor executorId then after.queue else state.queueOf place := by
  cases place with
  | pool => rfl
  | executor other =>
      simp only [queueOf, getElem?_set_of_found found, Place.executor.injEq]
      split <;> rfl

theorem workerOf_set (found : state.executors[executorId]? = some executor)
    (other : ExecutorId) :
    workerOf ⟨ops, state.executors.set executorId after, current, closing, poolQueue,
        begun⟩ other =
      if other = executorId then after.running else state.workerOf other := by
  simp only [workerOf, getElem?_set_of_found found]
  split <;> rfl

theorem queueOf_set_of_same (found : state.executors[executorId]? = some executor)
    (same : after.queue = executor.queue) (place : Place) :
    queueOf ⟨ops, state.executors.set executorId after, current, closing, state.poolQueue,
        begun⟩ place =
      state.queueOf place := by
  rw [queueOf_set found]
  split
  · next here => rw [same, here, queueOf_of_found found]
  · rfl

theorem workerOf_set_of_same (found : state.executors[executorId]? = some executor)
    (same : after.running = executor.running) (other : ExecutorId) :
    workerOf ⟨ops, state.executors.set executorId after, current, closing, poolQueue,
        begun⟩ other =
      state.workerOf other := by
  rw [workerOf_set found]
  split
  · next here => rw [same, here, workerOf_of_found found]
  · rfl

/-- A new executor has no work. -/
theorem queueOf_create (place : Place) :
    queueOf ⟨ops, state.executors ++ [({} : StreamExecutor)], current, closing, state.poolQueue,
        begun⟩ place =
      state.queueOf place := by
  cases place with
  | pool => rfl
  | executor id =>
      simp only [queueOf, getElem?_append_fresh]
      split
      · next new => simp [new]
      · rfl

theorem workerOf_create (id : ExecutorId) :
    workerOf ⟨ops, state.executors ++ [({} : StreamExecutor)], current, closing, poolQueue,
        begun⟩ id =
      state.workerOf id := by
  simp only [workerOf, getElem?_append_fresh]
  split
  · next new => simp [new]
  · rfl

end Lookup

/-! ## The registry of executors -/

structure Registry (state : StreamState) : Prop where
  opened : ∀ id (executor : StreamExecutor), state.executors[id]? = some executor →
    executor.accepting = true → state.current = some id ∧ state.closing = none
  live : ∀ id, state.current = some id → state.closing = none →
    ∃ executor, state.executors[id]? = some executor ∧ executor.accepting = true
  closed : ∀ id, state.closing = some id → state.current = some id
  drained : ∀ id (executor : StreamExecutor), state.executors[id]? = some executor →
    state.current ≠ some id → executor.queue = [] ∧ executor.running = none

theorem registry_initial : streamExecutor.initial.Registry where
  opened id executor found := by cases found
  live id current := by cases current
  closed id closing := by cases closing
  drained id executor found := by cases found

/-- The current executor changes and keeps accepting tasks or refusing them. -/
theorem Registry.set (registry : state.Registry)
    (found : state.executors[executorId]? = some executor)
    (isCurrent : state.current = some executorId) (same : after.accepting = executor.accepting)
    (ops : List StreamOp) (poolQueue begun : List OpId) :
    Registry ⟨ops, state.executors.set executorId after, state.current, state.closing, poolQueue,
      begun⟩ where
  opened id other foundOther accepting := by
    rcases of_getElem?_set foundOther with ⟨rfl, rfl⟩ | ⟨-, before⟩
    · exact registry.opened id executor found (same ▸ accepting)
    · exact registry.opened id other before accepting
  live id current unlocked := by
    obtain ⟨active, foundActive, accepting⟩ := registry.live id current unlocked
    rw [isCurrent] at current
    cases current
    rw [found] at foundActive
    cases foundActive
    exact ⟨after, by simp [getElem?_set_of_found found], same.trans accepting⟩
  closed := registry.closed
  drained id other foundOther retired := by
    rcases of_getElem?_set foundOther with ⟨rfl, rfl⟩ | ⟨-, before⟩
    · exact absurd isCurrent retired
    · exact registry.drained id other before retired

/-- `_get_executor()` makes an executor only when the registry is empty. -/
theorem Registry.create (registry : state.Registry) (unlocked : state.closing = none)
    (shut : ∀ id executor, state.current = some id → state.executors[id]? = some executor →
      executor.accepting = false) (ops : List StreamOp) (poolQueue begun : List OpId) :
    Registry ⟨ops, state.executors ++ [({} : StreamExecutor)], some state.executors.length,
      state.closing, poolQueue, begun⟩ := by
  -- Without `shutdown` under way, the current executor accepts tasks.
  have none : state.current = none := by
    by_contra known
    obtain ⟨id, current⟩ := Option.ne_none_iff_exists'.mp known
    obtain ⟨executor, found, accepting⟩ := registry.live id current unlocked
    rw [shut id executor current found] at accepting
    cases accepting
  constructor
  · intro id executor found accepting
    rcases of_getElem?_append found with before | ⟨rfl, -⟩
    · have current := (registry.opened id executor before accepting).1
      rw [none] at current
      cases current
    · exact ⟨rfl, unlocked⟩
  · intro id current accepting
    cases current
    exact ⟨{}, List.getElem?_concat_length, rfl⟩
  · simp [unlocked]
  · intro id executor found retired
    rcases of_getElem?_append found with before | ⟨rfl, -⟩
    · exact registry.drained id executor before (by simp [none])
    · exact absurd rfl retired

/-- Only the current executor has work. -/
theorem Registry.current_of_busy (registry : state.Registry)
    (found : state.executors[executorId]? = some executor)
    (busy : executor.queue ≠ [] ∨ executor.running ≠ none) : state.current = some executorId := by
  by_contra retired
  obtain ⟨empty, idle⟩ := registry.drained executorId executor found retired
  rcases busy with queued | running
  · exact queued empty
  · exact running idle

theorem Registry.current_of_queued (registry : state.Registry)
    (queued : id ∈ state.queueOf (.executor executorId)) : state.current = some executorId := by
  cases found : state.executors[executorId]? with
  | none => simp [queueOf, found] at queued
  | some executor =>
      rw [queueOf_of_found found] at queued
      exact registry.current_of_busy found (.inl (List.ne_nil_of_mem queued))

theorem Registry.current_of_working (registry : state.Registry)
    (running : state.workerOf executorId = some id) : state.current = some executorId := by
  cases found : state.executors[executorId]? with
  | none => simp [workerOf, found] at running
  | some executor =>
      rw [workerOf_of_found found] at running
      exact registry.current_of_busy found (.inr (by simp [running]))

theorem Registry.step {label : StreamLabel} (registry : state.Registry)
    (stepped : streamExecutor.step state label = some next) : next.Registry := by
  cases streamSteps_of_step stepped with
  | startCurrent | fallback | poolBegin | poolFinish =>
      exact ⟨registry.opened, registry.live, registry.closed, registry.drained⟩
  | startNew unlocked ready shut => exact registry.create unlocked shut ..
  | submit started fetched found accepting =>
      exact registry.set found (registry.opened _ _ found accepting).1 (by rfl) ..
  | begin found started =>
      exact registry.set found (registry.current_of_busy found (.inl (by simp))) (by rfl) ..
  | finish found started =>
      exact registry.set found (registry.current_of_busy found (.inr (by simp))) (by rfl) ..
  | @shutdown id executor unlocked current found accepting =>
      constructor
      · intro other entry foundOther accepts
        rcases of_getElem?_set foundOther with ⟨rfl, rfl⟩ | ⟨apart, before⟩
        · cases accepts
        · have same := (registry.opened other entry before accepts).1
          rw [current] at same
          cases same
          exact absurd rfl apart
      · simp
      · intro other closing
        exact current.trans closing
      · intro other entry foundOther retired
        rcases of_getElem?_set foundOther with ⟨rfl, rfl⟩ | ⟨-, before⟩
        · exact absurd current retired
        · exact registry.drained other entry before retired
  | @shutdownDone id accepting closing done =>
      have current := registry.closed id closing
      constructor
      · intro other entry found accepts
        have unlocked := (registry.opened other entry found accepts).2
        rw [closing] at unlocked
        cases unlocked
      · simp
      · simp
      · intro other entry found retired
        by_cases same : other = id
        · subst same
          rw [done] at found
          cases found
          exact ⟨rfl, rfl⟩
        · exact registry.drained other entry found (by simp [current, Ne.symm same])

theorem registry_of_reached {allowed : StreamState → StreamLabel → Prop}
    (reached : streamExecutor.Reached allowed state) : state.Registry :=
  reached.invariant Registry registry_initial fun _ _ _ registry _ stepped => registry.step stepped

/-! ## Queues and workers -/

/-- The queues and workers hold exactly the operations whose stage says so, and
each native call is begun once. -/
structure Placed (state : StreamState) : Prop where
  queued : ∀ place id, id ∈ state.queueOf place ↔ state.stageOf id = some (.pending place)
  working : ∀ executor id, state.workerOf executor = some id ↔
    state.stageOf id = some (.running (.executor executor))
  begun : ∀ id, id ∈ state.begun ↔ state.HasBegun id
  queueNodup : ∀ place, (state.queueOf place).Nodup
  begunNodup : state.begun.Nodup

theorem placed_initial : streamExecutor.initial.Placed where
  queued place id := by cases place <;> simp [streamExecutor, stageOf, queueOf]
  working executor id := by simp [streamExecutor, stageOf, workerOf]
  begun id := by simp [streamExecutor, stageOf, HasBegun]
  queueNodup place := by cases place <;> simp [streamExecutor, queueOf]
  begunNodup := by simp [streamExecutor]

/-- A step that starts no operation and moves none. -/
theorem Placed.same (placed : state.Placed) (stages : ∀ id, next.stageOf id = state.stageOf id)
    (queues : ∀ place, next.queueOf place = state.queueOf place)
    (workers : ∀ id, next.workerOf id = state.workerOf id) (begun : next.begun = state.begun) :
    next.Placed where
  queued place id := by rw [queues, stages]; exact placed.queued place id
  working executor id := by rw [workers, stages]; exact placed.working executor id
  begun id := by simp only [begun, HasBegun, stages]; exact placed.begun id
  queueNodup place := by rw [queues]; exact placed.queueNodup place
  begunNodup := begun ▸ placed.begunNodup

/-- A new operation is neither queued nor run. -/
theorem Placed.add (placed : state.Placed) {fresh : OpId} (unknown : state.stageOf fresh = none)
    (stages : ∀ id, next.stageOf id =
      if id = fresh then some (.fetched executorId) else state.stageOf id)
    (queues : ∀ place, next.queueOf place = state.queueOf place)
    (workers : ∀ id, next.workerOf id = state.workerOf id) (begun : next.begun = state.begun) :
    next.Placed where
  queued place id := by
    rw [queues, stages, placed.queued]
    split
    · next new => simp [new, unknown]
    · rfl
  working executor id := by
    rw [workers, stages, placed.working]
    split
    · next new => simp [new, unknown]
    · rfl
  begun id := by
    rw [begun, placed.begun, HasBegun, HasBegun, stages]
    split
    · next new => simp [new, unknown, Stage.Begun]
    · rfl
  queueNodup place := by rw [queues]; exact placed.queueNodup place
  begunNodup := begun ▸ placed.begunNodup

/-- An operation comes to a new stage. -/
theorem Placed.move (placed : state.Placed) {stage : Stage}
    (stages : ∀ other, next.stageOf other =
      if other = id then some stage else state.stageOf other)
    (queues : ∀ place other, other ∈ next.queueOf place ↔
      if other = id then stage = .pending place else other ∈ state.queueOf place)
    (workers : ∀ executor other, next.workerOf executor = some other ↔
      if other = id then stage = .running (.executor executor)
      else state.workerOf executor = some other)
    (begun : ∀ other, other ∈ next.begun ↔
      if other = id then stage.Begun else other ∈ state.begun)
    (queueNodup : ∀ place, (next.queueOf place).Nodup) (begunNodup : next.begun.Nodup) :
    next.Placed where
  queued place other := by
    rw [queues, stages]
    split
    · simp
    · exact placed.queued place other
  working executor other := by
    rw [workers, stages]
    split
    · simp
    · exact placed.working executor other
  begun other := by
    rw [begun, HasBegun, stages]
    split
    · simp
    · exact placed.begun other
  queueNodup := queueNodup
  begunNodup := begunNodup

/-- A fetched operation joins a queue. -/
theorem Placed.enqueue (placed : state.Placed) {place : Place}
    (started : state.stageOf id = some (.fetched executorId))
    (stages : ∀ other, next.stageOf other =
      if other = id then some (.pending place) else state.stageOf other)
    (queues : ∀ other, next.queueOf other =
      if other = place then state.queueOf place ++ [id] else state.queueOf other)
    (workers : ∀ id, next.workerOf id = state.workerOf id) (begun : next.begun = state.begun) :
    next.Placed := by
  have unqueued : ∀ place, id ∉ state.queueOf place := by simp [placed.queued, started]
  have idle : ∀ executor, state.workerOf executor ≠ some id := by simp [placed.working, started]
  have unbegun : id ∉ state.begun := by simp [placed.begun, HasBegun, started, Stage.Begun]
  apply placed.move stages
  · intro elsewhere other
    rw [queues]
    grind
  · grind
  · grind [Stage.Begun]
  · intro elsewhere
    rw [queues]
    split
    · exact List.nodup_append.mpr ⟨placed.queueNodup place, by simp, by grind⟩
    · exact placed.queueNodup elsewhere
  · exact begun ▸ placed.begunNodup

/-- The first operation of a queue begins. -/
theorem Placed.take (placed : state.Placed) {place : Place} {queue : List OpId}
    (first : state.queueOf place = id :: queue)
    (stages : ∀ other, next.stageOf other =
      if other = id then some (.running place) else state.stageOf other)
    (queues : ∀ other, next.queueOf other = if other = place then queue else state.queueOf other)
    (idle : ∀ executor, place = .executor executor → state.workerOf executor = none)
    (workers : ∀ executor, next.workerOf executor =
      if place = .executor executor then some id else state.workerOf executor)
    (begun : next.begun = state.begun ++ [id]) : next.Placed := by
  have pending : state.stageOf id = some (.pending place) :=
    (placed.queued place id).mp (by simp [first])
  have unbegun : id ∉ state.begun := by simp [placed.begun, HasBegun, pending, Stage.Begun]
  have elsewhere : ∀ other, id ∈ state.queueOf other → place = other := by
    simp [placed.queued, pending]
  have inactive : ∀ executor, state.workerOf executor ≠ some id := by
    simp [placed.working, pending]
  have distinct := placed.queueNodup place
  rw [first, List.nodup_cons] at distinct
  apply placed.move stages
  · intro place other
    rw [queues]
    grind
  · grind
  · grind [Stage.Begun]
  · intro other
    rw [queues]
    split
    · exact distinct.2
    · exact placed.queueNodup other
  · rw [begun]
    exact List.nodup_append.mpr ⟨placed.begunNodup, by simp, by grind⟩

/-- A running operation finishes. -/
theorem Placed.complete (placed : state.Placed) {place : Place}
    (running : state.stageOf id = some (.running place))
    (stages : ∀ other, next.stageOf other =
      if other = id then some .finished else state.stageOf other)
    (queues : ∀ place, next.queueOf place = state.queueOf place)
    (workers : ∀ executor, next.workerOf executor =
      if place = .executor executor then none else state.workerOf executor)
    (begun : next.begun = state.begun) : next.Placed := by
  have unqueued : ∀ place, id ∉ state.queueOf place := by simp [placed.queued, running]
  have busy : ∀ executor, state.workerOf executor = some id ↔ place = .executor executor := by
    simp [placed.working, running]
  have hasBegun : id ∈ state.begun := by simp [placed.begun, HasBegun, running, Stage.Begun]
  apply placed.move stages
  · grind
  · grind
  · grind [Stage.Begun]
  · simpa only [queues] using placed.queueNodup
  · exact begun ▸ placed.begunNodup

theorem Placed.step {label : StreamLabel} (placed : state.Placed)
    (stepped : streamExecutor.step state label = some next) : next.Placed := by
  cases streamSteps_of_step stepped with
  | startCurrent unlocked ready current found accepting =>
      exact placed.add (stageOf_fresh state) stageOf_add (fun _ => rfl) (fun _ => rfl) rfl
  | startNew unlocked ready shut =>
      exact placed.add (stageOf_fresh state) stageOf_add queueOf_create workerOf_create rfl
  | submit started fetched found accepting =>
      refine placed.enqueue ((stageOf_of_found started).trans (congrArg some fetched))
        (stageOf_move started) (fun place => ?_) (workerOf_set_of_same found rfl) rfl
      rw [queueOf_set found, queueOf_of_found found]
  | fallback started fetched found refusing =>
      refine placed.enqueue ((stageOf_of_found started).trans (congrArg some fetched))
        (stageOf_move started) (fun place => ?_) (fun _ => rfl) rfl
      cases place <;> simp [queueOf]
  | begin found started =>
      refine placed.take (queueOf_of_found found) (stageOf_move started) (queueOf_set found)
        ?_ (fun worker => ?_) rfl
      · intro executor same
        cases same
        exact workerOf_of_found found
      · simp only [workerOf_set found, Place.executor.injEq, eq_comm]
  | finish found started =>
      refine placed.complete ((placed.working _ _).mp (workerOf_of_found found))
        (stageOf_move started) (queueOf_set_of_same found rfl) (fun worker => ?_) rfl
      simp only [workerOf_set found, Place.executor.injEq, eq_comm]
  | poolBegin first started =>
      have head : state.queueOf .pool = _ := first
      refine placed.take head (stageOf_move started) (fun place => ?_) nofun (fun _ => rfl) rfl
      cases place <;> simp [queueOf]
  | poolFinish started running =>
      exact placed.complete ((stageOf_of_found started).trans (congrArg some running))
        (stageOf_move started) (fun _ => rfl) (fun _ => rfl) rfl
  | shutdown unlocked current found accepting =>
      exact placed.same (fun _ => rfl) (queueOf_set_of_same found rfl)
        (workerOf_set_of_same found rfl) rfl
  | shutdownDone closing done =>
      exact placed.same (fun _ => rfl) (fun _ => rfl) (fun _ => rfl) rfl

theorem placed_of_reached {allowed : StreamState → StreamLabel → Prop}
    (reached : streamExecutor.Reached allowed state) : state.Placed :=
  reached.invariant Placed placed_initial fun _ _ _ placed _ stepped => placed.step stepped

end StreamState

end ObscuraProto
