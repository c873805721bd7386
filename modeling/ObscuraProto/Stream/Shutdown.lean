import Mathlib.Data.List.Nodup
import ObscuraProto.Python.Value
import ObscuraProto.Stream.Placement

/-!
# Stream operations across a shutdown

Calls of `_run_in_stream_executor` from any number of threads, with the executor shut
down and made anew between them.  Here `submit()` may raise in any state, and a call is
followed to the end of its await.
-/

namespace ObscuraProto

open Transition Processes

/-- The executors and operations, and how the awaits of the operations ended. -/
structure OperationState where
  executors : StreamState := {}
  returned : List OpId := []
  raised : List OpId := []
  deriving DecidableEq

inductive OperationLabel where
  /-- A call on some thread runs `_get_executor()`. -/
  | call (stream : StreamId) (call : StreamCall)
  /-- `submit()` raises `RuntimeError` and the operation goes to the default executor. -/
  | refused (op : OpId)
  /-- The default executor refuses it too, and the await raises. -/
  | refusedTwice (op : OpId)
  /-- An await of a native call that is over ends. -/
  | resume (op : OpId)
  /-- A step of the executors and their callers as `StreamState.step` has it. -/
  | executor (label : StreamLabel)

/-- The operation whose caller takes the step. -/
def StreamLabel.caller : StreamLabel → Option OpId
  | submit op | fallback op => some op
  | _ => none

namespace StreamState

/-- A new operation has fetched its executor. -/
def addOp (state : StreamState) (stream : StreamId) (call : StreamCall)
    (executor : ExecutorId) : StreamState :=
  { state with ops := state.ops ++ [⟨stream, call, .fetched executor⟩] }

end StreamState

namespace OperationState

/-- The await of the operation is not over. -/
def Awaits (state : OperationState) (id : OpId) : Prop :=
  id ∉ state.returned ∧ id ∉ state.raised

instance (state : OperationState) (id : OpId) : Decidable (state.Awaits id) :=
  inferInstanceAs (Decidable (_ ∧ _))

/-- One step, where `result` is what each native call ends with. -/
def step (result : OpId → Except PyExc PyValue) (state : OperationState) :
    OperationLabel → Option OperationState
  | .call stream call =>
      -- `_get_executor()` needs the lock, which a shutdown holds.
      if state.executors.closing = none then
        match state.executors.getExecutor with
        | (executors, id) => some { state with executors := executors.addOp stream call id }
      else none
  | .refused id =>
      match state.executors.ops[id]? with
      | some ⟨stream, call, .fetched executor⟩ =>
          if state.Awaits id then
            some { state with executors :=
              { state.executors.setStage id ⟨stream, call, .fetched executor⟩ (.pending .pool) with
                poolQueue := state.executors.poolQueue ++ [id] } }
          else none
      | _ => none
  | .refusedTwice id =>
      match state.executors.ops[id]? with
      | some ⟨_, _, .fetched _⟩ =>
          if state.Awaits id then some { state with raised := state.raised ++ [id] } else none
      | _ => none
  | .resume id =>
      match state.executors.ops[id]? with
      | some ⟨_, _, .finished⟩ =>
          if state.Awaits id then
            match result id with
            | .ok _ => some { state with returned := state.returned ++ [id] }
            | .error _ => some { state with raised := state.raised ++ [id] }
          else none
      | _ => none
  | .executor label =>
      if ∀ id ∈ label.caller, state.Awaits id then
        (state.executors.step label).map fun executors => { state with executors }
      else none

end OperationState

/-- Calls of `_run_in_stream_executor` and `_shutdown_executors()` on any threads. -/
def streamOperations (result : OpId → Except PyExc PyValue) :
    System OperationState OperationLabel where
  initial := {}
  step := OperationState.step result

/-! ## What a step does to the executors -/

namespace StreamState

variable {state : StreamState}

theorem Registry.call (registry : state.Registry) (unlocked : state.closing = none)
    (stream : StreamId) (call : StreamCall) :
    (state.getExecutor.1.addOp stream call state.getExecutor.2).Registry := by
  rcases state.getExecutor_cases with ⟨id, executor, -, -, -, got⟩ | ⟨shut, got⟩
  · rw [got]
    exact ⟨registry.opened, registry.live, registry.closed, registry.drained⟩
  · rw [got]
    exact registry.create unlocked shut ..

theorem Placed.call (placed : state.Placed) (stream : StreamId) (call : StreamCall) :
    (state.getExecutor.1.addOp stream call state.getExecutor.2).Placed := by
  rcases state.getExecutor_cases with ⟨id, executor, -, -, -, got⟩ | ⟨-, got⟩
  · rw [got]
    exact placed.add (stageOf_fresh state) stageOf_add (fun _ => rfl) (fun _ => rfl) rfl
  · rw [got]
    exact placed.add (stageOf_fresh state) stageOf_add queueOf_create workerOf_create rfl

/-- An operation goes to the default executor, whatever became of its executor. -/
theorem Placed.toPool (placed : state.Placed) {id : OpId} {op : StreamOp}
    {executor : ExecutorId} (started : state.ops[id]? = some op)
    (fetched : op.stage = .fetched executor) :
    ({ state.setStage id op (.pending .pool) with
      poolQueue := state.poolQueue ++ [id] } : StreamState).Placed := by
  refine placed.enqueue ((stageOf_of_found started).trans (congrArg some fetched))
    (stageOf_move started) (fun place => ?_) (fun _ => rfl) rfl
  cases place <;> simp [queueOf, setStage]

theorem ne_fresh {id : OpId} {stage : Stage} (known : state.stageOf id = some stage) :
    id ≠ state.ops.length := by
  rintro rfl
  rw [stageOf_fresh] at known
  cases known

/-- Moving an operation that is not finished leaves the finished ones alone. -/
theorem finished_move {id moved : OpId} {stage before : Stage}
    (finished : state.stageOf id = some .finished) (known : state.stageOf moved = some before)
    (kept : before = .finished → stage = .finished) :
    (if id = moved then some stage else state.stageOf id) = some .finished := by
  split
  · next same =>
      rw [same, known, Option.some.injEq] at finished
      rw [kept finished]
  · exact finished

theorem finished_call {id : OpId} (finished : state.stageOf id = some .finished)
    (stream : StreamId) (call : StreamCall) :
    (state.getExecutor.1.addOp stream call state.getExecutor.2).stageOf id = some .finished := by
  rcases state.getExecutor_cases with ⟨executorId, executor, -, -, -, got⟩ | ⟨-, got⟩
  · rw [got, addOp, stageOf_add, if_neg (ne_fresh finished)]
    exact finished
  · rw [got, addOp, createExecutor, stageOf_add, if_neg (ne_fresh finished)]
    exact finished

/-- A finished operation stays finished: what is queued, run or fetched is not. -/
theorem Placed.finished_step (placed : state.Placed) {next : StreamState} {label : StreamLabel}
    (taken : streamExecutor.step state label = some next) {id : OpId}
    (finished : state.stageOf id = some .finished) : next.stageOf id = some .finished := by
  cases streamSteps_of_step taken with
  | startCurrent | startNew =>
      rw [stageOf_add, if_neg (ne_fresh finished)]
      exact finished
  | submit started fetched =>
      rw [stageOf_move started]
      exact finished_move finished ((stageOf_of_found started).trans (congrArg some fetched)) nofun
  | fallback started fetched =>
      rw [stageOf_move started]
      exact finished_move finished ((stageOf_of_found started).trans (congrArg some fetched)) nofun
  | @begin executorId accepting moved queue op found started =>
      have first : moved ∈ state.queueOf (.executor executorId) := by
        rw [queueOf_of_found found]
        exact List.mem_cons_self
      rw [stageOf_move started]
      exact finished_move finished ((placed.queued (.executor executorId) moved).mp first) nofun
  | finish found started =>
      rw [stageOf_move started]
      exact finished_move finished (stageOf_of_found started) fun _ => rfl
  | @poolBegin moved queue op first started =>
      have waits : moved ∈ state.poolQueue := by
        rw [first]
        exact List.mem_cons_self
      rw [stageOf_move started]
      exact finished_move finished ((placed.queued .pool moved).mp waits) nofun
  | poolFinish started running =>
      rw [stageOf_move started]
      exact finished_move finished (stageOf_of_found started) fun _ => rfl
  | shutdown => exact finished
  | shutdownDone => exact finished

end StreamState

namespace OperationState

/-- The executors of a state are those of the shutdown model, and an await that ended
normally is that of an operation that is finished. -/
structure Consistent (state : OperationState) : Prop where
  registry : state.executors.Registry
  placed : state.executors.Placed
  finished : ∀ id ∈ state.returned, state.executors.stageOf id = some .finished

variable {result : OpId → Except PyExc PyValue} {state next : OperationState}
  {label : OperationLabel}

theorem consistent_initial : (streamOperations result).initial.Consistent where
  registry := StreamState.registry_initial
  placed := StreamState.placed_initial
  finished id returned := by cases returned

theorem Consistent.step (consistent : state.Consistent)
    (taken : state.step result label = some next) : next.Consistent := by
  have registry := consistent.registry
  have placed := consistent.placed
  have finished := consistent.finished
  cases label with
  | call stream call =>
      simp only [OperationState.step, Option.ite_none_right_eq_some, Option.some.injEq] at taken
      obtain ⟨unlocked, rfl⟩ := taken
      refine ⟨registry.call unlocked stream call, placed.call stream call, ?_⟩
      intro id returned
      exact StreamState.finished_call (finished id returned) stream call
  | refused id =>
      simp only [OperationState.step] at taken
      split at taken
      · next stream call executor started =>
          simp only [Option.ite_none_right_eq_some, Option.some.injEq] at taken
          obtain ⟨-, rfl⟩ := taken
          refine ⟨⟨registry.opened, registry.live, registry.closed, registry.drained⟩,
            placed.toPool started rfl, ?_⟩
          intro other returned
          exact (StreamState.stageOf_move started other).trans
            (StreamState.finished_move (finished other returned)
              (StreamState.stageOf_of_found started) nofun)
      · cases taken
  | refusedTwice id =>
      simp only [OperationState.step] at taken
      split at taken
      · simp only [Option.ite_none_right_eq_some, Option.some.injEq] at taken
        obtain ⟨-, rfl⟩ := taken
        exact ⟨registry, placed, finished⟩
      · cases taken
  | resume id =>
      simp only [OperationState.step] at taken
      split at taken
      · next stream call started =>
          simp only [Option.ite_none_right_eq_some] at taken
          obtain ⟨-, taken⟩ := taken
          split at taken
          · cases taken
            refine ⟨registry, placed, ?_⟩
            intro other returned
            rcases List.mem_append.mp returned with before | now
            · exact finished other before
            · rw [List.mem_singleton.mp now]
              exact StreamState.stageOf_of_found started
          · cases taken
            exact ⟨registry, placed, finished⟩
      · cases taken
  | executor label =>
      simp only [OperationState.step, Option.ite_none_right_eq_some, Option.map_eq_some_iff]
        at taken
      obtain ⟨-, executors, stepped, rfl⟩ := taken
      exact ⟨registry.step stepped, placed.step stepped, fun id returned =>
        placed.finished_step stepped (finished id returned)⟩

theorem consistent_of_reached
    (reached : (streamOperations result).Reached System.Free state) : state.Consistent := by
  apply reached.invariant Consistent consistent_initial
  intro state label next consistent _ taken
  exact consistent.step taken

/-- At most one executor accepts tasks, no operation is executed twice, and one whose
await ended normally was executed once and is over. -/
structure NoneLostOrRepeated (state : OperationState) : Prop where
  oneExecutor : ∀ (left right : ExecutorId) (leftExecutor rightExecutor : StreamExecutor),
    state.executors.executors[left]? = some leftExecutor →
    state.executors.executors[right]? = some rightExecutor →
    leftExecutor.accepting = true → rightExecutor.accepting = true → left = right
  atMostOnce : ∀ id, state.executors.begun.count id ≤ 1
  executed : ∀ id ∈ state.returned,
    state.executors.begun.count id = 1 ∧ state.executors.stageOf id = some .finished

theorem Consistent.noneLostOrRepeated (consistent : state.Consistent) :
    state.NoneLostOrRepeated where
  oneExecutor left right leftExecutor rightExecutor foundLeft foundRight acceptsLeft
      acceptsRight := by
    have currentLeft := (consistent.registry.opened left _ foundLeft acceptsLeft).1
    have currentRight := (consistent.registry.opened right _ foundRight acceptsRight).1
    rw [currentLeft, Option.some.injEq] at currentRight
    exact currentRight
  atMostOnce id := List.nodup_iff_count_le_one.mp consistent.placed.begunNodup id
  executed id returned := by
    have finished := consistent.finished id returned
    have begun : id ∈ state.executors.begun :=
      (consistent.placed.begun id).mpr ⟨.finished, finished, trivial⟩
    exact ⟨List.count_eq_one_of_mem consistent.placed.begunNodup begun, finished⟩

end OperationState

/-- No operation is lost or repeated, however calls, shutdowns and new executors
interleave. -/
theorem streamOperations_noneLostOrRepeated (result : OpId → Except PyExc PyValue)
    (state : OperationState) (reached : (streamOperations result).Reached System.Free state) :
    state.NoneLostOrRepeated :=
  (OperationState.consistent_of_reached reached).noneLostOrRepeated

/-- A write is queued and `async_end` has fetched the executor when it is shut down: the
write is executed by the old executor and the end by the default one. -/
theorem streamOperations_noneLostOrRepeated_shutdown :
    OperationState.NoneLostOrRepeated
      { executors :=
          { ops := [⟨0, .write [104], .finished⟩, ⟨0, .end, .finished⟩]
            executors := [{ accepting := false }]
            begun := [0, 1] }
        returned := [1, 0] } := by
  have ran : (streamOperations fun _ => .ok .none).run System.Free
      (streamOperations fun _ => .ok .none).initial
      [.call 0 (.write [104]), .call 0 .end, .executor (.submit 0), .executor .shutdown,
        .executor (.begin 0), .refused 1, .executor .poolBegin, .executor (.poolFinish 1),
        .resume 1, .executor (.finish 0), .executor .shutdownDone, .resume 0] = some _ := rfl
  exact streamOperations_noneLostOrRepeated (fun _ => .ok .none) _ (System.along_of_run ran)

end ObscuraProto
