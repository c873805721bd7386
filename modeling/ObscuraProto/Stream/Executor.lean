import ObscuraProto.Library.Processes
import ObscuraProto.Library.Transition

/-!
# The stream executor

Stream operations run on a shared executor with one worker.  It can be shut down
between the moment an operation fetches it and the moment the operation submits
to it; the operation then goes to the default executor of the loop, which has
several workers.
-/

namespace ObscuraProto

open Transition Processes

abbrev OpId := Nat

abbrev StreamId := Nat

abbrev ExecutorId := Nat

/-- The native call of an operation. -/
inductive StreamCall where
  | write (data : List UInt8)
  | «end»
  | cancel
  deriving DecidableEq

/-- Where a native call is queued or runs. -/
inductive Place where
  | executor (executor : ExecutorId)
  /-- The default executor, through `asyncio.to_thread`. -/
  | pool
  deriving DecidableEq

/-- How far a call of `_run_in_stream_executor` has come. -/
inductive Stage where
  /-- `_get_executor()` has returned; `submit()` is next. -/
  | fetched (executor : ExecutorId)
  | pending (place : Place)
  | running (place : Place)
  | finished
  deriving DecidableEq

namespace Stage

/-- The native call has begun. -/
def Begun : Stage → Prop
  | running _ | finished => True
  | _ => False

end Stage

/-- An operation on a stream: its position in the list of operations is the order
of starts. -/
structure StreamOp where
  stream : StreamId
  call : StreamCall
  stage : Stage
  deriving DecidableEq

/-- A `ThreadPoolExecutor` with one worker. -/
structure StreamExecutor where
  accepting : Bool := true
  queue : List OpId := []
  running : Option OpId := none
  deriving DecidableEq

structure StreamState where
  ops : List StreamOp := []
  executors : List StreamExecutor := []
  /-- `_stream_executor`. -/
  current : Option ExecutorId := none
  /-- The executor `_shutdown_executors()` waits for, holding `_executor_lock`. -/
  closing : Option ExecutorId := none
  /-- The queue of the default executor. -/
  poolQueue : List OpId := []
  /-- The native calls, in the order they began. -/
  begun : List OpId := []
  deriving DecidableEq

inductive StreamLabel where
  /-- A coroutine of the stream starts and calls `_get_executor()`. -/
  | start (stream : StreamId) (call : StreamCall)
  | submit (op : OpId)
  /-- `submit()` raised: the operation goes to the default executor. -/
  | fallback (op : OpId)
  | begin (executor : ExecutorId)
  | finish (executor : ExecutorId)
  | poolBegin
  | poolFinish (op : OpId)
  /-- `_shutdown_executors()` takes the lock and shuts the executor down. -/
  | shutdown
  /-- It is drained, and the lock is released. -/
  | shutdownDone
  deriving DecidableEq

/-! ## `Stream` -/

def asyncWrite (stream : StreamId) (data : List UInt8) : StreamLabel :=
  .start stream (.write data)

def asyncEnd (stream : StreamId) : StreamLabel :=
  .start stream .end

def asyncCancel (stream : StreamId) : StreamLabel :=
  .start stream .cancel

namespace StreamState

/-- A new executor becomes the current one. -/
def createExecutor (state : StreamState) : StreamState × ExecutorId :=
  ({ state with
      executors := state.executors ++ [{}]
      current := some state.executors.length }, state.executors.length)

/-- `_get_executor()`. -/
def getExecutor (state : StreamState) : StreamState × ExecutorId :=
  match state.current with
  | some id =>
      match state.executors[id]? with
      | some executor => if executor.accepting then (state, id) else state.createExecutor
      | none => state.createExecutor
  | none => state.createExecutor

/-- The stream has an operation between `_get_executor()` and `submit()`. -/
def fetching (state : StreamState) (stream : StreamId) : Bool :=
  state.ops.any fun op =>
    op.stream = stream &&
      match op.stage with
      | .fetched _ => true
      | _ => false

/-- The operation `id` comes to a new stage. -/
def setStage (state : StreamState) (id : OpId) (op : StreamOp) (stage : Stage) : StreamState :=
  { state with ops := state.ops.set id { op with stage } }

/-- The coroutines of one stream run on one loop, so a new operation of the stream
starts when the earlier ones are submitted. -/
def step (state : StreamState) : StreamLabel → Option StreamState
  | .start stream call =>
      if state.closing = none ∧ state.fetching stream = false then
        match state.getExecutor with
        | (state, executor) =>
            some { state with ops := state.ops ++ [⟨stream, call, .fetched executor⟩] }
      else none
  | .submit id =>
      match state.ops[id]? with
      | some ⟨stream, call, .fetched executorId⟩ =>
          match state.executors[executorId]? with
          | some executor =>
              if executor.accepting then
                some
                  { state.setStage id ⟨stream, call, .fetched executorId⟩
                      (.pending (.executor executorId)) with
                    executors := state.executors.set executorId
                      { executor with queue := executor.queue ++ [id] } }
              else none
          | none => none
      | _ => none
  | .fallback id =>
      match state.ops[id]? with
      | some ⟨stream, call, .fetched executorId⟩ =>
          match state.executors[executorId]? with
          | some executor =>
              if executor.accepting then none
              else
                some
                  { state.setStage id ⟨stream, call, .fetched executorId⟩ (.pending .pool) with
                    poolQueue := state.poolQueue ++ [id] }
          | none => none
      | _ => none
  | .begin executorId =>
      match state.executors[executorId]? with
      | some ⟨accepting, id :: queue, none⟩ =>
          match state.ops[id]? with
          | some op =>
              some
                { state.setStage id op (.running (.executor executorId)) with
                  executors := state.executors.set executorId ⟨accepting, queue, some id⟩
                  begun := state.begun ++ [id] }
          | none => none
      | _ => none
  | .finish executorId =>
      match state.executors[executorId]? with
      | some ⟨accepting, queue, some id⟩ =>
          match state.ops[id]? with
          | some op =>
              some
                { state.setStage id op .finished with
                  executors := state.executors.set executorId ⟨accepting, queue, none⟩ }
          | none => none
      | _ => none
  | .poolBegin =>
      match state.poolQueue with
      | id :: queue =>
          match state.ops[id]? with
          | some op =>
              some
                { state.setStage id op (.running .pool) with
                  poolQueue := queue
                  begun := state.begun ++ [id] }
          | none => none
      | [] => none
  | .poolFinish id =>
      match state.ops[id]? with
      | some ⟨stream, call, .running .pool⟩ =>
          some (state.setStage id ⟨stream, call, .running .pool⟩ .finished)
      | _ => none
  | .shutdown =>
      match state.closing, state.current with
      | none, some id =>
          match state.executors[id]? with
          | some executor =>
              if executor.accepting then
                some
                  { state with
                    executors := state.executors.set id { executor with accepting := false }
                    closing := some id }
              else none
          | none => none
      | _, _ => none
  | .shutdownDone =>
      match state.closing with
      | some id =>
          match state.executors[id]? with
          | some ⟨_, [], none⟩ => some { state with current := none, closing := none }
          | _ => none
      | none => none

end StreamState

/-- Operations on streams and shutdowns of the executor. -/
def streamExecutor : System StreamState StreamLabel where
  initial := {}
  step := StreamState.step

/-! ## What a step can do -/

namespace StreamState

/-- `_get_executor()` returns the current executor while it accepts tasks, else a
new one. -/
theorem getExecutor_cases (state : StreamState) :
    (∃ id executor, state.current = some id ∧ state.executors[id]? = some executor ∧
      executor.accepting = true ∧ state.getExecutor = (state, id)) ∨
    ((∀ id executor, state.current = some id → state.executors[id]? = some executor →
      executor.accepting = false) ∧ state.getExecutor = state.createExecutor) := by
  rw [getExecutor]
  split
  · next id current =>
      split
      · next executor found =>
          split
          · next accepting => exact .inl ⟨id, executor, current, found, accepting, rfl⟩
          · next refusing =>
              apply Or.inr
              constructor
              · intro other known same foundKnown
                rw [current] at same
                cases same
                rw [found] at foundKnown
                cases foundKnown
                simpa using refusing
              · rfl
      · next missing =>
          apply Or.inr
          constructor
          · intro other known same found
            rw [current] at same
            cases same
            rw [missing] at found
            cases found
          · rfl
  · next none =>
      apply Or.inr
      constructor
      · intro other known same found
        rw [none] at same
        cases same
      · rfl

end StreamState

/-- The outcomes of a step. -/
inductive StreamSteps (state : StreamState) : StreamLabel → StreamState → Prop
  | startCurrent {stream : StreamId} {call : StreamCall} {id : ExecutorId}
      {executor : StreamExecutor} (unlocked : state.closing = none)
      (ready : state.fetching stream = false) (current : state.current = some id)
      (found : state.executors[id]? = some executor) (accepting : executor.accepting = true) :
      StreamSteps state (.start stream call)
        { state with ops := state.ops ++ [⟨stream, call, .fetched id⟩] }
  | startNew {stream : StreamId} {call : StreamCall} (unlocked : state.closing = none)
      (ready : state.fetching stream = false)
      (shut : ∀ id executor, state.current = some id → state.executors[id]? = some executor →
        executor.accepting = false) :
      StreamSteps state (.start stream call)
        { state with
          ops := state.ops ++ [⟨stream, call, .fetched state.executors.length⟩]
          executors := state.executors ++ [{}]
          current := some state.executors.length }
  | submit {id : OpId} {op : StreamOp} {executorId : ExecutorId} {executor : StreamExecutor}
      (started : state.ops[id]? = some op) (fetched : op.stage = .fetched executorId)
      (found : state.executors[executorId]? = some executor)
      (accepting : executor.accepting = true) :
      StreamSteps state (.submit id)
        { state with
          ops := state.ops.set id { op with stage := .pending (.executor executorId) }
          executors := state.executors.set executorId
            { executor with queue := executor.queue ++ [id] } }
  | fallback {id : OpId} {op : StreamOp} {executorId : ExecutorId} {executor : StreamExecutor}
      (started : state.ops[id]? = some op) (fetched : op.stage = .fetched executorId)
      (found : state.executors[executorId]? = some executor)
      (refusing : executor.accepting = false) :
      StreamSteps state (.fallback id)
        { state with
          ops := state.ops.set id { op with stage := .pending .pool }
          poolQueue := state.poolQueue ++ [id] }
  | begin {executorId : ExecutorId} {accepting : Bool} {id : OpId} {queue : List OpId}
      {op : StreamOp}
      (found : state.executors[executorId]? = some ⟨accepting, id :: queue, none⟩)
      (started : state.ops[id]? = some op) :
      StreamSteps state (.begin executorId)
        { state with
          ops := state.ops.set id { op with stage := .running (.executor executorId) }
          executors := state.executors.set executorId ⟨accepting, queue, some id⟩
          begun := state.begun ++ [id] }
  | finish {executorId : ExecutorId} {accepting : Bool} {id : OpId} {queue : List OpId}
      {op : StreamOp}
      (found : state.executors[executorId]? = some ⟨accepting, queue, some id⟩)
      (started : state.ops[id]? = some op) :
      StreamSteps state (.finish executorId)
        { state with
          ops := state.ops.set id { op with stage := .finished }
          executors := state.executors.set executorId ⟨accepting, queue, none⟩ }
  | poolBegin {id : OpId} {queue : List OpId} {op : StreamOp}
      (first : state.poolQueue = id :: queue) (started : state.ops[id]? = some op) :
      StreamSteps state .poolBegin
        { state with
          ops := state.ops.set id { op with stage := .running .pool }
          poolQueue := queue
          begun := state.begun ++ [id] }
  | poolFinish {id : OpId} {op : StreamOp} (started : state.ops[id]? = some op)
      (running : op.stage = .running .pool) :
      StreamSteps state (.poolFinish id)
        { state with ops := state.ops.set id { op with stage := .finished } }
  | shutdown {id : ExecutorId} {executor : StreamExecutor} (unlocked : state.closing = none)
      (current : state.current = some id) (found : state.executors[id]? = some executor)
      (accepting : executor.accepting = true) :
      StreamSteps state .shutdown
        { state with
          executors := state.executors.set id { executor with accepting := false }
          closing := some id }
  | shutdownDone {id : ExecutorId} {accepting : Bool} (closing : state.closing = some id)
      (drained : state.executors[id]? = some ⟨accepting, [], none⟩) :
      StreamSteps state .shutdownDone { state with current := none, closing := none }

theorem streamSteps_of_step {state next : StreamState} {label : StreamLabel}
    (stepped : streamExecutor.step state label = some next) : StreamSteps state label next := by
  cases label with
  | start stream call =>
      simp only [streamExecutor, StreamState.step] at stepped
      split at stepped
      · next allowed =>
          rcases state.getExecutor_cases with ⟨id, executor, current, found, accepting, got⟩ |
            ⟨shut, got⟩
          · rw [got] at stepped
            cases stepped
            exact .startCurrent allowed.1 allowed.2 current found accepting
          · rw [got] at stepped
            cases stepped
            exact .startNew allowed.1 allowed.2 shut
      · cases stepped
  | submit id =>
      simp only [streamExecutor, StreamState.step] at stepped
      split at stepped
      · next started =>
          split at stepped
          · next found =>
              split at stepped
              · next accepting => cases stepped; exact .submit started rfl found accepting
              · cases stepped
          · cases stepped
      · cases stepped
  | fallback id =>
      simp only [streamExecutor, StreamState.step] at stepped
      split at stepped
      · next started =>
          split at stepped
          · next found =>
              split at stepped
              · cases stepped
              · next refusing =>
                  cases stepped
                  exact .fallback started rfl found (by simpa using refusing)
          · cases stepped
      · cases stepped
  | begin executorId =>
      simp only [streamExecutor, StreamState.step] at stepped
      split at stepped
      · next found =>
          split at stepped
          · next started => cases stepped; exact .begin found started
          · cases stepped
      · cases stepped
  | finish executorId =>
      simp only [streamExecutor, StreamState.step] at stepped
      split at stepped
      · next found =>
          split at stepped
          · next started => cases stepped; exact .finish found started
          · cases stepped
      · cases stepped
  | poolBegin =>
      simp only [streamExecutor, StreamState.step] at stepped
      split at stepped
      · next first =>
          split at stepped
          · next started => cases stepped; exact .poolBegin first started
          · cases stepped
      · cases stepped
  | poolFinish id =>
      simp only [streamExecutor, StreamState.step] at stepped
      split at stepped
      · next started => cases stepped; exact .poolFinish started rfl
      · cases stepped
  | shutdown =>
      simp only [streamExecutor, StreamState.step] at stepped
      split at stepped
      · next unlocked current =>
          split at stepped
          · next found =>
              split at stepped
              · next accepting => cases stepped; exact .shutdown unlocked current found accepting
              · cases stepped
          · cases stepped
      · cases stepped
  | shutdownDone =>
      simp only [streamExecutor, StreamState.step] at stepped
      split at stepped
      · next closing =>
          split at stepped
          · next drained => cases stepped; exact .shutdownDone closing drained
          · cases stepped
      · cases stepped

theorem StreamSteps.step {state next : StreamState} {label : StreamLabel}
    (steps : StreamSteps state label next) :
    streamExecutor.step state label = some next := by
  cases steps with
  | startCurrent unlocked ready current found accepting =>
      simp [streamExecutor, StreamState.step, StreamState.getExecutor, *]
  | startNew unlocked ready shut =>
      rcases state.getExecutor_cases with ⟨id, executor, current, found, accepting, -⟩ |
        ⟨-, created⟩
      · rw [shut id executor current found] at accepting
        cases accepting
      · simp [streamExecutor, StreamState.step, StreamState.createExecutor, *]
  | @submit id op executorId executor started fetched found accepting =>
      obtain ⟨stream, call, stage⟩ := op
      cases fetched
      simp [streamExecutor, StreamState.step, StreamState.setStage, *]
  | @fallback id op executorId executor started fetched found refusing =>
      obtain ⟨stream, call, stage⟩ := op
      cases fetched
      simp [streamExecutor, StreamState.step, StreamState.setStage, *]
  | @poolFinish id op started running =>
      obtain ⟨stream, call, stage⟩ := op
      cases running
      simp [streamExecutor, StreamState.step, StreamState.setStage, *]
  | begin found started => simp [streamExecutor, StreamState.step, StreamState.setStage, *]
  | finish found started => simp [streamExecutor, StreamState.step, StreamState.setStage, *]
  | poolBegin first started => simp [streamExecutor, StreamState.step, StreamState.setStage, *]
  | shutdown unlocked current found accepting => simp [streamExecutor, StreamState.step, *]
  | shutdownDone closing drained => simp [streamExecutor, StreamState.step, *]

end ObscuraProto
