import ObscuraProto.Bridge.FetchWork
import ObscuraProto.Callback.IdentityCheck
import ObscuraProto.Callback.IoThread

/-!
# A native call on the event loop's thread

Several endpoints share one event loop.  Each has an I/O thread that waits, under a
wrapper that waits, until the loop has run the coroutine of a handler.  A coroutine may
call `stop()`, `disconnect()` or `sync_request()`: the flag of the callback thread is not
set on the loop's thread, so the guards let it pass, and the loop stands still until an
I/O thread has done its part.
-/

namespace ObscuraProto

open Transition Processes

abbrev EndpointId := Nat

/-- What a coroutine does in its next turn on the loop. -/
inductive Turn (Code : Type) where
  | finish (outcome : Except PyExc PyValue)
  /-- It awaits something that no I/O thread delivers. -/
  | pause (next : Code)
  | awaitResponse (key : PeerKey) (resume : Payload → Code)
  /-- `sync_request()` of an endpoint. -/
  | syncRequest (key : PeerKey) (resume : Payload → Code)
  /-- `stop()`, `disconnect()` or the end of an `async with` on an endpoint. -/
  | stop (endpoint : EndpointId) (next : Code)

/-- The endpoints of a loop, their handlers and the coroutines that run on it. -/
structure LoopProgram (Name Code : Type) where
  loop : LoopId
  resultTimeout : Seconds
  registration : Name → Registration
  /-- The coroutine of an async handler; a sync handler has none. -/
  entry : Name → Option Code
  turn : Code → Turn Code
  /-- How many endpoints are attached to the loop. -/
  endpoints : Nat
  /-- The coroutines that run from the start. -/
  mains : List Code

/-- Where a coroutine stands. -/
inductive Activity (Code : Type) where
  | ready (code : Code)
  | awaiting (key : PeerKey) (resume : Payload → Code)
  /-- In the native `sync_request()`. -/
  | requesting (key : PeerKey) (resume : Payload → Code)
  /-- In the native `stop()`, which joins the I/O thread. -/
  | stopping (endpoint : EndpointId) (next : Code)
  | ended (outcome : Except PyExc PyValue)

def Turn.activity {Code : Type} : Turn Code → Activity Code
  | .finish outcome => .ended outcome
  | .pause next => .ready next
  | .awaitResponse key resume => .awaiting key resume
  | .syncRequest key resume => .requesting key resume
  | .stop endpoint next => .stopping endpoint next

/-- A task of the loop and the future `run_coroutine_threadsafe` made for it. -/
structure LoopTask (Code : Type) where
  activity : Activity Code
  future : ConcurrentFuture := {}

/-- A wait in `_wait_future_with_polling`. -/
structure Wait where
  task : TaskId
  deadline : Rat
  deriving DecidableEq

/-- Where an I/O thread is. -/
inductive IoPhase where
  | idle
  /-- Before `future.done()`. -/
  | polling (wait : Wait)
  /-- The future was not done: before the clock is read. -/
  | checking (wait : Wait)
  | sleeping (wait : Wait) (wake : Rat)
  /-- The thread has ended. -/
  | exited
  deriving DecidableEq

structure IoThread (Name : Type) where
  /-- Received messages that are not delivered yet. -/
  inbox : List (Message Name) := []
  phase : IoPhase := .idle
  /-- The native `stop()` was called. -/
  stopping : Bool := false

structure LoopState (Name Code : Type) where
  clock : Rat := 0
  threads : List (IoThread Name)
  tasks : List (LoopTask Code)
  /-- The task whose native call the loop's thread is in. -/
  blocked : Option TaskId := none
  delivered : List (PeerKey × Payload) := []
  /-- How the waits of the I/O threads ended. -/
  results : List (TaskId × Except PyExc PyValue) := []

/-- A step of an I/O thread; the clock is read where the source reads it. -/
inductive IoAction where
  | deliver (reading : Rat)
  | poll
  | check (reading : Rat)
  | wake (reading : Rat)
  | exit

inductive LoopLabel (Name : Type) where
  | receive (endpoint : EndpointId) (message : Message Name)
  | io (endpoint : EndpointId) (action : IoAction)
  /-- `stop()` or `disconnect()` on a thread of its own. -/
  | halt (endpoint : EndpointId)
  | turn (task : TaskId)
  | resume (task : TaskId) (content : Payload)
  /-- The loop passes the outcome of a task that has ended on to its future. -/
  | settle (task : TaskId)
  /-- The loop cancels a task whose future was cancelled. -/
  | cancel (task : TaskId)
  /-- The native `stop()` returns. -/
  | joined
  /-- The native `sync_request()` returns. -/
  | answered (content : Payload)

namespace LoopLabel

variable {Name : Type}

/-- A step of the I/O thread of an endpoint. -/
def isIoOf (endpoint : EndpointId) : LoopLabel Name → Bool
  | .io other _ => other == endpoint
  | _ => false

/-- An endpoint receives a message. -/
def isReceiveOf (endpoint : EndpointId) : LoopLabel Name → Bool
  | .receive other _ => other == endpoint
  | _ => false

/-- A native call returns to the loop's thread. -/
def isReturn : LoopLabel Name → Bool
  | .joined | .answered _ => true
  | _ => false

end LoopLabel

namespace LoopProgram

variable {Name Code : Type} (program : LoopProgram Name Code)

/-- The callback registered for a handler. -/
def wrapper (name : Name) : Wrapper :=
  ((program.registration name).wrap (some program.loop)
    { loop := some program.loop, resultTimeout := program.resultTimeout }).2

end LoopProgram

namespace LoopState

variable {Name Code : Type} (program : LoopProgram Name Code) (state : LoopState Name Code)

def setThread (endpoint : EndpointId) (thread : IoThread Name) : LoopState Name Code :=
  { state with threads := state.threads.set endpoint thread }

def setTask (id : TaskId) (task : LoopTask Code) : LoopState Name Code :=
  { state with tasks := state.tasks.set id task }

/-- What the future of a task holds. -/
def resultOf (id : TaskId) : Option (Except PyExc PyValue) :=
  state.tasks[id]?.bind (·.future.result)

/-- An idle I/O thread delivers a message. -/
def deliver (endpoint : EndpointId) (thread : IoThread Name) : Message Name → LoopState Name Code
  | .answer key content =>
      { state with delivered := state.delivered ++ [(key, content)] }.setThread endpoint thread
  | .invoke name =>
      match program.entry name with
      | none => state.setThread endpoint thread
      | some code =>
          { state with tasks := state.tasks ++ [LoopTask.mk (.ready code) {}] }.setThread endpoint
            { thread with
              phase :=
                if (program.wrapper name).waits then
                  .polling ⟨state.tasks.length, state.clock + program.resultTimeout.value⟩
                else .idle }

/-- The deadline of a wait has passed: `_abandon_timed_out_future` and the exception. -/
def abandon (id : TaskId) : LoopState Name Code :=
  { state with
    tasks := state.tasks.modify id fun task => { task with future := task.future.abandon }
    results := state.results ++ [(id, .error (callbackTimeout program.resultTimeout))] }

/-- A step of the I/O thread of an endpoint. -/
def act (endpoint : EndpointId) (thread : IoThread Name) (action : IoAction) :
    Option (LoopState Name Code) :=
  match action, thread.phase with
  | .deliver reading, .idle =>
      match thread.inbox with
      | message :: inbox =>
          if state.clock ≤ reading then
            some ({ state with clock := reading }.deliver program endpoint
              { thread with inbox } message)
          else none
      | [] => none
  | .poll, .polling wait =>
      match state.resultOf wait.task with
      | some outcome =>
          some ({ state with results := state.results ++ [(wait.task, outcome)] }.setThread
            endpoint { thread with phase := .idle })
      | none => some (state.setThread endpoint { thread with phase := .checking wait })
  | .check reading, .checking wait =>
      if state.clock ≤ reading then
        let remaining := wait.deadline - reading
        if remaining ≤ 0 then
          some (({ state with clock := reading }.abandon program wait.task).setThread endpoint
            { thread with phase := .idle })
        else
          some ({ state with clock := reading }.setThread endpoint
            { thread with
              phase := .sleeping wait (reading + min callbackPollInterval remaining) })
      else none
  | .wake reading, .sleeping wait wake =>
      if state.clock ≤ reading ∧ wake ≤ reading then
        some ({ state with clock := reading }.setThread endpoint
          { thread with phase := .polling wait })
      else none
  | .exit, .idle =>
      if thread.stopping then some (state.setThread endpoint { thread with phase := .exited })
      else none
  | _, _ => none

/-- A turn of a ready task.  The native calls hold the loop's thread. -/
def takeTurn (id : TaskId) (future : ConcurrentFuture) (turn : Turn Code) :
    Option (LoopState Name Code) :=
  let after := state.setTask id ⟨turn.activity, future⟩
  match turn with
  | .finish _ | .pause _ | .awaitResponse .. => some after
  | .syncRequest .. => some { after with blocked := some id }
  | .stop endpoint _ =>
      state.threads[endpoint]?.map fun thread =>
        { after.setThread endpoint { thread with stopping := true } with blocked := some id }

/-- A step of the loop's thread outside native calls. -/
def loopStep : LoopLabel Name → Option (LoopState Name Code)
  | .turn id =>
      match state.tasks[id]? with
      | some ⟨.ready code, future⟩ =>
          state.takeTurn id future (program.turn code)
      | _ => none
  | .resume id content =>
      match state.tasks[id]? with
      | some ⟨.awaiting key resume, future⟩ =>
          if state.delivered.contains (key, content) then
            some (state.setTask id ⟨.ready (resume content), future⟩)
          else none
      | _ => none
  | .settle id =>
      match state.tasks[id]? with
      | some ⟨.ended outcome, future⟩ =>
          some (state.setTask id ⟨.ended outcome, future.settle (.finished outcome)⟩)
      | _ => none
  | .cancel id =>
      match state.tasks[id]? with
      | some ⟨.ready _, future⟩ | some ⟨.awaiting _ _, future⟩ =>
          if future.state = .cancelled then
            some (state.setTask id ⟨.ended (.error cancelledError), future⟩)
          else none
      | _ => none
  | _ => none

/-- The native call of a blocked task returns. -/
def returnStep (id : TaskId) : LoopLabel Name → Option (LoopState Name Code)
  | .joined =>
      match state.tasks[id]? with
      | some ⟨.stopping endpoint next, future⟩ =>
          if state.threads[endpoint]?.map (·.phase) = some .exited then
            some { state.setTask id ⟨.ready next, future⟩ with blocked := none }
          else none
      | _ => none
  | .answered content =>
      match state.tasks[id]? with
      | some ⟨.requesting key resume, future⟩ =>
          if state.delivered.contains (key, content) then
            some { state.setTask id ⟨.ready (resume content), future⟩ with blocked := none }
          else none
      | _ => none
  | _ => none

def step (label : LoopLabel Name) : Option (LoopState Name Code) :=
  match label with
  | .receive endpoint message =>
      state.threads[endpoint]?.map fun thread =>
        state.setThread endpoint { thread with inbox := thread.inbox ++ [message] }
  | .io endpoint action =>
      state.threads[endpoint]?.bind fun thread => state.act program endpoint thread action
  | .halt endpoint =>
      state.threads[endpoint]?.map fun thread =>
        state.setThread endpoint { thread with stopping := true }
  | label =>
      match state.blocked with
      | none => state.loopStep program label
      | some id => state.returnStep id label

end LoopState

/-- The loop's thread and the I/O threads of its endpoints. -/
def loopThread {Name Code : Type} (program : LoopProgram Name Code) :
    System (LoopState Name Code) (LoopLabel Name) where
  initial :=
    { threads := List.replicate program.endpoints {}
      tasks := program.mains.map fun code => ⟨.ready code, {}⟩ }
  step := LoopState.step program

/-- A program that leaves its `async with` on an endpoint or calls `sync_request()` on it,
whose request handler awaits a response of the peer. -/
def leavingProgram : LoopProgram Unit Nat where
  loop := 1
  resultTimeout := ⟨5, "5.0"⟩
  registration _ := .onRequest
  entry _ := some 2
  turn
    | 0 => .stop 0 3
    | 1 => .syncRequest 7 fun _ => 3
    | 2 => .awaitResponse 7 fun _ => 3
    | _ => .finish (.ok .none)
  endpoints := 1
  mains := [0, 1]

/-- Its state after a request came in and the first of its coroutines took its turn. -/
def leavingState : LoopState Unit Nat where
  threads := [{ phase := .polling ⟨2, 5⟩, stopping := true }]
  tasks := [⟨.stopping 0 3, {}⟩, ⟨.ready 1, {}⟩, ⟨.ready 2, {}⟩]
  blocked := some 0

theorem reached_leavingState : (loopThread leavingProgram).Reached System.Free leavingState := by
  have ran : (loopThread leavingProgram).run System.Free (loopThread leavingProgram).initial
      [.receive 0 (.invoke ()), .io 0 (.deliver 0), .turn 0] = some leavingState := by
    have waits : (leavingProgram.wrapper ()).waits = true := rfl
    simp [System.run, loopThread, LoopState.step, LoopState.act, LoopState.deliver,
      LoopState.loopStep, LoopState.takeTurn, LoopState.setThread, LoopState.setTask,
      Turn.activity, leavingState, waits]
    simp [leavingProgram]
  exact System.along_of_run ran

end ObscuraProto
