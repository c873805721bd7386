import Mathlib.Logic.Relation
import ObscuraProto.Dispatcher.Configuration
import ObscuraProto.Library.Processes
import ObscuraProto.Library.Transition

/-!
# The I/O thread of an endpoint

One thread delivers the incoming messages of an endpoint, one at a time, and runs
each wrapped callback to completion.  Under a wrapper that waits, completion
includes the coroutine of the handler, which runs on the event loop.
-/

namespace ObscuraProto

open Transition Processes

/-- What the native side waits for in a coroutine: the response to a request, or an
event of a stream. -/
abbrev PeerKey := Nat

abbrev TaskId := Nat

/-- The next thing an async handler does. -/
inductive Progress (Code : Type) where
  | finish
  /-- An await that needs nothing from the peer. -/
  | pause (next : Code)
  | awaitPeer (key : PeerKey) (resume : Payload → Code)

/-- An endpoint with an attached running loop, its async handlers and their code. -/
structure Endpoint (Name Code : Type) where
  loop : LoopId
  registration : Name → Registration
  entry : Name → Code
  code : Code → Progress Code

/-- The calling thread stays in the wrapper until the coroutine is done. -/
def Wrapper.waits : Wrapper → Bool
  | sync | fireAndForget _ => false
  | withResult .. | identity .. => true

namespace Endpoint

variable {Name Code : Type} (endpoint : Endpoint Name Code)

/-- The callback registered for a handler. -/
def wrapper (name : Name) : Wrapper :=
  ((endpoint.registration name).wrap (some endpoint.loop) { loop := some endpoint.loop }).2

/-- One local step of a handler. -/
def Pauses (code next : Code) : Prop :=
  endpoint.code code = .pause next

/-- The handler can come to a point where it awaits a message of the peer. -/
def AwaitsPeer (name : Name) : Prop :=
  ∃ code key resume, Relation.ReflTransGen endpoint.Pauses (endpoint.entry name) code ∧
    endpoint.code code = .awaitPeer key resume

end Endpoint

inductive Message (Name : Type) where
  /-- A payload, request or stream for a handler. -/
  | invoke (name : Name)
  /-- A response or a stream event. -/
  | answer (key : PeerKey) (content : Payload)

/-- A coroutine on the event loop. -/
inductive TaskState (Code : Type) where
  | running (code : Code)
  | awaiting (key : PeerKey) (resume : Payload → Code)
  | done
  /-- `CancelledError` came while the task awaited a message of the peer, or none. -/
  | cancelled (awaited : Option PeerKey)

structure HandlerTask (Name Code : Type) where
  handler : Name
  state : TaskState Code
  /-- The I/O thread has given up waiting and cancelled the future. -/
  abandoned : Bool := false

structure IoState (Name Code : Type) where
  /-- Received messages the I/O thread has not delivered yet. -/
  inbox : List (Message Name) := []
  /-- The task the I/O thread waits for in `_wait_future_with_polling`. -/
  polling : Option TaskId := none
  tasks : List (HandlerTask Name Code) := []
  delivered : List (PeerKey × Payload) := []

inductive IoLabel (Name : Type) where
  | receive (message : Message Name)
  /-- The idle I/O thread delivers the next message. -/
  | deliver
  /-- The loop runs a task up to its next await. -/
  | run (task : TaskId)
  /-- The loop resumes a task whose message has been delivered. -/
  | wake (task : TaskId) (content : Payload)
  /-- The I/O thread sees its task done. -/
  | poll
  /-- The result timeout runs out. -/
  | timeout
  /-- The loop cancels a task whose future was cancelled. -/
  | cancel (task : TaskId)

namespace IoState

variable {Name Code : Type} (endpoint : Endpoint Name Code)

def setTask (state : IoState Name Code) (id : TaskId) (task : HandlerTask Name Code) :
    IoState Name Code :=
  { state with tasks := state.tasks.set id task }

def step (state : IoState Name Code) : IoLabel Name → Option (IoState Name Code)
  | .receive message => some { state with inbox := state.inbox ++ [message] }
  | .deliver =>
      match state.polling, state.inbox with
      | none, .invoke name :: inbox =>
          some
            { state with
              inbox
              tasks := state.tasks ++ [⟨name, .running (endpoint.entry name), false⟩]
              polling := if (endpoint.wrapper name).waits then some state.tasks.length else none }
      | none, .answer key content :: inbox =>
          some { state with inbox, delivered := state.delivered ++ [(key, content)] }
      | _, _ => none
  | .run id =>
      match state.tasks[id]? with
      | some ⟨name, .running code, abandoned⟩ =>
          match endpoint.code code with
          | .finish => some (state.setTask id ⟨name, .done, abandoned⟩)
          | .pause next => some (state.setTask id ⟨name, .running next, abandoned⟩)
          | .awaitPeer key resume =>
              some (state.setTask id ⟨name, .awaiting key resume, abandoned⟩)
      | _ => none
  | .wake id content =>
      match state.tasks[id]? with
      | some ⟨name, .awaiting key resume, abandoned⟩ =>
          if (key, content) ∈ state.delivered then
            some (state.setTask id ⟨name, .running (resume content), abandoned⟩)
          else none
      | _ => none
  | .poll =>
      match state.polling with
      | some id =>
          match state.tasks[id]? with
          | some ⟨_, .done, _⟩ => some { state with polling := none }
          | _ => none
      | none => none
  | .timeout =>
      match state.polling with
      | some id =>
          -- `_abandon_timed_out_future`, wherever the task stands.
          match state.tasks[id]? with
          | some ⟨name, current, _⟩ =>
              some { state.setTask id ⟨name, current, true⟩ with polling := none }
          | none => none
      | none => none
  | .cancel id =>
      match state.tasks[id]? with
      | some ⟨name, .running _, true⟩ => some (state.setTask id ⟨name, .cancelled none, true⟩)
      | some ⟨name, .awaiting key _, true⟩ =>
          some (state.setTask id ⟨name, .cancelled (some key), true⟩)
      | _ => none

/-- The I/O thread polls for a coroutine that awaits a message the I/O thread has
not delivered. -/
def CircularWait (state : IoState Name Code) : Prop :=
  ∃ id name key resume abandoned, state.polling = some id ∧
    state.tasks[id]? = some ⟨name, .awaiting key resume, abandoned⟩ ∧
    ∀ content, (key, content) ∉ state.delivered

end IoState

section Endpoints

variable {Name Code : Type} (endpoint : Endpoint Name Code)

/-- Messages, I/O thread and event loop of an endpoint. -/
def ioThread : System (IoState Name Code) (IoLabel Name) where
  initial := {}
  step := IoState.step endpoint

/-! ## Which registrations wait -/

/-- The registrations that use the fire-and-forget wrapper. -/
def Registration.isFireAndForget : Registration → Bool
  | onPayload | defaultPayloadHandler | onAnonPayload | anonDefaultPayloadHandler
  | onOpen | onClose | onReady | onDisconnect => true
  | _ => false

theorem waits_wrapper (name : Name) :
    (endpoint.wrapper name).waits = !(endpoint.registration name).isFireAndForget := by
  rw [Endpoint.wrapper, Registration.wrap_eq]
  cases endpoint.registration name <;> rfl

namespace IoState

/-- What holds while no waiting handler awaits the peer: the I/O thread polls for or
abandons tasks of waiting handlers only, such tasks come to local steps only, and none is
cancelled in an await of the peer. -/
structure Served (state : IoState Name Code) : Prop where
  polled : ∀ id, state.polling = some id →
    ∃ task, state.tasks[id]? = some task ∧ (endpoint.wrapper task.handler).waits = true
  abandoned : ∀ task ∈ state.tasks, task.abandoned = true →
    (endpoint.wrapper task.handler).waits = true
  stepping : ∀ (id : TaskId) (task : HandlerTask Name Code), state.tasks[id]? = some task →
    (endpoint.wrapper task.handler).waits = true →
      task.state = .done ∨ task.state = .cancelled none ∨
      ∃ code, Relation.ReflTransGen endpoint.Pauses (endpoint.entry task.handler) code ∧
        task.state = .running code
  kept : ∀ task ∈ state.tasks, ∀ key, task.state ≠ .cancelled (some key)

variable {endpoint} {state next : IoState Name Code} {id : TaskId} {name : Name}
  {before after : TaskState Code} {left leaves : Bool}

/-- A step of one task, with the I/O thread where it was or idle again. -/
theorem Served.setTask (served : state.Served endpoint)
    (found : state.tasks[id]? = some ⟨name, before, left⟩)
    (tasks : next.tasks = state.tasks.set id ⟨name, after, leaves⟩)
    (polling : next.polling = state.polling ∨ next.polling = none)
    (abandoned : leaves = true → (endpoint.wrapper name).waits = true)
    (stepping : (endpoint.wrapper name).waits = true →
      after = .done ∨ after = .cancelled none ∨
      ∃ code, Relation.ReflTransGen endpoint.Pauses (endpoint.entry name) code ∧
        after = .running code)
    (kept : ∀ key, after ≠ .cancelled (some key)) : next.Served endpoint where
  polled other polls := by
    have same : next.polling = state.polling := by
      rcases polling with same | idle
      · exact same
      · rw [idle] at polls
        cases polls
    obtain ⟨task, known, waits⟩ := served.polled other (same ▸ polls)
    rw [tasks, getElem?_set_of_found found]
    split
    · next same =>
        rw [same, found] at known
        cases known
        exact ⟨_, rfl, waits⟩
    · exact ⟨task, known, waits⟩
  abandoned task member := by
    rcases List.mem_or_eq_of_mem_set (tasks ▸ member) with known | rfl
    · exact served.abandoned task known
    · exact abandoned
  stepping other task entry waits := by
    rcases of_getElem?_set (tasks ▸ entry) with ⟨rfl, rfl⟩ | ⟨-, known⟩
    · exact stepping waits
    · exact served.stepping other task known waits
  kept task member := by
    rcases List.mem_or_eq_of_mem_set (tasks ▸ member) with known | rfl
    · exact served.kept task known
    · exact kept

/-- Awaiting tasks belong to handlers the I/O thread does not wait for. -/
theorem Served.not_waits_of_awaiting {key : PeerKey} {resume : Payload → Code}
    (served : state.Served endpoint)
    (found : state.tasks[id]? = some ⟨name, .awaiting key resume, left⟩) :
    ¬ (endpoint.wrapper name).waits = true := by
  intro waits
  rcases served.stepping id _ found waits with done | cancelled | ⟨code, -, running⟩
  · cases done
  · cases cancelled
  · cases running

/-- A new task: the I/O thread polls for it when its handler waits. -/
theorem Served.invoke (served : state.Served endpoint)
    (tasks : next.tasks = state.tasks ++ [⟨name, .running (endpoint.entry name), false⟩])
    (polling : next.polling =
      if (endpoint.wrapper name).waits then some state.tasks.length else none) :
    next.Served endpoint where
  polled id polls := by
    rw [polling] at polls
    split at polls
    · next waits =>
        cases polls
        rw [tasks]
        exact ⟨_, List.getElem?_concat_length, waits⟩
    · cases polls
  abandoned task member left := by
    rcases List.mem_append.mp (tasks ▸ member) with known | last
    · exact served.abandoned task known left
    · rw [List.mem_singleton.mp last] at left
      cases left
  stepping id task entry waits := by
    rcases of_getElem?_append (tasks ▸ entry) with known | ⟨-, rfl⟩
    · exact served.stepping id task known waits
    · exact .inr (.inr ⟨_, .refl, rfl⟩)
  kept task member := by
    rcases List.mem_append.mp (tasks ▸ member) with known | last
    · exact served.kept task known
    · rw [List.mem_singleton.mp last]
      intro key cancelled
      cases cancelled

/-- A waiting handler at a local step came there by local steps. -/
theorem Served.pauses_of_running {code : Code} (served : state.Served endpoint)
    (found : state.tasks[id]? = some ⟨name, .running code, left⟩)
    (waits : (endpoint.wrapper name).waits = true) :
    Relation.ReflTransGen endpoint.Pauses (endpoint.entry name) code := by
  rcases served.stepping id _ found waits with done | cancelled | ⟨current, reached, running⟩
  · cases done
  · cases cancelled
  · cases running
    exact reached

/-- The I/O thread's wait for a task has run out. -/
theorem Served.timeout (served : state.Served endpoint) (polls : state.polling = some id)
    (found : state.tasks[id]? = some ⟨name, before, left⟩)
    (tasks : next.tasks = state.tasks.set id ⟨name, before, true⟩)
    (polling : next.polling = none) : next.Served endpoint := by
  obtain ⟨task, known, waits⟩ := served.polled id polls
  rw [found] at known
  cases known
  have member := List.mem_of_getElem? found
  exact served.setTask found tasks (.inr polling) (fun _ => waits)
    (served.stepping id _ found) (served.kept _ member)

/-- Every step keeps the I/O thread free of waits for the peer. -/
theorem Served.step {label : IoLabel Name}
    (noneAwaits : ∀ name, (endpoint.wrapper name).waits = true → ¬ endpoint.AwaitsPeer name)
    (served : state.Served endpoint)
    (stepped : (ioThread endpoint).step state label = some next) : next.Served endpoint := by
  cases label with
  | receive message =>
      cases stepped
      exact ⟨served.polled, served.abandoned, served.stepping, served.kept⟩
  | deliver =>
      simp only [ioThread, IoState.step] at stepped
      split at stepped
      · next name inbox idle queued =>
          cases stepped
          exact served.invoke rfl rfl
      · cases stepped
        exact ⟨served.polled, served.abandoned, served.stepping, served.kept⟩
      · cases stepped
  | run id =>
      simp only [ioThread, IoState.step] at stepped
      split at stepped
      · next name code abandoned found =>
          have reached := served.pauses_of_running found
          have member := List.mem_of_getElem? found
          have left := served.abandoned _ member
          split at stepped
          · cases stepped
            exact served.setTask found rfl (.inl rfl) left (fun _ => .inl rfl) (by simp)
          · next pauses =>
              cases stepped
              exact served.setTask found rfl (.inl rfl) left
                (fun waits => .inr (.inr ⟨_, (reached waits).tail pauses, rfl⟩)) (by simp)
          · next key resume awaits =>
              cases stepped
              exact served.setTask found rfl (.inl rfl) left
                (fun waits => absurd ⟨code, key, resume, reached waits, awaits⟩
                  (noneAwaits name waits)) (by simp)
      · cases stepped
  | wake id content =>
      simp only [ioThread, IoState.step] at stepped
      split at stepped
      · next name key resume abandoned found =>
          split at stepped
          · cases stepped
            exact served.setTask found rfl (.inl rfl)
              (served.abandoned _ (List.mem_of_getElem? found))
              (fun waits => absurd waits (served.not_waits_of_awaiting found)) (by simp)
          · cases stepped
      · cases stepped
  | poll =>
      simp only [ioThread, IoState.step] at stepped
      split at stepped
      · split at stepped
        · cases stepped
          exact ⟨fun id polls => (nomatch polls), served.abandoned, served.stepping,
            served.kept⟩
        · cases stepped
      · cases stepped
  | timeout =>
      simp only [ioThread, IoState.step] at stepped
      split at stepped
      · next id polls =>
          split at stepped
          · next name current left found =>
              cases stepped
              exact served.timeout polls found rfl rfl
          · cases stepped
      · cases stepped
  | cancel id =>
      simp only [ioThread, IoState.step] at stepped
      split at stepped
      · next name code found =>
          cases stepped
          exact served.setTask found rfl (.inl rfl)
            (served.abandoned _ (List.mem_of_getElem? found)) (fun _ => .inr (.inl rfl)) (by simp)
      · next name key resume found =>
          have waits := served.abandoned _ (List.mem_of_getElem? found) rfl
          exact absurd waits (served.not_waits_of_awaiting found)
      · cases stepped

theorem not_circularWait_of_served (served : state.Served endpoint) : ¬ state.CircularWait := by
  intro circular
  rcases circular with ⟨id, name, key, resume, abandoned, polls, found, -⟩
  obtain ⟨task, known, waits⟩ := served.polled id polls
  rw [found] at known
  cases known
  exact served.not_waits_of_awaiting found waits

/-- The state after a waiting handler was invoked first. -/
def invoked (name : Name) (task : TaskState Code) : IoState Name Code :=
  { polling := some 0, tasks := [⟨name, task, false⟩] }

theorem reached_invoked (waits : (endpoint.wrapper name).waits = true) {code : Code}
    (reached : Relation.ReflTransGen endpoint.Pauses (endpoint.entry name) code) :
    (ioThread endpoint).Reached System.Free (invoked name (.running code)) := by
  induction reached with
  | refl =>
      have received : (ioThread endpoint).Reached System.Free
          { inbox := [.invoke name] } :=
        .take .refl (.receive (.invoke name)) trivial rfl
      apply System.Along.take received .deliver trivial
      simp [ioThread, IoState.step, waits, invoked]
  | tail _ pauses ih =>
      apply System.Along.take ih (.run 0) trivial
      simp only [Endpoint.Pauses] at pauses
      simp [ioThread, IoState.step, invoked, pauses, IoState.setTask]

end IoState

open IoState in
/-- No run of an endpoint has its I/O thread wait for itself, or cancels a handler that
awaits the peer, exactly when no handler of a registration that waits can await the
peer. -/
theorem noCircularWait_iff :
    (∀ state, (ioThread endpoint).Reached System.Free state →
        ¬ state.CircularWait ∧
          ∀ task ∈ state.tasks, ∀ key, task.state ≠ .cancelled (some key)) ↔
      ∀ name, (endpoint.registration name).isFireAndForget = false →
        ¬ endpoint.AwaitsPeer name := by
  have waits_iff : ∀ name, (endpoint.wrapper name).waits = true ↔
      (endpoint.registration name).isFireAndForget = false := by
    intro name
    rw [waits_wrapper, Bool.not_eq_true']
  simp only [← waits_iff]
  constructor
  · intro safe name waits awaitsPeer
    rcases awaitsPeer with ⟨code, key, resume, reached, awaits⟩
    have circular : (ioThread endpoint).Reached System.Free
        (invoked name (.awaiting key resume)) := by
      apply System.Along.take (reached_invoked waits reached) (.run 0) trivial
      simp [ioThread, IoState.step, invoked, awaits, IoState.setTask]
    exact (safe _ circular).1 ⟨0, name, key, resume, false, rfl, rfl, by simp [invoked]⟩
  · intro noneAwaits state reached
    have served : state.Served endpoint :=
      reached.invariant (IoState.Served endpoint)
        ⟨fun _ polls => (nomatch polls), fun _ member => (nomatch member),
          fun _ _ entry => (nomatch entry), fun _ member => (nomatch member)⟩
        fun _ _ _ served _ stepped => served.step noneAwaits stepped
    exact ⟨not_circularWait_of_served served, served.kept⟩

end Endpoints

/-- A request handler that awaits a request of its own blocks the I/O thread that
would deliver the response. -/
theorem onRequest_circularWait :
    ¬ ∀ (Name Code : Type) (endpoint : Endpoint Name Code) (state : IoState Name Code),
      (ioThread endpoint).Reached System.Free state → ¬ state.CircularWait := by
  intro never
  let endpoint : Endpoint Unit Bool :=
    { loop := 1
      registration := fun _ => .onRequest
      entry := fun _ => true
      code := fun code => if code then .awaitPeer 7 fun _ => false else .finish }
  let blocked : IoState Unit Bool :=
    { polling := some 0, tasks := [⟨(), .awaiting 7 fun _ => false, false⟩] }
  have ran : (ioThread endpoint).run System.Free (ioThread endpoint).initial
      [.receive (.invoke ()), .deliver, .run 0] = some blocked := rfl
  exact never Unit Bool endpoint blocked (System.along_of_run ran)
    ⟨0, (), 7, fun _ => false, false, rfl, rfl, by simp [blocked]⟩

end ObscuraProto
