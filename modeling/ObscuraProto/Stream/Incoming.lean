import Mathlib.Data.List.Nodup
import ObscuraProto.Dispatcher.Invocation
import ObscuraProto.Library.Transition

/-!
# Handlers of incoming stream events

The I/O thread delivers the events of a stream in wire order through the
fire-and-forget wrapper.  A synchronous handler runs at once on that thread; the
coroutine of an async one is queued on the event loop and begins when the loop comes
to it.
-/

namespace ObscuraProto

open Transition

inductive StreamEvent where
  | data (chunk : Bytes)
  | finished
  | cancelled
  deriving DecidableEq

inductive HandlerForm where
  | sync | async
  deriving DecidableEq

/-- A stream with an attached dispatcher and loop, the functions registered by
`on_data`, `on_end` and `on_cancel`, and the events on the wire.  `result` is what the
body run for an event ends with. -/
structure IncomingStream where
  loop : LoopId
  onData : HandlerForm
  onEnd : HandlerForm
  onCancel : HandlerForm
  events : List StreamEvent
  result : Nat → Except PyExc PyValue
  reactions : Reactions

/-- An entry of the loop's ready queue. -/
inductive LoopItem where
  /-- The callback of `run_coroutine_threadsafe`, which makes a task of a coroutine. -/
  | create (coroutine : Coroutine)
  /-- The first step of a task, which begins the coroutine's body. -/
  | start (coroutine : Coroutine)
  | other
  deriving DecidableEq

structure IncomingState where
  world : World
  delivered : Nat := 0
  ready : List LoopItem := []
  /-- The events whose handler bodies have begun, in that order. -/
  begun : List Nat := []
  deriving DecidableEq

inductive IncomingLabel where
  /-- The I/O thread makes the native call for the next event. -/
  | deliver
  /-- The loop runs the head of its ready queue. -/
  | runReady
  /-- Something else is put on the ready queue. -/
  | submitOther
  | setErrorHandler (handler : Option HandlerId)

namespace IncomingStream

variable (stream : IncomingStream)

def form : StreamEvent → HandlerForm
  | .data _ => stream.onData
  | .finished => stream.onEnd
  | .cancelled => stream.onCancel

/-- The form of the handler of the event at a position on the wire. -/
def formAt (event : Nat) : Option HandlerForm :=
  stream.events[event]?.map stream.form

def isAsync (event : Nat) : Bool :=
  stream.formAt event == some .async

/-- What `dispatcher.wrap_fire_and_forget` made of a handler. -/
def wrapper : Wrapper :=
  (Dispatcher.wrapFireAndForget none { loop := some stream.loop }).2

/-- Calling the handler of an event: a synchronous one runs its body, an async one makes
a coroutine. -/
def handler (event : Nat) : HandlerForm → Behaviour
  | .sync =>
      match stream.result event with
      | .ok value => .returns value
      | .error e => .raises e
  | .async => .returnsCoroutine ⟨event, stream.result event, true⟩

def step (state : IncomingState) : IncomingLabel → Option IncomingState
  | .deliver =>
      match stream.formAt state.delivered with
      | some form =>
          let world := ((stream.wrapper.invoke stream.reactions.handlers
            (stream.handler state.delivered form).callback).exec state.world).2
          let submitted := world.scheduled.drop state.world.scheduled.length
          some
            { world
              delivered := state.delivered + 1
              ready := state.ready ++ submitted.map fun entry => .create entry.2
              begun := match form with
                | .sync => state.begun ++ [state.delivered]
                | .async => state.begun }
      | none => none
  | .runReady =>
      match state.ready with
      | .create coroutine :: ready => some { state with ready := ready ++ [.start coroutine] }
      | .start coroutine :: ready =>
          some { state with ready, begun := state.begun ++ [coroutine.id] }
      | .other :: ready => some { state with ready }
      | [] => none
  | .submitOther => some { state with ready := state.ready ++ [.other] }
  | .setErrorHandler handler =>
      some { state with world :=
        { state.world with dispatcher := state.world.dispatcher.setErrorHandler handler } }

end IncomingStream

/-- The deliveries of a stream beside its event loop. -/
def incomingEvents (stream : IncomingStream) : System IncomingState IncomingLabel where
  initial := { world := { dispatcher := { loop := some stream.loop } } }
  step := stream.step

/-! ## What a step does -/

namespace LoopItem

/-- The coroutine about to begin. -/
def starting : LoopItem → Option Nat
  | start coroutine => some coroutine.id
  | create _ | other => none

/-- The coroutine about to become a task. -/
def creating : LoopItem → Option Nat
  | create coroutine => some coroutine.id
  | start _ | other => none

end LoopItem

namespace IncomingState

/-- The events whose coroutines are queued, in the order in which they will begin: the
tasks there are begin before those that are still to be made. -/
def queued (state : IncomingState) : List Nat :=
  state.ready.filterMap LoopItem.starting ++ state.ready.filterMap LoopItem.creating

end IncomingState

namespace IncomingStream

variable (stream : IncomingStream)

/-- A wrapper call submits the coroutine of an async handler and nothing else. -/
theorem scheduled_invoke (event : Nat) (form : HandlerForm) (world : World) :
    ((stream.wrapper.invoke stream.reactions.handlers
        (stream.handler event form).callback).exec world).2.scheduled =
      world.scheduled ++
        match form with
        | .sync => []
        | .async => [(stream.loop, ⟨event, stream.result event, true⟩)] := by
  have wraps : stream.wrapper = .fireAndForget stream.loop := rfl
  rw [wraps]
  cases form with
  | async =>
      cases set : world.dispatcher.errorHandler <;>
        simp [handler, Behaviour.callback, Wrapper.invoke, wrapAsyncFireAndForget,
          runCoroutineThreadsafe, set, Except.map]
  | sync =>
      cases ends : stream.result event with
      | ok value =>
          simp [handler, ends, Behaviour.callback, Wrapper.invoke, wrapAsyncFireAndForget]
      | error e =>
          cases set : world.dispatcher.errorHandler <;>
            simp [handler, ends, Behaviour.callback, Wrapper.invoke, wrapAsyncFireAndForget,
              forwarded, set]

/-- A delivery begins a synchronous body or queues a coroutine. -/
theorem step_deliver {state next : IncomingState}
    (taken : stream.step state .deliver = some next) :
    next.delivered = state.delivered + 1 ∧
      (stream.isAsync state.delivered = false ∧ next.ready = state.ready ∧
          next.begun = state.begun ++ [state.delivered] ∨
        stream.isAsync state.delivered = true ∧ next.begun = state.begun ∧
          next.ready = state.ready ++
            [.create ⟨state.delivered, stream.result state.delivered, true⟩]) := by
  simp only [step] at taken
  split at taken
  · next form here =>
      rw [scheduled_invoke, List.drop_left] at taken
      cases taken
      refine ⟨rfl, ?_⟩
      cases form with
      | sync => exact .inl ⟨by simp [isAsync, here], by simp, rfl⟩
      | async => exact .inr ⟨by simp [isAsync, here], rfl, by simp⟩
  · cases taken

end IncomingStream

/-! ## The order in which bodies begin -/

/-- Handler bodies and queued coroutines over the events delivered so far. -/
structure IncomingState.Ordered (stream : IncomingStream) (state : IncomingState) : Prop where
  /-- Async bodies have begun, or will, in wire order. -/
  async : state.begun.filter stream.isAsync ++ state.queued =
    (List.range state.delivered).filter stream.isAsync
  /-- Synchronous bodies have all begun in wire order. -/
  sync : (state.begun.filter fun event => !stream.isAsync event) =
    (List.range state.delivered).filter fun event => !stream.isAsync event
  /-- Only a synchronous body begins before that of an earlier event, an async one. -/
  overtaken : state.begun.Pairwise fun first second => second < first →
    stream.isAsync second = true ∧ stream.isAsync first = false

namespace IncomingState.Ordered

variable {stream : IncomingStream} {state next : IncomingState}

theorem lt_delivered (ordered : state.Ordered stream) {event : Nat} (begun : event ∈ state.begun) :
    event < state.delivered := by
  cases form : stream.isAsync event with
  | true =>
      have member : event ∈ (List.range state.delivered).filter stream.isAsync := by
        rw [← ordered.async]
        exact List.mem_append_left _ (List.mem_filter.mpr ⟨begun, form⟩)
      exact List.mem_range.mp (List.mem_filter.mp member).1
  | false =>
      have member : event ∈
          (List.range state.delivered).filter fun event => !stream.isAsync event := by
        rw [← ordered.sync]
        exact List.mem_filter.mpr ⟨begun, by simp [form]⟩
      exact List.mem_range.mp (List.mem_filter.mp member).1

/-- Async bodies that have begun come before those that are queued. -/
theorem begun_lt_queued (ordered : state.Ordered stream) {first second : Nat}
    (begun : first ∈ state.begun) (async : stream.isAsync first = true)
    (queued : second ∈ state.queued) : first < second := by
  have sorted : ((List.range state.delivered).filter stream.isAsync).Pairwise (· < ·) :=
    List.pairwise_lt_range.filter _
  rw [← ordered.async, List.pairwise_append] at sorted
  exact sorted.2.2 first (List.mem_filter.mpr ⟨begun, async⟩) second queued

theorem isAsync_of_queued (ordered : state.Ordered stream) {event : Nat}
    (queued : event ∈ state.queued) : stream.isAsync event = true := by
  have member : event ∈ (List.range state.delivered).filter stream.isAsync := by
    rw [← ordered.async]
    exact List.mem_append_right _ queued
  exact (List.mem_filter.mp member).2

/-- What the loop does without beginning a body keeps the order. -/
theorem of_queued_eq (ordered : state.Ordered stream) (delivered : next.delivered = state.delivered)
    (begun : next.begun = state.begun) (queued : next.queued = state.queued) :
    next.Ordered stream where
  async := by rw [begun, queued, delivered, ordered.async]
  sync := by rw [begun, delivered, ordered.sync]
  overtaken := by rw [begun]; exact ordered.overtaken

theorem deliver (ordered : state.Ordered stream)
    (taken : stream.step state .deliver = some next) : next.Ordered stream := by
  obtain ⟨delivered, ⟨sync, ready, begun⟩ | ⟨async, begun, ready⟩⟩ := stream.step_deliver taken
  · have queued : next.queued = state.queued := by rw [queued, queued, ready]
    constructor
    · rw [begun, queued, delivered, List.filter_append, List.range_succ, List.filter_append,
        ← ordered.async]
      simp [sync]
    · rw [begun, delivered, List.filter_append, List.range_succ, List.filter_append,
        ← ordered.sync]
    · rw [begun, List.pairwise_append]
      refine ⟨ordered.overtaken, List.pairwise_singleton _ _, ?_⟩
      intro first member second last earlier
      rw [List.mem_singleton] at last
      have before := ordered.lt_delivered member
      omega
  · have queued : next.queued = state.queued ++ [state.delivered] := by
      simp [queued, queued, ready, LoopItem.starting, LoopItem.creating]
    constructor
    · rw [begun, queued, delivered, List.range_succ, List.filter_append, ← ordered.async]
      simp [async]
    · rw [begun, delivered, List.range_succ, List.filter_append, ← ordered.sync]
      simp [async]
    · rw [begun]
      exact ordered.overtaken

theorem runReady (ordered : state.Ordered stream)
    (taken : stream.step state .runReady = some next) : next.Ordered stream := by
  simp only [IncomingStream.step] at taken
  split at taken
  · next coroutine ready shape =>
      cases taken
      refine ordered.of_queued_eq rfl rfl ?_
      simp [queued, shape, List.filterMap_cons, LoopItem.starting, LoopItem.creating]
  · next coroutine ready shape =>
      cases taken
      have head : state.queued = coroutine.id ::
          (ready.filterMap LoopItem.starting ++ ready.filterMap LoopItem.creating) := by
        simp [queued, shape, List.filterMap_cons, LoopItem.starting, LoopItem.creating]
      have member : coroutine.id ∈ state.queued := by simp [head]
      have async := ordered.isAsync_of_queued member
      constructor
      · rw [← ordered.async, head, List.filter_append]
        simp [async, queued]
      · rw [← ordered.sync, List.filter_append]
        simp [async]
      · rw [List.pairwise_append]
        refine ⟨ordered.overtaken, List.pairwise_singleton _ _, ?_⟩
        intro first begun second last earlier
        rw [List.mem_singleton] at last
        refine ⟨last ▸ async, ?_⟩
        by_contra firstAsync
        have inOrder := ordered.begun_lt_queued begun (by simpa using firstAsync) member
        omega
  · next ready shape =>
      cases taken
      refine ordered.of_queued_eq rfl rfl ?_
      simp [queued, shape, List.filterMap_cons, LoopItem.starting, LoopItem.creating]
  · cases taken

theorem step {label : IncomingLabel} (ordered : state.Ordered stream)
    (taken : stream.step state label = some next) : next.Ordered stream := by
  cases label with
  | deliver => exact ordered.deliver taken
  | runReady => exact ordered.runReady taken
  | submitOther =>
      cases taken
      refine ordered.of_queued_eq rfl rfl ?_
      simp [queued, List.filterMap_cons, LoopItem.starting, LoopItem.creating]
  | setErrorHandler handler =>
      cases taken
      exact ordered.of_queued_eq rfl rfl rfl

theorem initial : (incomingEvents stream).initial.Ordered stream :=
  ⟨rfl, rfl, List.Pairwise.nil⟩

theorem of_reached (reached : (incomingEvents stream).Reached System.Free state) :
    state.Ordered stream := by
  apply reached.invariant (Ordered stream)
  · exact initial
  · intro state label next ordered _ taken
    exact ordered.step taken

/-- No body begins twice. -/
theorem nodup (ordered : state.Ordered stream) : state.begun.Nodup := by
  have async : (state.begun.filter stream.isAsync).Nodup := by
    have all : ((List.range state.delivered).filter stream.isAsync).Nodup :=
      List.nodup_range.filter _
    rw [← ordered.async] at all
    exact all.of_append_left
  have sync : (state.begun.filter fun event => !stream.isAsync event).Nodup := by
    rw [ordered.sync]
    exact List.nodup_range.filter _
  rw [List.nodup_iff_count_le_one] at async sync ⊢
  intro event
  cases form : stream.isAsync event with
  | true =>
      rw [← List.count_filter form]
      exact async event
  | false =>
      have kept : (!stream.isAsync event) = true := by simp [form]
      rw [← List.count_filter (p := fun event => !stream.isAsync event) kept]
      exact sync event

/-- An earlier event has begun too, unless it is async and the later one is not. -/
theorem begun_of_later (ordered : state.Ordered stream) {earlier later : Nat}
    (before : earlier < later) (begun : later ∈ state.begun)
    (kept : ¬(stream.isAsync earlier = true ∧ stream.isAsync later = false)) :
    earlier ∈ state.begun := by
  have delivered : earlier ∈ List.range state.delivered := by
    have later := ordered.lt_delivered begun
    rw [List.mem_range]
    omega
  cases form : stream.isAsync earlier with
  | false =>
      have member : earlier ∈ state.begun.filter fun event => !stream.isAsync event := by
        rw [ordered.sync]
        exact List.mem_filter.mpr ⟨delivered, by simp [form]⟩
      exact (List.mem_filter.mp member).1
  | true =>
      have laterAsync : stream.isAsync later = true := by
        simpa [form] using kept
      have member : earlier ∈ state.begun.filter stream.isAsync ++ state.queued := by
        rw [ordered.async]
        exact List.mem_filter.mpr ⟨delivered, form⟩
      rcases List.mem_append.mp member with here | queued
      · exact (List.mem_filter.mp here).1
      · have after := ordered.begun_lt_queued begun laterAsync queued
        omega

/-- When all events are delivered and the loop is idle, all bodies have begun. -/
theorem begun_of_idle (ordered : state.Ordered stream) (idle : state.ready = []) {event : Nat}
    (delivered : event < state.delivered) : event ∈ state.begun := by
  have member := List.mem_range.mpr delivered
  have noneQueued : state.queued = [] := by rw [queued, idle]; rfl
  have async := ordered.async
  rw [noneQueued, List.append_nil] at async
  cases form : stream.isAsync event with
  | true =>
      have here : event ∈ state.begun.filter stream.isAsync := by
        rw [async]
        exact List.mem_filter.mpr ⟨member, form⟩
      exact (List.mem_filter.mp here).1
  | false =>
      have here : event ∈ state.begun.filter fun event => !stream.isAsync event := by
        rw [ordered.sync]
        exact List.mem_filter.mpr ⟨member, by simp [form]⟩
      exact (List.mem_filter.mp here).1

end IncomingState.Ordered

namespace IncomingState

/-- The body for one event began before the body for another. -/
def BeganBefore (state : IncomingState) (first second : Nat) : Prop :=
  ∃ front back, state.begun = front ++ second :: back ∧ first ∈ front

/-- Bodies begin once each, and in wire order as far as `ordered` asks for it. -/
structure BeginInOrder (stream : IncomingStream) (ordered : Nat → Nat → Prop)
    (state : IncomingState) : Prop where
  once : state.begun.Nodup
  inOrder : ∀ earlier later, earlier < later → later ∈ state.begun → ordered earlier later →
    state.BeganBefore earlier later
  every : state.delivered = stream.events.length → state.ready = [] →
    ∀ event < stream.events.length, event ∈ state.begun

end IncomingState

/-- Bodies begin in wire order, except that a synchronous handler does not wait for the
coroutine of an earlier async one. -/
theorem incomingEvents_beginInOrder (stream : IncomingStream) (state : IncomingState)
    (reached : (incomingEvents stream).Reached System.Free state) :
    state.BeginInOrder stream fun earlier later =>
      ¬(stream.isAsync earlier = true ∧ stream.isAsync later = false) := by
  have ordered := IncomingState.Ordered.of_reached reached
  constructor
  · exact ordered.nodup
  · intro earlier later before begun kept
    have earlierBegun := ordered.begun_of_later before begun kept
    obtain ⟨front, back, split⟩ := List.append_of_mem begun
    refine ⟨front, back, split, ?_⟩
    have overtaken := ordered.overtaken
    rw [split, List.pairwise_append, List.pairwise_cons] at overtaken
    rw [split, List.mem_append, List.mem_cons] at earlierBegun
    rcases earlierBegun with inFront | same | inBack
    · exact inFront
    · omega
    · exact absurd (overtaken.2.1.1 earlier inBack before) kept
  · intro delivered idle event known
    exact ordered.begun_of_idle idle (delivered ▸ known)

/-- An async `on_data` and a synchronous `on_end`. -/
def echoStream : IncomingStream where
  loop := 1
  onData := .async
  onEnd := .sync
  onCancel := .sync
  events := [.data [104], .finished]
  result _ := .ok .none
  reactions _ _ := .ok ()

/-- Two chunks, both with async handlers, then the loop runs. -/
theorem incomingEvents_beginInOrder_chunks :
    IncomingState.BeginInOrder { echoStream with events := [.data [104], .data [105]] }
      (fun earlier later =>
        ¬(IncomingStream.isAsync { echoStream with events := [.data [104], .data [105]] }
            earlier = true ∧
          IncomingStream.isAsync { echoStream with events := [.data [104], .data [105]] }
            later = false))
      { world :=
          { dispatcher := { loop := some 1 }
            scheduled := [(1, ⟨0, .ok .none, true⟩), (1, ⟨1, .ok .none, true⟩)] }
        delivered := 2
        ready := []
        begun := [0, 1] } := by
  have ran : (incomingEvents { echoStream with events := [.data [104], .data [105]] }).run
      System.Free (incomingEvents { echoStream with events := [.data [104], .data [105]] }).initial
      [.deliver, .deliver, .runReady, .runReady, .runReady, .runReady] = some _ := rfl
  exact incomingEvents_beginInOrder _ _ (System.along_of_run ran)

/-- The body of `on_end` begins before that of `on_data`. -/
theorem incomingEvents_end_before_data :
    ¬ ∀ (stream : IncomingStream) (state : IncomingState),
      (incomingEvents stream).Reached System.Free state →
        state.BeginInOrder stream fun _ _ => True := by
  intro every
  have ran : (incomingEvents echoStream).run System.Free (incomingEvents echoStream).initial
      [.deliver, .deliver] = some _ := rfl
  obtain ⟨front, back, split, inFront⟩ :=
    (every echoStream _ (System.along_of_run ran)).inOrder 0 1 (by decide) (by decide) trivial
  have begun : [1] = front ++ 1 :: back := split
  cases front with
  | nil => cases inFront
  | cons first front => simp at begun

end ObscuraProto
