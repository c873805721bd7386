import Mathlib.Data.List.Sort
import ObscuraProto.Stream.Cancellation
import ObscuraProto.Stream.Incoming

/-!
# A stream from end to end

The operations of one endpoint, the connection and the handlers of the other.  A
running native call hands its event to the connection or fails; what is handed over
reaches the handlers in that order.
-/

namespace ObscuraProto

open Transition Processes

/-- The event that a native call causes at the other end. -/
def StreamCall.event : StreamCall → StreamEvent
  | .write data => .data data
  | .end => .finished
  | .cancel => .cancelled

/-- What `on_data` is given. -/
def StreamEvent.chunk : StreamEvent → Option Bytes
  | .data chunk => some chunk
  | .finished | .cancelled => none

/-- The handlers of a stream with these events on the wire. -/
def IncomingStream.receiving (handlers : IncomingStream) (events : List StreamEvent) :
    IncomingStream :=
  { handlers with events }

structure DeliveryState where
  sender : AwaitedState
  /-- The events handed to the connection, each with its operation. -/
  wire : List (OpId × StreamEvent)
  receiver : IncomingState
  deriving DecidableEq

inductive DeliveryLabel where
  | sender (label : AwaitedLabel)
  /-- The native call of the operation hands its event to the connection. -/
  | transmit (op : OpId)
  | receiver (label : IncomingLabel)

namespace DeliveryState

/-- The events on the wire. -/
def events (state : DeliveryState) : List StreamEvent :=
  state.wire.map Prod.snd

/-- The operations whose events are on the wire. -/
def sent (state : DeliveryState) : List OpId :=
  state.wire.map Prod.fst

def step (stream : StreamId) (handlers : IncomingStream) (state : DeliveryState) :
    DeliveryLabel → Option DeliveryState
  | .sender label => (state.sender.step label).map fun sender => { state with sender }
  | .transmit id =>
      match state.sender.executors.ops[id]? with
      | some ⟨owner, call, .running _⟩ =>
          if owner = stream ∧ id ∈ state.sender.made ∧ id ∉ state.sent then
            some { state with wire := state.wire ++ [(id, call.event)] }
          else none
      | _ => none
  | .receiver label =>
      ((handlers.receiving state.events).step state.receiver label).map fun receiver =>
        { state with receiver }

/-- A condition of the executors, on their steps. -/
def Lifted (allowed : StreamState → StreamLabel → Prop) (state : DeliveryState) :
    DeliveryLabel → Prop
  | .sender label => state.sender.Lifted allowed label
  | .transmit _ | .receiver _ => True

instance (allowed : StreamState → StreamLabel → Prop)
    [∀ state label, Decidable (allowed state label)] (state : DeliveryState) :
    DecidablePred (state.Lifted allowed)
  | .sender label => inferInstanceAs (Decidable (state.sender.Lifted allowed label))
  | .transmit _ | .receiver _ => isTrue trivial

end DeliveryState

/-- One stream: the operations on it among others, and the handlers at its other end. -/
def streamDelivery (stream : StreamId) (handlers : IncomingStream) :
    System DeliveryState DeliveryLabel where
  initial := ⟨awaitedOperations.initial, [], (incomingEvents handlers).initial⟩
  step := DeliveryState.step stream handlers

/-! ## The sending side -/

/-- The stream and the native call of an operation. -/
def StreamState.callOf (state : StreamState) (id : OpId) : Option (StreamId × StreamCall) :=
  state.ops[id]?.map fun op => (op.stream, op.call)

namespace StreamState

variable {state next : StreamState} {id : OpId}

theorem callOf_add {ops : List StreamOp} {called : StreamId × StreamCall} (op : StreamOp)
    (found : (ops[id]?.map fun op => (op.stream, op.call)) = some called) :
    ((ops ++ [op])[id]?.map fun op => (op.stream, op.call)) = some called := by
  obtain ⟨old, here, rfl⟩ := Option.map_eq_some_iff.mp found
  rw [List.getElem?_append_left (List.getElem?_eq_some_iff.mp here).1, here]
  rfl

theorem callOf_set {ops : List StreamOp} {moved : OpId} {op : StreamOp} (stage : Stage)
    (started : ops[moved]? = some op) (id : OpId) :
    ((ops.set moved { op with stage })[id]?.map fun op => (op.stream, op.call)) =
      ops[id]?.map fun op => (op.stream, op.call) := by
  rw [getElem?_set_of_found started]
  split
  · next same => rw [same, started]; rfl
  · rfl

/-- An operation stays what it was when it was started. -/
theorem callOf_of_step {label : StreamLabel} {called : StreamId × StreamCall}
    (taken : streamExecutor.step state label = some next) (found : state.callOf id = some called) :
    next.callOf id = some called := by
  cases streamSteps_of_step taken with
  | startCurrent | startNew => exact callOf_add _ found
  | submit started | fallback started | poolFinish started =>
      exact (callOf_set _ started id).trans found
  | begin found' started | finish found' started | poolBegin found' started =>
      exact (callOf_set _ started id).trans found
  | shutdown | shutdownDone => exact found

end StreamState

namespace DeliveryState

variable {stream : StreamId} {handlers : IncomingStream} {state next : DeliveryState} {id : OpId}

/-- What is on the wire. -/
structure Wired (stream : StreamId) (state : DeliveryState) : Prop where
  called : ∀ entry ∈ state.wire, ∃ call, entry.2 = StreamCall.event call ∧
    state.sender.executors.callOf entry.1 = some (stream, call)
  made : ∀ id ∈ state.sent, id ∈ state.sender.made
  inOrder : state.sent.Pairwise (· < ·)

theorem Wired.streamOf (wired : state.Wired stream) (sent : id ∈ state.sent) :
    state.sender.executors.streamOf id = some stream := by
  obtain ⟨entry, member, rfl⟩ := List.mem_map.mp sent
  obtain ⟨call, -, found⟩ := wired.called entry member
  obtain ⟨op, here, same⟩ := Option.map_eq_some_iff.mp found
  rw [StreamState.streamOf, here]
  exact congrArg some (congrArg Prod.fst same)

theorem Wired.sender (wired : state.Wired stream) {label : AwaitedLabel} {sender : AwaitedState}
    (taken : awaitedOperations.step state.sender label = some sender) :
    Wired stream { state with sender } := by
  refine ⟨fun entry member => ?_, fun id sent => ?_, wired.inOrder⟩
  · obtain ⟨call, event, found⟩ := wired.called entry member
    refine ⟨call, event, ?_⟩
    cases AwaitedState.steps_of_step taken with
    | executor stepped => exact StreamState.callOf_of_step stepped found
    | cancel | withdraw | tooLate | resume => exact found
  · have along : awaitedOperations.Along System.Free state.sender sender :=
      .step .refl trivial taken
    exact (AwaitedState.grows_of_along along).1.subset (wired.made id sent)

/-- An operation that runs comes after those of its stream that are on the wire. -/
theorem Wired.transmit (wired : state.Wired stream) {op : StreamOp} {place : Place}
    (ordered : state.sender.executors.InStartOrder)
    (begun : ∀ id ∈ state.sender.made, id ∈ state.sender.executors.begun)
    (started : state.sender.executors.ops[id]? = some op) (owner : op.stream = stream)
    (running : op.stage = .running place) (made : id ∈ state.sender.made)
    (unsent : id ∉ state.sent) :
    Wired stream { state with wire := state.wire ++ [(id, op.call.event)] } := by
  have sent_append : sent { state with wire := state.wire ++ [(id, op.call.event)] } =
      state.sent ++ [id] := by
    simp [sent]
  refine ⟨fun entry member => ?_, fun other sent => ?_, ?_⟩
  · rcases List.mem_append.mp member with earlier | last
    · exact wired.called entry earlier
    · rw [List.mem_singleton.mp last]
      exact ⟨op.call, rfl, by simp [StreamState.callOf, started, owner]⟩
  · rw [sent_append] at sent
    rcases List.mem_append.mp sent with earlier | last
    · exact wired.made other earlier
    · exact List.mem_singleton.mp last ▸ made
  · rw [sent_append, List.pairwise_append]
    refine ⟨wired.inOrder, List.pairwise_singleton _ _, fun other sent last isLast => ?_⟩
    rw [List.mem_singleton.mp isLast]
    rcases Nat.lt_trichotomy other id with earlier | rfl | later
    · exact earlier
    · exact absurd sent unsent
    · have same : state.sender.executors.SameStream id other := by
        rw [StreamState.SameStream, wired.streamOf sent, StreamState.streamOf, started, ← owner]
        rfl
      have finished := ordered.1 id other later same (begun other (wired.made other sent))
      rw [StreamState.stageOf_of_found started, running] at finished
      cases finished

/-- What a step does with the operations, the wire and the handlers. -/
inductive Steps (stream : StreamId) (handlers : IncomingStream) (state : DeliveryState) :
    DeliveryLabel → DeliveryState → Prop
  | sender {label : AwaitedLabel} {sender : AwaitedState}
      (taken : awaitedOperations.step state.sender label = some sender) :
      Steps stream handlers state (.sender label) { state with sender }
  | transmit {id : OpId} {op : StreamOp} {place : Place}
      (started : state.sender.executors.ops[id]? = some op) (owner : op.stream = stream)
      (running : op.stage = .running place) (made : id ∈ state.sender.made)
      (unsent : id ∉ state.sent) :
      Steps stream handlers state (.transmit id)
        { state with wire := state.wire ++ [(id, op.call.event)] }
  | receiver {label : IncomingLabel} {receiver : IncomingState}
      (taken : (handlers.receiving state.events).step state.receiver label = some receiver) :
      Steps stream handlers state (.receiver label) { state with receiver }

theorem steps_of_step {label : DeliveryLabel}
    (taken : (streamDelivery stream handlers).step state label = some next) :
    Steps stream handlers state label next := by
  cases label with
  | sender label =>
      obtain ⟨sender, stepped, rfl⟩ := Option.map_eq_some_iff.mp taken
      exact .sender stepped
  | transmit id =>
      simp only [streamDelivery, DeliveryState.step] at taken
      split at taken
      · next started =>
          simp only [Option.ite_none_right_eq_some, Option.some.injEq] at taken
          obtain ⟨⟨owner, made, unsent⟩, rfl⟩ := taken
          exact .transmit started owner rfl made unsent
      · cases taken
  | receiver label =>
      obtain ⟨receiver, stepped, rfl⟩ := Option.map_eq_some_iff.mp taken
      exact .receiver stepped

/-- The operations go through a run of their own. -/
theorem sender_of_reached {allowed : StreamState → StreamLabel → Prop}
    (reached : (streamDelivery stream handlers).Reached (Lifted allowed) state) :
    awaitedOperations.Reached (AwaitedState.Lifted allowed) state.sender := by
  apply reached.through DeliveryState.sender
  intro state label next permitted taken
  cases steps_of_step taken with
  | sender stepped => exact .step .refl permitted stepped
  | transmit | receiver => exact .refl

theorem wired_of_reached
    (reached : (streamDelivery stream handlers).Reached (Lifted StreamState.Orderly) state) :
    state.Wired stream := by
  apply reached.invariant_of (Wired stream) (fun _ => sender_of_reached)
  · exact ⟨nofun, nofun, .nil⟩
  · intro state label next known wired _ taken
    cases steps_of_step taken with
    | sender stepped => exact wired.sender stepped
    | transmit started owner running made unsent =>
        have executors := AwaitedState.executors_of_along known
        refine wired.transmit ?_ ?_ started owner running made unsent
        · exact (StreamState.inTurn_of_reached executors).inStartOrder
            (StreamState.placed_of_reached executors)
        · intro id made
          rw [(AwaitedState.accounted_of_reached known).made] at made
          exact List.mem_of_mem_filter made
    | receiver => exact ⟨wired.called, wired.made, wired.inOrder⟩

end DeliveryState

/-! ## The receiving side -/

namespace IncomingStream

variable {handlers : IncomingStream} {events more : List StreamEvent}

/-- What was possible stays so when more events follow. -/
theorem step_receiving_append {state next : IncomingState} {label : IncomingLabel}
    (taken : (handlers.receiving events).step state label = some next) :
    (handlers.receiving (events ++ more)).step state label = some next := by
  cases label with
  | deliver =>
      simp only [step] at taken ⊢
      split at taken
      · next form here =>
          have there : (handlers.receiving (events ++ more)).formAt state.delivered =
              some form := by
            obtain ⟨event, found, same⟩ := Option.map_eq_some_iff.mp here
            simp only [formAt, receiving] at found ⊢
            rw [List.getElem?_append_left (List.getElem?_eq_some_iff.mp found).1, found]
            exact congrArg some same
          rw [there]
          exact taken
      · cases taken
  | runReady | submitOther | setErrorHandler => exact taken

/-- The events delivered are events on the wire. -/
theorem delivered_le {stream : IncomingStream} {state : IncomingState}
    (reached : (incomingEvents stream).Reached System.Free state) :
    state.delivered ≤ stream.events.length := by
  apply reached.invariant fun state => state.delivered ≤ stream.events.length
  · exact Nat.zero_le _
  · intro state label next bounded _ taken
    cases label with
    | deliver =>
        obtain ⟨delivered, -⟩ := stream.step_deliver taken
        simp only [incomingEvents, step, formAt] at taken
        split at taken
        · next here =>
            obtain ⟨event, found, -⟩ := Option.map_eq_some_iff.mp here
            rw [delivered]
            exact (List.getElem?_eq_some_iff.mp found).1
        · cases taken
    | runReady =>
        simp only [incomingEvents, step] at taken
        split at taken <;> cases taken <;> exact bounded
    | submitOther | setErrorHandler => cases taken; exact bounded

/-- The handler of the event at this position has this form. -/
def HasForm (stream : IncomingStream) (form : HandlerForm) (event : Nat) : Bool :=
  stream.formAt event == some form

/-- Bodies of one form begin in wire order. -/
theorem exists_hasForm {stream : IncomingStream} {state : IncomingState}
    (reached : (incomingEvents stream).Reached System.Free state) (form : HandlerForm) :
    ∃ waiting, state.begun.filter (stream.HasForm form) ++ waiting =
        (List.range state.delivered).filter (stream.HasForm form) ∧
      (state.ready = [] → waiting = []) := by
  have ordered := IncomingState.Ordered.of_reached reached
  cases form with
  | async =>
      refine ⟨state.queued, ordered.async, fun idle => ?_⟩
      rw [IncomingState.queued, idle]
      rfl
  | sync =>
      refine ⟨[], ?_, fun _ => rfl⟩
      have isSync : ∀ event < state.delivered,
          stream.HasForm .sync event = !stream.isAsync event := by
        intro event delivered
        have known : event < stream.events.length :=
          Nat.lt_of_lt_of_le delivered (delivered_le reached)
        simp only [HasForm, isAsync, formAt, List.getElem?_eq_getElem known, Option.map_some]
        cases stream.form stream.events[event] <;> rfl
      rw [List.append_nil, List.filter_congr fun event listed =>
          isSync event (ordered.lt_delivered listed), ordered.sync]
      exact (List.filter_congr fun event listed => isSync event (List.mem_range.mp listed)).symm

end IncomingStream

namespace DeliveryState

variable {stream : StreamId} {handlers : IncomingStream} {state next : DeliveryState} {id : OpId}

/-- The handlers go through a run over the events that are on the wire in the end. -/
theorem receiver_of_reached {allowed : DeliveryState → DeliveryLabel → Prop}
    (reached : (streamDelivery stream handlers).Reached allowed state) :
    (incomingEvents (handlers.receiving state.events)).Reached System.Free state.receiver := by
  suffices every : ∀ more, (incomingEvents (handlers.receiving (state.events ++ more))).Reached
      System.Free state.receiver by
    simpa using every []
  apply reached.invariant fun state => ∀ more,
    (incomingEvents (handlers.receiving (state.events ++ more))).Reached System.Free state.receiver
  · exact fun _ => .refl
  · intro state label next running _ taken more
    cases steps_of_step taken with
    | sender => exact running more
    | @transmit id op =>
        have longer : events { state with wire := state.wire ++ [(id, op.call.event)] } ++ more =
            state.events ++ (op.call.event :: more) := by
          simp [events]
        rw [longer]
        exact running _
    | receiver stepped =>
        exact (running more).take _ trivial (IncomingStream.step_receiving_append stepped)

/-! ## What is written and what is received -/

/-- The chunk of the event at this position on the wire. -/
def chunkAt (state : DeliveryState) (event : Nat) : Option Bytes :=
  state.events[event]?.bind StreamEvent.chunk

/-- The chunks given to `on_data`, in the order in which its bodies begin. -/
def received (state : DeliveryState) : List Bytes :=
  state.receiver.begun.filterMap state.chunkAt

def transmitted (state : DeliveryState) : List Bytes :=
  state.events.filterMap StreamEvent.chunk

/-- The operations of the stream, in the order they were started, without those that were
cancelled in the queue. -/
def kept (stream : StreamId) (state : DeliveryState) : List OpId :=
  (List.range state.sender.executors.ops.length).filter fun id =>
    state.sender.executors.streamOf id = some stream ∧ id ∉ state.sender.withdrawn

/-- The chunk that an operation writes. -/
def chunkOf (state : DeliveryState) (id : OpId) : Option Bytes :=
  (state.sender.executors.callOf id).bind fun called => called.2.event.chunk

def written (stream : StreamId) (state : DeliveryState) : List Bytes :=
  (state.kept stream).filterMap state.chunkOf

/-- The operations of the stream are over, no native call failed, and everything is
delivered. -/
structure Complete (stream : StreamId) (state : DeliveryState) : Prop where
  finished : ∀ id, state.sender.executors.streamOf id = some stream →
    state.sender.executors.stageOf id = some .finished
  handed : ∀ id ∈ state.sender.made, state.sender.executors.streamOf id = some stream →
    id ∈ state.sent
  delivered : state.receiver.delivered = state.wire.length
  idle : state.receiver.ready = []

theorem transmitted_eq (wired : state.Wired stream) :
    state.transmitted = state.sent.filterMap state.chunkOf := by
  rw [transmitted, events, sent, List.filterMap_map, List.filterMap_map]
  apply List.filterMap_congr
  intro entry member
  obtain ⟨call, event, found⟩ := wired.called entry member
  simp [chunkOf, event, found]

theorem kept_inOrder (stream : StreamId) (state : DeliveryState) :
    (state.kept stream).Pairwise (· < ·) :=
  List.pairwise_lt_range.filter _

theorem mem_kept : id ∈ state.kept stream ↔
    state.sender.executors.streamOf id = some stream ∧ id ∉ state.sender.withdrawn := by
  rw [kept, List.mem_filter, List.mem_range, decide_eq_true_iff, and_iff_right_iff_imp]
  rintro ⟨owner, -⟩
  obtain ⟨op, found, -⟩ := Option.map_eq_some_iff.mp owner
  exact (List.getElem?_eq_some_iff.mp found).1

theorem mem_kept_of_sent (wired : state.Wired stream) (accounted : state.sender.Accounted)
    (member : id ∈ state.sent) : id ∈ state.kept stream := by
  have made := wired.made id member
  rw [accounted.made, List.mem_filter] at made
  exact mem_kept.mpr ⟨wired.streamOf member, by simpa using made.2⟩

theorem transmitted_sublist (wired : state.Wired stream) (accounted : state.sender.Accounted) :
    state.transmitted.Sublist (state.written stream) := by
  rw [transmitted_eq wired]
  apply List.Sublist.filterMap
  apply List.sublist_of_subperm_of_pairwise _ wired.inOrder (kept_inOrder stream state)
  apply List.subperm_of_subset wired.inOrder.nodup
  exact fun _ member => mem_kept_of_sent wired accounted member

/-- Everything that was written is on the wire in the end. -/
theorem transmitted_of_complete (wired : state.Wired stream) (accounted : state.sender.Accounted)
    (placed : state.sender.executors.Placed) (complete : state.Complete stream) :
    state.transmitted = state.written stream := by
  rw [transmitted_eq wired, written]
  congr 1
  apply wired.inOrder.eq_of_mem_iff (kept_inOrder stream state)
  intro id
  refine ⟨mem_kept_of_sent wired accounted, fun member => ?_⟩
  obtain ⟨owner, unwithdrawn⟩ := mem_kept.mp member
  apply complete.handed id _ owner
  rw [accounted.made, List.mem_filter]
  exact ⟨(placed.begun id).mpr ⟨_, complete.finished id owner, trivial⟩, by simpa using unwithdrawn⟩

/-- The chunks of the first events. -/
theorem filterMap_range (state : DeliveryState) (count : Nat) :
    (List.range count).filterMap state.chunkAt =
      (state.events.take count).filterMap StreamEvent.chunk := by
  induction count with
  | zero => rfl
  | succ count ih =>
      rw [List.range_succ, List.filterMap_append, ih, List.take_add_one, List.filterMap_append]
      congr 1
      cases found : state.events[count]? <;> simp [chunkAt, found, List.filterMap_cons]

/-- Chunks come with events that `on_data` handles. -/
theorem filterMap_chunkAt (handlers : IncomingStream) (state : DeliveryState)
    (positions : List Nat) :
    positions.filterMap state.chunkAt =
      (positions.filter ((handlers.receiving state.events).HasForm handlers.onData)).filterMap
        state.chunkAt := by
  rw [List.filterMap_filter]
  apply List.filterMap_congr
  intro event _
  split
  · rfl
  · next other =>
      cases found : state.events[event]? with
      | none => simp [chunkAt, found]
      | some here =>
          cases here with
          | data chunk =>
              simp [IncomingStream.HasForm, IncomingStream.formAt, IncomingStream.receiving,
                IncomingStream.form, found] at other
          | finished | cancelled => simp [chunkAt, found, StreamEvent.chunk]

/-- A body splits those of its form into the ones for earlier events and later ones. -/
theorem filter_front {holds : Nat → Bool} {front back waiting : List Nat} {event count : Nat}
    (same : (front ++ event :: back).filter holds ++ waiting = (List.range count).filter holds)
    (held : holds event = true) :
    front.filter holds = (List.range event).filter holds := by
  have sorted : ((List.range count).filter holds).Pairwise (· < ·) :=
    List.pairwise_lt_range.filter _
  have members : ∀ other, other ∈ (front ++ event :: back).filter holds ++ waiting ↔
      other < count ∧ holds other = true := by
    intro other
    rw [same, List.mem_filter, List.mem_range]
  rw [← same, List.filter_append, List.filter_cons_of_pos held, List.append_assoc] at sorted
  rw [List.filter_append, List.filter_cons_of_pos held, List.append_assoc] at members
  obtain ⟨first, rest, before⟩ := List.pairwise_append.mp sorted
  apply first.eq_of_mem_iff (List.pairwise_lt_range.filter _)
  intro other
  have known := (members event).mp (by simp)
  constructor
  · intro member
    have there := (members other).mp (List.mem_append_left _ member)
    exact List.mem_filter.mpr ⟨List.mem_range.mpr (before other member event (by simp)), there.2⟩
  · intro member
    obtain ⟨earlier, holding⟩ := List.mem_filter.mp member
    have earlier := List.mem_range.mp earlier
    rcases List.mem_append.mp ((members other).mpr ⟨Nat.lt_trans earlier known.1, holding⟩)
      with here | there
    · exact here
    · rcases List.mem_cons.mp there with rfl | behind
      · exact absurd earlier (Nat.lt_irrefl _)
      · exact absurd earlier (Nat.lt_asymm ((List.pairwise_cons.mp rest).1 other behind))

/-- What the handlers of a stream see of the operations on it. -/
structure Faithful (stream : StreamId) (handlers : IncomingStream) (state : DeliveryState) :
    Prop where
  received : state.received <+: state.transmitted
  transmitted : state.transmitted.Sublist (state.written stream)
  complete : state.Complete stream → state.received = state.written stream
  /-- When the body of `on_end` begins, those of `on_data` have begun for all data that was
  sent before the end. -/
  ended : handlers.onEnd = handlers.onData → ∀ front event back,
    state.receiver.begun = front ++ event :: back → state.events[event]? = some .finished →
      front.filterMap state.chunkAt = (state.events.take event).filterMap StreamEvent.chunk

end DeliveryState

open DeliveryState in
/-- `on_data` is given the chunks of `async_write` in the order of the calls, each at most
once and none that was withdrawn; when all is delivered, it has been given all of them. -/
theorem streamDelivery_faithful (stream : StreamId) (handlers : IncomingStream)
    (state : DeliveryState)
    (reached : (streamDelivery stream handlers).Reached (Lifted StreamState.Orderly) state) :
    state.Faithful stream handlers := by
  have wired := wired_of_reached reached
  have sender := sender_of_reached reached
  have accounted := AwaitedState.accounted_of_reached sender
  have placed := StreamState.placed_of_reached (AwaitedState.executors_of_along sender)
  have running := receiver_of_reached reached
  obtain ⟨waiting, begun, idling⟩ := IncomingStream.exists_hasForm running handlers.onData
  have delivered : state.received ++ waiting.filterMap state.chunkAt =
      (state.events.take state.receiver.delivered).filterMap StreamEvent.chunk := by
    rw [received, filterMap_chunkAt handlers, ← List.filterMap_append, begun,
      ← filterMap_chunkAt handlers, filterMap_range]
  constructor
  · have first : state.received <+: _ := ⟨_, delivered⟩
    exact first.trans ((List.take_prefix _ _).filterMap _)
  · exact transmitted_sublist wired accounted
  · intro complete
    have all : state.receiver.delivered = state.events.length := by
      rw [complete.delivered, events, List.length_map]
    rw [idling complete.idle, List.filterMap_nil, List.append_nil, all, List.take_length]
      at delivered
    rw [delivered]
    exact transmitted_of_complete wired accounted placed complete
  · intro same front event back split found
    rw [split] at begun
    have held : (handlers.receiving state.events).HasForm handlers.onData event = true := by
      simp [IncomingStream.HasForm, IncomingStream.formAt, IncomingStream.receiving,
        IncomingStream.form, found, same]
    rw [filterMap_chunkAt handlers, filter_front begun held, ← filterMap_chunkAt handlers,
      filterMap_range]

open DeliveryState in
/-- Three writes and an end: the second write is cancelled while it is queued. -/
theorem streamDelivery_faithful_cancelled :
    ∃ state, (streamDelivery 7 { echoStream with onEnd := .async }).Reached
        (Lifted StreamState.Orderly) state ∧
      state.received = [[0x68], [0x6a]] ∧ state.written 7 = [[0x68], [0x6a]] ∧
      state.receiver.begun = [0, 1, 2] ∧
      state.Faithful 7 { echoStream with onEnd := .async } := by
  have ran : ((streamDelivery 7 { echoStream with onEnd := .async }).run
      (Lifted StreamState.Orderly) (streamDelivery 7 { echoStream with onEnd := .async }).initial
      [.sender (.executor (asyncWrite 7 [0x68])), .sender (.executor (.submit 0)),
        .sender (.executor (asyncWrite 7 [0x69])), .sender (.executor (.submit 1)),
        .sender (.executor (asyncWrite 7 [0x6a])), .sender (.executor (.submit 2)),
        .sender (.executor (asyncEnd 7)), .sender (.executor (.submit 3)),
        .sender (.cancel 1), .sender (.propagate 1), .sender (.executor (.begin 0)), .transmit 0,
        .receiver .deliver, .sender (.executor (.finish 0)), .sender (.executor (.begin 0)),
        .sender (.executor (.finish 0)), .sender (.executor (.begin 0)), .transmit 2,
        .receiver .runReady, .sender (.executor (.finish 0)), .sender (.executor (.begin 0)),
        .transmit 3, .receiver .deliver, .receiver .deliver, .receiver .runReady,
        .receiver .runReady, .receiver .runReady, .receiver .runReady,
        .receiver .runReady]).map (fun state =>
          (state.received, state.written 7, state.receiver.begun)) =
      some ([[0x68], [0x6a]], [[0x68], [0x6a]], [0, 1, 2]) := by decide +kernel
  obtain ⟨state, ended, seen⟩ := Option.map_eq_some_iff.mp ran
  obtain ⟨received, written, begun⟩ := Prod.mk.inj seen |>.imp_right Prod.mk.inj
  have reached := System.along_of_run ended
  exact ⟨state, reached, received, written, begun, streamDelivery_faithful 7 _ state reached⟩

end ObscuraProto
