import ObscuraProto.Library.Turns
import ObscuraProto.Stream.Delivery

/-!
# Synchronous stream calls among asynchronous ones

`write()`, `end()` and `cancel()` make the native call on the thread of the caller, at
once.  They pass by the executor, with the operations queued there.
-/

namespace ObscuraProto

open Transition Processes

/-- A synchronous call, which some thread makes. -/
structure SyncCall where
  stream : StreamId
  call : StreamCall
  returned : Bool := false
  deriving DecidableEq

/-- A native call: the one of an operation, or a synchronous call by its position in the
list of these. -/
inductive NativeCall where
  | op (op : OpId)
  | sync (index : Nat)
  deriving DecidableEq

namespace NativeCall

def op? : NativeCall → Option OpId
  | op id => some id
  | sync _ => none

theorem mem_filterMap_op? {calls : List NativeCall} {id : OpId} :
    id ∈ calls.filterMap op? ↔ op id ∈ calls := by
  constructor
  · intro listed
    obtain ⟨call, member, same⟩ := List.mem_filterMap.mp listed
    cases call with
    | op other => cases same; exact member
    | sync => cases same
  · intro member
    exact List.mem_filterMap.mpr ⟨op id, member, rfl⟩

theorem map_filterMap_sublist (calls : List NativeCall) :
    ((calls.filterMap op?).map op).Sublist calls := by
  induction calls with
  | nil => exact .slnil
  | cons call calls ih =>
      cases call with
      | op id => exact ih.cons_cons (op id)
      | sync index => exact ih.cons (sync index)

end NativeCall

/-- A stream's operations and synchronous calls. -/
structure CallState where
  executors : StreamState := {}
  syncCalls : List SyncCall := []
  /-- The calls, in the order in which they were asked for. -/
  made : List NativeCall := []
  /-- The native calls, in the order they began. -/
  begun : List NativeCall := []
  deriving DecidableEq

inductive CallLabel where
  | executor (label : StreamLabel)
  | call (stream : StreamId) (call : StreamCall)
  | returns (index : Nat)

/-! ## `Stream` -/

def Stream.write (stream : StreamId) (data : List UInt8) : CallLabel :=
  .call stream (.write data)

def Stream.end (stream : StreamId) : CallLabel :=
  .call stream .end

def Stream.cancel (stream : StreamId) : CallLabel :=
  .call stream .cancel

namespace CallState

/-- The operations a step of the executors starts. -/
def startedBy (state : CallState) (next : StreamState) : List OpId :=
  List.range' state.executors.ops.length (next.ops.length - state.executors.ops.length)

/-- The operations whose native calls begin in a step of the executors. -/
def begunBy (state : CallState) (next : StreamState) : List OpId :=
  next.begun.drop state.executors.begun.length

def step (state : CallState) : CallLabel → Option CallState
  | .executor label =>
      (state.executors.step label).map fun executors =>
        { state with
          executors
          made := state.made ++ (state.startedBy executors).map .op
          begun := state.begun ++ (state.begunBy executors).map .op }
  | .call stream call =>
      some
        { state with
          syncCalls := state.syncCalls ++ [{ stream, call }]
          made := state.made ++ [.sync state.syncCalls.length]
          begun := state.begun ++ [.sync state.syncCalls.length] }
  | .returns index =>
      match state.syncCalls[index]? with
      | some ⟨stream, call, false⟩ =>
          some { state with syncCalls := state.syncCalls.set index ⟨stream, call, true⟩ }
      | _ => none

def streamOf (state : CallState) : NativeCall → Option StreamId
  | .op id => state.executors.streamOf id
  | .sync index => state.syncCalls[index]?.map (·.stream)

def HasEnded (state : CallState) : NativeCall → Prop
  | .op id => state.executors.stageOf id = some .finished
  | .sync index => state.syncCalls[index]?.map (·.returned) = some true

instance (state : CallState) : DecidablePred state.HasEnded
  | .op _ | .sync _ => inferInstanceAs (Decidable (_ = _))

def SameStream (state : CallState) (first second : NativeCall) : Prop :=
  state.streamOf first = state.streamOf second

end CallState

/-- Synchronous calls and operations on streams. -/
def streamCalls : System CallState CallLabel where
  initial := {}
  step := CallState.step

/-! ## What a step can do -/

namespace StreamState

/-- A step starts an operation, begins a native call or does neither. -/
inductive Growth (state next : StreamState) : StreamLabel → Prop
  | start {stream : StreamId} {call : StreamCall} {stage : Stage}
      (ops : next.ops = state.ops ++ [⟨stream, call, stage⟩]) (begun : next.begun = state.begun) :
      Growth state next (.start stream call)
  | begin {label : StreamLabel} {id : OpId} {place : Place}
      (ops : next.ops.length = state.ops.length) (begun : next.begun = state.begun ++ [id])
      (pending : state.stageOf id = some (.pending place))
      (running : next.stageOf id = some (.running place)) : Growth state next label
  | neither {label : StreamLabel} (ops : next.ops.length = state.ops.length)
      (begun : next.begun = state.begun) : Growth state next label

theorem growth_of_step {state next : StreamState} {label : StreamLabel} (placed : state.Placed)
    (taken : streamExecutor.step state label = some next) : Growth state next label := by
  cases streamSteps_of_step taken with
  | startCurrent | startNew => exact .start rfl rfl
  | @begin executorId accepting id queue op found started =>
      have queued : id ∈ state.queueOf (.executor executorId) := by
        simp [queueOf_of_found found]
      exact .begin (List.length_set ..) rfl ((placed.queued _ id).mp queued)
        ((stageOf_move started id).trans (if_pos rfl))
  | @poolBegin id queue op first started =>
      have queued : id ∈ state.queueOf .pool := by simp [queueOf, first]
      exact .begin (List.length_set ..) rfl ((placed.queued _ id).mp queued)
        ((stageOf_move started id).trans (if_pos rfl))
  | submit | fallback | finish | poolFinish => exact .neither (List.length_set ..) rfl
  | shutdown | shutdownDone => exact .neither rfl rfl

theorem streamOf_of_step {state next : StreamState} {label : StreamLabel} {id : OpId}
    {stream : StreamId} (taken : streamExecutor.step state label = some next)
    (found : state.streamOf id = some stream) : next.streamOf id = some stream := by
  obtain ⟨op, started, rfl⟩ := Option.map_eq_some_iff.mp found
  have called : state.callOf id = some (op.stream, op.call) := by simp [callOf, started]
  obtain ⟨later, still, same⟩ := Option.map_eq_some_iff.mp (callOf_of_step taken called)
  simp [streamOf, still, (Prod.mk.inj same).1]

end StreamState

namespace CallState

variable {state next : CallState} {id : OpId} {index : Nat} {call first second : NativeCall}

/-- The outcomes of a step. -/
inductive Steps (state : CallState) : CallLabel → CallState → Prop
  | start {stream : StreamId} {call : StreamCall} {stage : Stage} {executors : StreamState}
      (taken : streamExecutor.step state.executors (.start stream call) = some executors)
      (ops : executors.ops = state.executors.ops ++ [⟨stream, call, stage⟩])
      (begun : executors.begun = state.executors.begun) :
      Steps state (.executor (.start stream call))
        { state with executors, made := state.made ++ [.op state.executors.ops.length] }
  | begin {label : StreamLabel} {executors : StreamState} {id : OpId} {place : Place}
      (taken : streamExecutor.step state.executors label = some executors)
      (ops : executors.ops.length = state.executors.ops.length)
      (begun : executors.begun = state.executors.begun ++ [id])
      (pending : state.executors.stageOf id = some (.pending place))
      (running : executors.stageOf id = some (.running place)) :
      Steps state (.executor label) { state with executors, begun := state.begun ++ [.op id] }
  | neither {label : StreamLabel} {executors : StreamState}
      (taken : streamExecutor.step state.executors label = some executors)
      (ops : executors.ops.length = state.executors.ops.length)
      (begun : executors.begun = state.executors.begun) :
      Steps state (.executor label) { state with executors }
  | call {stream : StreamId} {call : StreamCall} :
      Steps state (.call stream call)
        { state with
          syncCalls := state.syncCalls ++ [{ stream, call }]
          made := state.made ++ [.sync state.syncCalls.length]
          begun := state.begun ++ [.sync state.syncCalls.length] }
  | returns {index : Nat} {stream : StreamId} {call : StreamCall}
      (found : state.syncCalls[index]? = some ⟨stream, call, false⟩) :
      Steps state (.returns index)
        { state with syncCalls := state.syncCalls.set index ⟨stream, call, true⟩ }

theorem returns_of_step (taken : streamCalls.step state (.returns index) = some next) :
    ∃ stream call, state.syncCalls[index]? = some ⟨stream, call, false⟩ ∧
      next = { state with syncCalls := state.syncCalls.set index ⟨stream, call, true⟩ } := by
  simp only [streamCalls, step] at taken
  split at taken
  · next found => cases taken; exact ⟨_, _, found, rfl⟩
  · cases taken

theorem steps_of_step {label : CallLabel} (placed : state.executors.Placed)
    (taken : streamCalls.step state label = some next) : Steps state label next := by
  cases label with
  | executor label =>
      obtain ⟨executors, stepped, rfl⟩ := Option.map_eq_some_iff.mp taken
      cases StreamState.growth_of_step placed stepped with
      | start ops begun =>
          simpa [startedBy, begunBy, ops, begun] using Steps.start stepped ops begun
      | begin ops begun pending running =>
          simpa [startedBy, begunBy, ops, begun] using
            Steps.begin stepped ops begun pending running
      | neither ops begun =>
          simpa [startedBy, begunBy, ops, begun] using Steps.neither stepped ops begun
  | call stream call => cases taken; exact .call
  | returns index =>
      obtain ⟨stream, call, found, rfl⟩ := returns_of_step taken
      exact .returns found

theorem executors_of_step {label : StreamLabel}
    (taken : streamCalls.step state (.executor label) = some next) :
    streamExecutor.step state.executors label = some next.executors := by
  obtain ⟨executors, stepped, rfl⟩ := Option.map_eq_some_iff.mp taken
  exact stepped

/-- The executors go through a run of their own. -/
theorem executors_of_along {allowed : CallState → CallLabel → Prop}
    {permitted : StreamState → StreamLabel → Prop}
    (stricter : ∀ state label, allowed state (.executor label) →
      permitted state.executors label)
    (along : streamCalls.Along allowed state next) :
    streamExecutor.Along permitted state.executors next.executors := by
  apply along.through CallState.executors
  intro middle label next holds taken
  cases label with
  | executor label => exact .step .refl (stricter _ _ holds) (executors_of_step taken)
  | call stream call => cases taken; exact .refl
  | returns index =>
      obtain ⟨stream, call, -, rfl⟩ := returns_of_step taken
      exact .refl

theorem executors_of_reached {allowed : CallState → CallLabel → Prop}
    (reached : streamCalls.Reached allowed state) :
    streamExecutor.Reached System.Free state.executors :=
  executors_of_along (fun _ _ _ => trivial) reached

theorem placed_of_reached {allowed : CallState → CallLabel → Prop}
    (reached : streamCalls.Reached allowed state) : state.executors.Placed :=
  StreamState.placed_of_reached (executors_of_reached reached)

/-- Calls stay what they are, and do not begin anew. -/
structure Extends (state next : CallState) : Prop where
  streams : ∀ call stream, state.streamOf call = some stream → next.streamOf call = some stream
  ended : ∀ call, state.HasEnded call → next.HasEnded call

theorem extends_of_executors {label : StreamLabel} (placed : state.executors.Placed)
    (taken : streamExecutor.step state.executors label = some next.executors)
    (same : next.syncCalls = state.syncCalls) : state.Extends next where
  streams call stream found := by
    cases call with
    | op id => exact StreamState.streamOf_of_step taken found
    | sync index => simpa only [streamOf, same] using found
  ended call ended := by
    cases call with
    | op id => exact placed.finished_step taken ended
    | sync index => simpa only [HasEnded, same] using ended

theorem extends_of_step {label : CallLabel} (placed : state.executors.Placed)
    (taken : streamCalls.step state label = some next) : state.Extends next := by
  cases steps_of_step placed taken with
  | start stepped | begin stepped | neither stepped =>
      exact extends_of_executors placed stepped rfl
  | @call owner native =>
      have kept : ∀ (index : Nat) (found : SyncCall), state.syncCalls[index]? = some found →
          (state.syncCalls ++ [⟨owner, native, false⟩])[index]? = some found := by
        intro index found here
        rw [List.getElem?_append_left (List.getElem?_eq_some_iff.mp here).1, here]
      constructor
      · intro call stream found
        cases call with
        | op id => exact found
        | sync index =>
            obtain ⟨made, here, rfl⟩ := Option.map_eq_some_iff.mp found
            simp [streamOf, kept index made here]
      · intro call ended
        cases call with
        | op id => exact ended
        | sync index =>
            obtain ⟨made, here, returned⟩ := Option.map_eq_some_iff.mp ended
            simp [HasEnded, kept index made here, returned]
  | @returns position stream call found =>
      constructor
      · intro other owner known
        cases other with
        | op id => exact known
        | sync index =>
            simp only [streamOf, getElem?_set_of_found found]
            split
            · next same => simpa [streamOf, same, found] using known
            · exact known
      · intro other ended
        cases other with
        | op id => exact ended
        | sync index =>
            simp only [HasEnded, getElem?_set_of_found found]
            split
            · rfl
            · exact ended

/-! ## What the lists of calls record -/

structure Recorded (state : CallState) : Prop where
  ops : state.made.filterMap NativeCall.op? = List.range state.executors.ops.length
  begun : state.begun.filterMap NativeCall.op? = state.executors.begun
  syncs : ∀ index, .sync index ∈ state.made ↔ index < state.syncCalls.length

theorem Recorded.op_made (recorded : state.Recorded) :
    .op id ∈ state.made ↔ id < state.executors.ops.length := by
  rw [← NativeCall.mem_filterMap_op?, recorded.ops, List.mem_range]

theorem Recorded.op_begun (recorded : state.Recorded) :
    .op id ∈ state.begun ↔ id ∈ state.executors.begun := by
  rw [← NativeCall.mem_filterMap_op?, recorded.begun]

theorem Recorded.streamOf (recorded : state.Recorded) (known : call ∈ state.made) :
    ∃ stream, state.streamOf call = some stream := by
  cases call with
  | op id =>
      have started := List.getElem?_eq_getElem (recorded.op_made.mp known)
      exact ⟨_, congrArg (Option.map _) started⟩
  | sync index =>
      have asked := List.getElem?_eq_getElem ((recorded.syncs index).mp known)
      exact ⟨_, congrArg (Option.map _) asked⟩

theorem Recorded.lt_of_pair {earlier later : OpId} (recorded : state.Recorded)
    (pair : [.op earlier, .op later].Sublist state.made) : earlier < later := by
  have numbers := pair.filterMap NativeCall.op?
  rw [recorded.ops] at numbers
  exact List.pairwise_iff_forall_sublist.mp List.pairwise_lt_range numbers

theorem Recorded.pair_of_lt {earlier later : OpId} (recorded : state.Recorded)
    (precedes : earlier < later) (known : later < state.executors.ops.length) :
    [NativeCall.op earlier, .op later].Sublist state.made := by
  have numbers : [earlier, later].Sublist (List.range state.executors.ops.length) := by
    rcases Turns.pair_sublist_or (List.mem_range.mpr (Nat.lt_trans precedes known))
      (List.mem_range.mpr known) (Nat.ne_of_lt precedes) with pair | pair
    · exact pair
    · exact absurd (List.pairwise_iff_forall_sublist.mp List.pairwise_lt_range pair)
        (Nat.lt_asymm precedes)
  have mapped := numbers.map NativeCall.op
  rw [← recorded.ops] at mapped
  exact mapped.trans (NativeCall.map_filterMap_sublist _)

theorem recorded_initial : streamCalls.initial.Recorded :=
  ⟨rfl, rfl, by simp [streamCalls]⟩

theorem Recorded.step {label : CallLabel} (recorded : state.Recorded)
    (placed : state.executors.Placed) (taken : streamCalls.step state label = some next) :
    next.Recorded := by
  cases steps_of_step placed taken with
  | start stepped ops begun =>
      constructor
      · simp [recorded.ops, ops, NativeCall.op?, List.range_succ]
      · exact recorded.begun.trans begun.symm
      · simpa using recorded.syncs
  | begin stepped ops begun =>
      constructor
      · exact recorded.ops.trans (congrArg List.range ops.symm)
      · simp [recorded.begun, begun, NativeCall.op?]
      · exact recorded.syncs
  | neither stepped ops begun =>
      exact ⟨recorded.ops.trans (congrArg List.range ops.symm), recorded.begun.trans begun.symm,
        recorded.syncs⟩
  | call =>
      constructor
      · simp [recorded.ops, NativeCall.op?]
      · simp [recorded.begun, NativeCall.op?]
      · intro index
        simp only [List.mem_append, recorded.syncs index, List.mem_singleton,
          NativeCall.sync.injEq, List.length_append, List.length_singleton]
        omega
  | returns found => exact ⟨recorded.ops, recorded.begun, by simpa using recorded.syncs⟩

theorem recorded_of_reached {allowed : CallState → CallLabel → Prop}
    (reached : streamCalls.Reached allowed state) : state.Recorded :=
  reached.invariant_of Recorded (fun _ reached => placed_of_reached reached) recorded_initial
    fun _ _ _ placed recorded _ taken => recorded.step placed taken

/-- Calls already made are on the stream they were on. -/
theorem Extends.same (extended : state.Extends next) (recorded : state.Recorded)
    (firstMade : first ∈ state.made) (secondMade : second ∈ state.made)
    (together : next.SameStream first second) : state.SameStream first second := by
  obtain ⟨one, ofFirst⟩ := recorded.streamOf firstMade
  obtain ⟨other, ofSecond⟩ := recorded.streamOf secondMade
  rw [SameStream, extended.streams first one ofFirst, extended.streams second other ofSecond]
    at together
  rw [SameStream, ofFirst, ofSecond, together]

end CallState

end ObscuraProto
