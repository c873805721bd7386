import ObscuraProto.Stream.Ordering
import ObscuraProto.Stream.Shutdown

/-!
# Cancelled stream operations

An operation is awaited through `asyncio.wrap_future`.  When the await is cancelled, a
callback on the loop cancels the future of the executor, which has an effect only while
the operation is still queued: the worker then drops it.  An operation whose native call
has begun is completed, and only its result is lost.
-/

namespace ObscuraProto

open Transition Processes

/-- Operations with their awaits. -/
structure AwaitedState where
  executors : StreamState := {}
  /-- The operations whose await was cancelled. -/
  cancelled : List OpId := []
  /-- The operations whose executor future was cancelled while they were queued. -/
  withdrawn : List OpId := []
  /-- The operations whose await ended with the result of the native call. -/
  returned : List OpId := []
  /-- The native calls made, in order. -/
  made : List OpId := []
  deriving DecidableEq

inductive AwaitedLabel where
  | executor (label : StreamLabel)
  /-- The task that awaits the operation is cancelled. -/
  | cancel (op : OpId)
  /-- `wrap_future` passes the cancellation on to the executor future. -/
  | propagate (op : OpId)
  /-- The loop hands the result of the native call to the await. -/
  | resume (op : OpId)

namespace AwaitedState

/-- The await of the operation is not over. -/
def Awaits (state : AwaitedState) (id : OpId) : Prop :=
  id ∉ state.cancelled ∧ id ∉ state.returned

instance (state : AwaitedState) : DecidablePred state.Awaits :=
  fun _ => inferInstanceAs (Decidable (_ ∧ _))

/-- A worker that takes an operation makes the native call unless it was withdrawn. -/
def madeBy (state : AwaitedState) (next : StreamState) : List OpId :=
  (next.begun.drop state.executors.begun.length).filter (· ∉ state.withdrawn)

def step (state : AwaitedState) : AwaitedLabel → Option AwaitedState
  | .executor label =>
      (state.executors.step label).map fun executors =>
        { state with executors, made := state.made ++ state.madeBy executors }
  | .cancel id =>
      match state.executors.stageOf id with
      -- Between `_get_executor()` and `submit()` the coroutine cannot be interrupted.
      | none | some (.fetched _) => none
      | some _ =>
          if state.Awaits id then some { state with cancelled := state.cancelled ++ [id] } else none
  | .propagate id =>
      if id ∈ state.cancelled then
        match state.executors.stageOf id with
        | some (.pending _) => some { state with withdrawn := state.withdrawn ++ [id] }
        | _ => some state
      else none
  | .resume id =>
      match state.executors.stageOf id with
      | some .finished =>
          if state.Awaits id then some { state with returned := state.returned ++ [id] } else none
      | _ => none

/-- A condition of the executors, on their steps. -/
def Lifted (allowed : StreamState → StreamLabel → Prop) (state : AwaitedState) :
    AwaitedLabel → Prop
  | .executor label => allowed state.executors label
  | .cancel _ | .propagate _ | .resume _ => True

instance (allowed : StreamState → StreamLabel → Prop)
    [∀ state label, Decidable (allowed state label)] (state : AwaitedState) :
    DecidablePred (state.Lifted allowed)
  | .executor label => inferInstanceAs (Decidable (allowed state.executors label))
  | .cancel _ | .propagate _ | .resume _ => isTrue trivial

end AwaitedState

/-- Stream operations whose awaits can be cancelled. -/
def awaitedOperations : System AwaitedState AwaitedLabel where
  initial := {}
  step := AwaitedState.step

namespace AwaitedState

variable {state next : AwaitedState} {id : OpId}

/-- The native calls and the awaits of the operations. -/
structure Accounted (state : AwaitedState) : Prop where
  made : state.made = state.executors.begun.filter (· ∉ state.withdrawn)
  withdrawn : ∀ id ∈ state.withdrawn, id ∈ state.cancelled
  returned : ∀ id ∈ state.returned,
    state.executors.stageOf id = some .finished ∧ id ∉ state.cancelled

/-- The native calls that have begun are never taken back. -/
theorem begun_of_step {state next : StreamState} {label : StreamLabel}
    (taken : streamExecutor.step state label = some next) :
    ∃ new, next.begun = state.begun ++ new := by
  cases streamSteps_of_step taken with
  | begin | poolBegin => exact ⟨_, rfl⟩
  | startCurrent | startNew | submit | fallback | finish | poolFinish | shutdown | shutdownDone =>
      exact ⟨[], (List.append_nil _).symm⟩

theorem Accounted.executor (accounted : state.Accounted) (placed : state.executors.Placed)
    {label : StreamLabel} {executors : StreamState}
    (taken : streamExecutor.step state.executors label = some executors) :
    Accounted { state with executors, made := state.made ++ state.madeBy executors } := by
  obtain ⟨new, grown⟩ := begun_of_step taken
  refine ⟨?_, accounted.withdrawn, fun id returned => ?_⟩
  · simp only [madeBy, grown, List.drop_left, List.filter_append, accounted.made]
  · have before := accounted.returned id returned
    exact ⟨placed.finished_step taken before.1, before.2⟩

/-- An operation that is withdrawn has not begun. -/
theorem Accounted.withdraw (accounted : state.Accounted) (placed : state.executors.Placed)
    {place : Place} (cancelled : id ∈ state.cancelled)
    (pending : state.executors.stageOf id = some (.pending place)) :
    Accounted { state with withdrawn := state.withdrawn ++ [id] } := by
  have unbegun : id ∉ state.executors.begun := by
    rw [placed.begun]
    rintro ⟨stage, found, begun⟩
    rw [pending] at found
    cases found
    exact begun
  refine ⟨?_, fun other member => ?_, accounted.returned⟩
  · rw [accounted.made]
    apply List.filter_congr
    intro other begun
    have apart : other ≠ id := by
      rintro rfl
      exact unbegun begun
    simp [apart]
  · rcases List.mem_append.mp member with earlier | last
    · exact accounted.withdrawn other earlier
    · exact List.mem_singleton.mp last ▸ cancelled

/-- What a step does with the operations and their awaits. -/
inductive Steps (state : AwaitedState) : AwaitedLabel → AwaitedState → Prop
  | executor {label : StreamLabel} {executors : StreamState}
      (taken : streamExecutor.step state.executors label = some executors) :
      Steps state (.executor label)
        { state with executors, made := state.made ++ state.madeBy executors }
  | cancel {id : OpId} {stage : Stage} (found : state.executors.stageOf id = some stage)
      (awaits : state.Awaits id) :
      Steps state (.cancel id) { state with cancelled := state.cancelled ++ [id] }
  | withdraw {id : OpId} {place : Place} (cancelled : id ∈ state.cancelled)
      (pending : state.executors.stageOf id = some (.pending place)) :
      Steps state (.propagate id) { state with withdrawn := state.withdrawn ++ [id] }
  /-- The native call has begun, and the executor future stays as it is. -/
  | tooLate {id : OpId} (cancelled : id ∈ state.cancelled) : Steps state (.propagate id) state
  | resume {id : OpId} (finished : state.executors.stageOf id = some .finished)
      (awaits : state.Awaits id) :
      Steps state (.resume id) { state with returned := state.returned ++ [id] }

theorem steps_of_step {label : AwaitedLabel}
    (taken : awaitedOperations.step state label = some next) : Steps state label next := by
  cases label with
  | executor label =>
      obtain ⟨executors, stepped, rfl⟩ := Option.map_eq_some_iff.mp taken
      exact .executor stepped
  | cancel id =>
      simp only [awaitedOperations, AwaitedState.step] at taken
      split at taken
      · cases taken
      · cases taken
      · next found =>
          simp only [Option.ite_none_right_eq_some, Option.some.injEq] at taken
          obtain ⟨awaits, rfl⟩ := taken
          exact .cancel found awaits
  | propagate id =>
      simp only [awaitedOperations, AwaitedState.step, Option.ite_none_right_eq_some] at taken
      obtain ⟨cancelled, taken⟩ := taken
      split at taken
      · next pending => cases taken; exact .withdraw cancelled pending
      · cases taken; exact .tooLate cancelled
  | resume id =>
      simp only [awaitedOperations, AwaitedState.step] at taken
      split at taken
      · next finished =>
          simp only [Option.ite_none_right_eq_some, Option.some.injEq] at taken
          obtain ⟨awaits, rfl⟩ := taken
          exact .resume finished awaits
      · cases taken

theorem Accounted.step {label : AwaitedLabel} (accounted : state.Accounted)
    (placed : state.executors.Placed) (taken : awaitedOperations.step state label = some next) :
    next.Accounted := by
  cases steps_of_step taken with
  | executor stepped => exact accounted.executor placed stepped
  | cancel found awaits =>
      refine ⟨accounted.made, fun other member => List.mem_append_left _
        (accounted.withdrawn other member), fun other member => ?_⟩
      have before := accounted.returned other member
      refine ⟨before.1, ?_⟩
      rw [List.mem_append, List.mem_singleton, not_or]
      exact ⟨before.2, fun same => awaits.2 (same ▸ member)⟩
  | withdraw cancelled pending => exact accounted.withdraw placed cancelled pending
  | tooLate => exact accounted
  | resume finished awaits =>
      refine ⟨accounted.made, accounted.withdrawn, fun other member => ?_⟩
      rcases List.mem_append.mp member with earlier | last
      · exact accounted.returned other earlier
      · rw [List.mem_singleton.mp last]
        exact ⟨finished, awaits.1⟩

/-- The executors go through a run of their own. -/
theorem executors_of_along {allowed : StreamState → StreamLabel → Prop}
    (along : awaitedOperations.Along (Lifted allowed) state next) :
    streamExecutor.Along allowed state.executors next.executors := by
  apply along.through AwaitedState.executors
  intro middle label next permitted taken
  cases steps_of_step taken with
  | executor stepped => exact .step .refl permitted stepped
  | cancel | withdraw | tooLate | resume => exact .refl

theorem lifted_of_along {allowed : AwaitedState → AwaitedLabel → Prop}
    (along : awaitedOperations.Along allowed state next) :
    awaitedOperations.Along (Lifted System.Free) state next := by
  apply along.mono
  intro state label _
  cases label <;> trivial

theorem accounted_of_reached {allowed : AwaitedState → AwaitedLabel → Prop}
    (reached : awaitedOperations.Reached allowed state) : state.Accounted := by
  have placed : ∀ state, awaitedOperations.Reached allowed state → state.executors.Placed :=
    fun _ reached => StreamState.placed_of_reached (executors_of_along (lifted_of_along reached))
  apply reached.invariant_of Accounted placed
  · exact ⟨rfl, nofun, nofun⟩
  · intro state label next placed accounted _ taken
    exact accounted.step placed taken

/-- Native calls that are made and operations that are withdrawn stay so. -/
theorem grows_of_along {allowed : AwaitedState → AwaitedLabel → Prop}
    (along : awaitedOperations.Along allowed state next) :
    state.made <+: next.made ∧ state.withdrawn ⊆ next.withdrawn := by
  apply along.invariant fun next => state.made <+: next.made ∧ state.withdrawn ⊆ next.withdrawn
  · exact ⟨List.prefix_rfl, List.Subset.refl _⟩
  · intro middle label next grown _ taken
    cases steps_of_step taken with
    | executor stepped => exact ⟨grown.1.trans (List.prefix_append _ _), grown.2⟩
    | withdraw => exact ⟨grown.1, List.Subset.trans grown.2 (List.subset_append_left _ _)⟩
    | cancel | tooLate | resume => exact grown

/-- What becomes of the operations, whichever awaits are cancelled. -/
structure Outcomes (state : AwaitedState) : Prop where
  once : state.made.Nodup
  /-- A finished operation has made its native call, unless it was withdrawn. -/
  finished : ∀ id, state.executors.stageOf id = some .finished →
    (id ∈ state.made ↔ id ∉ state.withdrawn)
  /-- An operation whose native call was made is never withdrawn. -/
  kept : ∀ id ∈ state.made, ∀ later, awaitedOperations.Along System.Free state later →
    id ∈ later.made ∧ id ∉ later.withdrawn
  /-- The await of an operation that is withdrawn was cancelled, and its native call is
  never made. -/
  dropped : ∀ id ∈ state.withdrawn, id ∈ state.cancelled ∧
    ∀ later, awaitedOperations.Along System.Free state later → id ∉ later.made
  /-- An await that returns has a native call that is over. -/
  returned : ∀ id ∈ state.returned,
    id ∈ state.made ∧ state.executors.stageOf id = some .finished ∧ id ∉ state.cancelled

end AwaitedState

open AwaitedState in
/-- Cancelling awaits withdraws only operations whose native calls are not made and never
will be; all others are made once. -/
theorem awaitedOperations_outcomes (state : AwaitedState)
    (reached : awaitedOperations.Reached System.Free state) : state.Outcomes := by
  have accounted := accounted_of_reached reached
  have placed := StreamState.placed_of_reached (executors_of_along (lifted_of_along reached))
  have apart : ∀ id ∈ state.made, id ∉ state.withdrawn := by
    intro id made
    rw [accounted.made, List.mem_filter] at made
    simpa using made.2
  have made_of_finished : ∀ id, state.executors.stageOf id = some .finished →
      id ∉ state.withdrawn → id ∈ state.made := by
    intro id finished kept
    rw [accounted.made, List.mem_filter]
    exact ⟨(placed.begun id).mpr ⟨.finished, finished, trivial⟩, by simpa using kept⟩
  constructor
  · rw [accounted.made]
    exact placed.begunNodup.filter _
  · intro id finished
    exact ⟨apart id, made_of_finished id finished⟩
  · intro id made later along
    have still := (grows_of_along along).1.subset made
    refine ⟨still, ?_⟩
    rw [(accounted_of_reached (reached.trans along)).made, List.mem_filter] at still
    simpa using still.2
  · intro id withdrawn
    refine ⟨accounted.withdrawn id withdrawn, ?_⟩
    intro later along made
    rw [(accounted_of_reached (reached.trans along)).made, List.mem_filter] at made
    simp [(grows_of_along along).2 withdrawn] at made
  · intro id returned
    obtain ⟨finished, kept⟩ := accounted.returned id returned
    have unwithdrawn : id ∉ state.withdrawn := fun member => kept (accounted.withdrawn id member)
    exact ⟨made_of_finished id finished unwithdrawn, finished, kept⟩

open AwaitedState in
/-- Two writes are cancelled: the first too late, as its native call has begun, the second
while it is queued. -/
theorem awaitedOperations_outcomes_queued :
    ∃ state, awaitedOperations.Reached System.Free state ∧ state.cancelled = [0, 1] ∧
      state.withdrawn = [1] ∧ state.made = [0, 2] ∧ state.Outcomes := by
  have ran : (awaitedOperations.run System.Free awaitedOperations.initial
      [.executor (asyncWrite 7 [0x68]), .executor (.submit 0), .executor (.begin 0),
        .executor (asyncWrite 7 [0x69]), .executor (.submit 1), .executor (asyncEnd 7),
        .executor (.submit 2), .cancel 0, .cancel 1, .propagate 0, .propagate 1,
        .executor (.finish 0), .executor (.begin 0), .executor (.finish 0),
        .executor (.begin 0)]).map (fun state =>
          (state.cancelled, state.withdrawn, state.made)) =
      some ([0, 1], [1], [0, 2]) := by decide +kernel
  obtain ⟨state, ended, seen⟩ := Option.map_eq_some_iff.mp ran
  obtain ⟨cancelled, withdrawn, made⟩ := Prod.mk.inj seen |>.imp_right Prod.mk.inj
  have reached := System.along_of_run ended
  exact ⟨state, reached, cancelled, withdrawn, made, awaitedOperations_outcomes state reached⟩

end ObscuraProto
