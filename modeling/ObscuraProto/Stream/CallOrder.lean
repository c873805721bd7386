import ObscuraProto.Stream.SyncCalls

/-!
# The order of mixed stream calls

The calls of a stream stay in order when each synchronous one is made after everything
before it has ended, and no operation is started while a synchronous call is being made.
-/

namespace ObscuraProto

open Transition Processes

namespace CallState

variable {state next : CallState} {id : OpId} {index : Nat} {call first second : NativeCall}

/-- The condition on starting an operation: no synchronous call of the stream is being
made. -/
def Unhindered (state : CallState) : StreamLabel → Prop
  | .start stream _ => ∀ call ∈ state.made, state.streamOf call = some stream →
      call.op? = none → state.HasEnded call
  | _ => True

instance (state : CallState) : DecidablePred state.Unhindered
  | .start .. => inferInstanceAs (Decidable (∀ _ ∈ _, _))
  | .submit _ | .fallback _ | .begin _ | .finish _ | .poolBegin | .poolFinish _ | .shutdown
  | .shutdownDone => isTrue trivial

/-- The condition on a step: the executors stay orderly, and the synchronous calls of a
stream have its native calls to themselves. -/
def Orderly (state : CallState) : CallLabel → Prop
  | .executor label => state.executors.Orderly label ∧ state.Unhindered label
  | .call stream _ => ∀ call ∈ state.made, state.streamOf call = some stream →
      state.HasEnded call
  | .returns _ => True

instance (state : CallState) : DecidablePred state.Orderly
  | .executor _ => inferInstanceAs (Decidable (_ ∧ _))
  | .call .. => inferInstanceAs (Decidable (∀ _ ∈ _, _))
  | .returns _ => isTrue trivial

/-- The native calls of a stream happen one at a time, in the order they were asked for. -/
def InCallOrder (state : CallState) : Prop :=
  Turns.TakenInTurn state.SameStream state.HasEnded state.made state.begun

/-! ## Orderly steps -/

/-- A synchronous call and another call of the stream never wait for each other: the
earlier one has ended when the later one is made. -/
def Separated (state : CallState) : Prop :=
  state.made.Pairwise fun first second => state.SameStream first second →
    first.op? = none ∨ second.op? = none → state.HasEnded first

theorem Separated.ended (separated : state.Separated) (pair : [first, second].Sublist state.made)
    (together : state.SameStream first second) (mixed : first.op? = none ∨ second.op? = none) :
    state.HasEnded first :=
  List.pairwise_iff_forall_sublist.mp separated pair together mixed

theorem Separated.extend (separated : state.Separated) (extended : state.Extends next)
    (recorded : state.Recorded) :
    state.made.Pairwise fun first second => next.SameStream first second →
      first.op? = none ∨ second.op? = none → next.HasEnded first :=
  separated.imp_of_mem fun firstMade secondMade ends together mixed =>
    extended.ended _ (ends (extended.same recorded firstMade secondMade together) mixed)

theorem Separated.step {label : CallLabel} (separated : state.Separated)
    (recorded : state.Recorded) (placed : state.executors.Placed)
    (orderly : state.Orderly label) (taken : streamCalls.step state label = some next) :
    next.Separated := by
  have extended := extends_of_step placed taken
  have before := separated.extend extended recorded
  cases steps_of_step placed taken with
  | begin | neither | returns => exact before
  | @start stream call stage executors stepped ops begun =>
      refine List.pairwise_append.mpr ⟨before, List.pairwise_singleton _ _, ?_⟩
      intro first asked last isLast together mixed
      rw [List.mem_singleton.mp isLast] at together mixed
      obtain ⟨owner, known⟩ := recorded.streamOf asked
      rw [SameStream, extended.streams first owner known] at together
      have same : owner = stream := by
        simpa [CallState.streamOf, StreamState.streamOf, ops] using together
      have isSync : first.op? = none := by simpa [NativeCall.op?] using mixed
      exact extended.ended first (orderly.2 first asked (same ▸ known) isSync)
  | @call stream call =>
      refine List.pairwise_append.mpr ⟨before, List.pairwise_singleton _ _, ?_⟩
      intro first asked last isLast together mixed
      rw [List.mem_singleton.mp isLast] at together
      obtain ⟨owner, known⟩ := recorded.streamOf asked
      rw [SameStream, extended.streams first owner known] at together
      have same : owner = stream := by simpa [CallState.streamOf] using together
      exact extended.ended first (orderly first asked (same ▸ known))

theorem separated_of_reached (reached : streamCalls.Reached Orderly state) : state.Separated :=
  reached.invariant_of Separated
    (fun _ reached => And.intro (recorded_of_reached reached) (placed_of_reached reached))
    List.Pairwise.nil
    fun _ _ _ known separated orderly taken => separated.step known.1 known.2 orderly taken

theorem InCallOrder.extend (inOrder : state.InCallOrder) (extended : state.Extends next)
    (recorded : state.Recorded) :
    Turns.TakenInTurn next.SameStream next.HasEnded state.made state.begun :=
  inOrder.mono
    (fun _ firstMade _ secondMade => extended.same recorded firstMade secondMade)
    fun call _ => extended.ended call

theorem SameStream.swap (together : state.SameStream first second) :
    state.SameStream second first :=
  Eq.symm together

/-- A native call of an operation begins when the calls before it have ended. -/
theorem ended_before_op (recorded : state.Recorded) (separated : state.Separated)
    (inStartOrder : state.executors.InStartOrder) (begun : id ∈ state.executors.begun)
    (pair : [first, .op id].Sublist state.made) (together : state.SameStream first (.op id)) :
    state.HasEnded first := by
  cases first with
  | op earlier =>
      exact inStartOrder.1 earlier id (recorded.lt_of_pair pair) together begun
  | sync index =>
      exact separated.ended pair together (.inl rfl)

theorem InCallOrder.step {label : CallLabel} (inOrder : state.InCallOrder)
    (recorded : state.Recorded) (placed : state.executors.Placed)
    (recordedNext : next.Recorded) (separatedNext : next.Separated)
    (inStartOrder : next.executors.InStartOrder)
    (taken : streamCalls.step state label = some next) : next.InCallOrder := by
  have before := InCallOrder.extend inOrder (extends_of_step placed taken) recorded
  cases steps_of_step placed taken with
  | start stepped ops begun =>
      apply before.make
      intro started
      have known := recorded.op_made.mp (inOrder.known _ started)
      exact Nat.lt_irrefl _ known
  | @begin label executors id place stepped ops begun pending running =>
      apply before.begin (fun _ _ => SameStream.swap)
      · exact recorded.op_made.mpr (StreamState.lt_length_of_stage pending)
      · simp [HasEnded, running]
      · intro started
        obtain ⟨stage, found, begun⟩ := (placed.begun id).mp (recorded.op_begun.mp started)
        rw [pending] at found
        cases found
        exact begun
      · intro first pair together
        exact ended_before_op recordedNext separatedNext inStartOrder (by simp [begun]) pair
          together
  | neither | returns => exact before
  | call =>
      have fresh : .sync state.syncCalls.length ∉ state.begun := by
        intro started
        have known := (recorded.syncs _).mp (inOrder.known _ started)
        exact Nat.lt_irrefl _ known
      apply (before.make fresh).begin (fun _ _ => SameStream.swap)
      · simp
      · simp [HasEnded]
      · exact fresh
      · intro first pair together
        exact separatedNext.ended pair together (.inr rfl)

theorem inCallOrder_of_reached (reached : streamCalls.Reached Orderly state) :
    state.InCallOrder := by
  induction reached with
  | refl => exact Turns.nil_takenInTurn
  | @step middle last label before orderly taken ih =>
      have after := before.step orderly taken
      have executors : streamExecutor.Reached StreamState.Orderly last.executors :=
        executors_of_along (fun _ _ orderly => orderly.1) after
      exact InCallOrder.step ih (recorded_of_reached before) (placed_of_reached before)
        (recorded_of_reached after) (separated_of_reached after)
        ((StreamState.inTurn_of_reached executors).inStartOrder
          (StreamState.placed_of_reached executors)) taken

/-! ## After a step that is not orderly -/

/-- An operation whose executor is shut down goes to the default executor, which comes
to it. -/
theorem exists_begun_of_refused {executors : StreamState} {op : StreamOp}
    {executorId : ExecutorId} {executor : StreamExecutor}
    (reached : streamExecutor.Reached System.Free executors)
    (found : executors.executors[executorId]? = some executor)
    (refusing : executor.accepting = false) (started : executors.ops[id]? = some op)
    (fetched : op.stage = .fetched executorId) (alone : executors.Orderly (.fallback id)) :
    ∃ later, streamExecutor.Along StreamState.Settling executors later ∧ id ∈ later.begun := by
  have turned := (StreamSteps.fallback started fetched found refusing).step
  obtain ⟨later, along, listed, -⟩ :=
    StreamState.along_pool id (reached.step trivial turned)
      (show _ = executors.poolQueue ++ id :: [] from rfl) <| by
      rw [StreamState.stageOf_move started, if_pos rfl]
      simp
  exact ⟨later, (System.Along.take .refl (.fallback id) alone turned).trans along, listed⟩

/-- A shutdown may come before the submission of an operation. -/
theorem exists_begun_of_fetched {executors : StreamState} {op : StreamOp}
    {executorId : ExecutorId} {executor : StreamExecutor}
    (reached : streamExecutor.Reached System.Free executors)
    (unlocked : executors.closing = none) (current : executors.current = some executorId)
    (found : executors.executors[executorId]? = some executor)
    (accepting : executor.accepting = true) (started : executors.ops[id]? = some op)
    (fetched : op.stage = .fetched executorId) (alone : executors.Orderly (.fallback id)) :
    ∃ later, streamExecutor.Along StreamState.Settling executors later ∧ id ∈ later.begun := by
  have shut := (StreamSteps.shutdown unlocked current found accepting).step
  have closed := (getElem?_set_of_found found { executor with accepting := false }
    executorId).trans (if_pos rfl)
  obtain ⟨later, along, listed⟩ :=
    exists_begun_of_refused (reached.step trivial shut) closed rfl started fetched alone
  exact ⟨later, (System.Along.take .refl .shutdown trivial shut).trans along, listed⟩

/-- The fallback is orderly for an operation started when the others of its stream are
finished. -/
theorem orderly_fallback_of_start {executors after : StreamState} {op : StreamOp}
    (ops : after.ops = executors.ops ++ [op])
    (settled : ∀ id, executors.streamOf id = some op.stream →
      executors.stageOf id = some .finished) :
    after.Orderly (.fallback executors.ops.length) := by
  obtain ⟨ops, executors, current, closing, poolQueue, begun⟩ := after
  subst ops
  intro earlier precedes same
  rw [StreamState.stageOf_add, if_neg (Nat.ne_of_lt precedes)]
  apply settled
  rw [StreamState.SameStream, StreamState.streamOf_add precedes] at same
  exact same.trans (by simp [StreamState.streamOf])

/-- Such an operation may begin next. -/
theorem exists_begun_of_start {executors after : StreamState} {stream : StreamId}
    {call : StreamCall} (reached : streamExecutor.Reached System.Free executors)
    (taken : streamExecutor.step executors (.start stream call) = some after)
    (settled : ∀ id, executors.streamOf id = some stream →
      executors.stageOf id = some .finished) :
    ∃ later, streamExecutor.Along StreamState.Settling after later ∧
      executors.ops.length ∈ later.begun := by
  have free := reached.take _ trivial taken
  cases streamSteps_of_step taken with
  | startCurrent unlocked ready current found accepting =>
      exact exists_begun_of_fetched free unlocked current found accepting
        List.getElem?_concat_length rfl (orderly_fallback_of_start rfl settled)
  | startNew unlocked ready shut =>
      exact exists_begun_of_fetched free unlocked rfl List.getElem?_concat_length rfl
        List.getElem?_concat_length rfl (orderly_fallback_of_start rfl settled)

theorem orderly_of_settling {label : StreamLabel} (settling : state.executors.Settling label) :
    state.Orderly (.executor label) := by
  cases label with
  | start => exact settling.elim
  | submit | fallback | begin | finish | poolBegin | poolFinish | shutdown | shutdownDone =>
      exact ⟨settling, trivial⟩

/-- The executors take such steps among the synchronous calls too. -/
theorem exists_along {executors : StreamState}
    (along : streamExecutor.Along StreamState.Settling state.executors executors) :
    ∃ later, streamCalls.Along Orderly state later ∧ later.executors = executors ∧
      later.syncCalls = state.syncCalls := by
  induction along with
  | refl => exact ⟨state, .refl, rfl, rfl⟩
  | @step before after label _ settling taken ih =>
      obtain ⟨middle, ran, rfl, same⟩ := ih
      exact ⟨_, ran.take (.executor label) (orderly_of_settling settling)
        (Option.map_eq_some_iff.mpr ⟨after, taken, rfl⟩), rfl, same⟩

theorem made_of_along {allowed : CallState → CallLabel → Prop}
    (along : streamCalls.Along allowed state next) : state.made <+: next.made := by
  apply along.invariant fun later => state.made <+: later.made
  · exact List.prefix_rfl
  · intro middle label later grown _ taken
    cases label with
    | executor label =>
        obtain ⟨executors, stepped, rfl⟩ := Option.map_eq_some_iff.mp taken
        exact grown.trans (List.prefix_append ..)
    | call stream call => cases taken; exact grown.trans (List.prefix_append ..)
    | returns index =>
        obtain ⟨stream, call, -, rfl⟩ := returns_of_step taken
        exact grown

theorem InCallOrder.executors (inOrder : state.InCallOrder) (recorded : state.Recorded)
    (placed : state.executors.Placed) : state.executors.InStartOrder := by
  constructor
  · intro earlier later precedes same listed
    obtain ⟨stage, found, -⟩ := (placed.begun later).mp listed
    have pair := recorded.pair_of_lt precedes (StreamState.lt_length_of_stage found)
    have ended : state.HasEnded (.op earlier) :=
      Turns.TakenInTurn.ended_of_pair inOrder pair same (recorded.op_begun.mpr listed)
    exact ended
  · rw [StreamState.InOrder, ← recorded.begun, List.pairwise_filterMap]
    apply inOrder.inOrder.imp
    intro first second pair earlier isFirst later isLater same
    cases first with
    | sync => cases isFirst
    | op => cases second with
      | sync => cases isLater
      | op => cases isFirst; cases isLater; exact recorded.lt_of_pair (pair same)

theorem extends_of_along {allowed permitted : CallState → CallLabel → Prop}
    (reached : streamCalls.Reached allowed state)
    (along : streamCalls.Along permitted state next) :
    state.Extends next := by
  induction along with
  | refl => exact ⟨fun _ _ found => found, fun _ ended => ended⟩
  | step before permitted taken ih =>
      have last := extends_of_step (placed_of_reached (reached.free.trans before.free)) taken
      exact ⟨fun call stream found => last.streams call stream (ih.streams call stream found),
        fun call ended => last.ended call (ih.ended call ended)⟩

theorem start_of_step {stream : StreamId} {native : StreamCall}
    (taken : streamCalls.step state (.executor (.start stream native)) = some next) :
    streamExecutor.step state.executors (.start stream native) = some next.executors ∧
      next.syncCalls = state.syncCalls ∧
      next.made = state.made ++ [.op state.executors.ops.length] ∧
      next.streamOf (.op state.executors.ops.length) = some stream := by
  obtain ⟨executors, stepped, rfl⟩ := Option.map_eq_some_iff.mp taken
  refine ⟨stepped, rfl, ?_⟩
  have started : streamExecutor.step state.executors (.start stream native) = some executors :=
    stepped
  cases streamSteps_of_step started with
  | startCurrent | startNew => simp [startedBy, streamOf, StreamState.streamOf]

/-- The operations of a stream are finished during a synchronous call on it. -/
theorem finished_of_called {stream : StreamId} (recorded : state.Recorded)
    (separated : state.Separated) (asked : .sync index ∈ state.made)
    (ofStream : state.streamOf (.sync index) = some stream)
    (unfinished : ¬ state.HasEnded (.sync index))
    (ofOp : state.executors.streamOf id = some stream) :
    state.executors.stageOf id = some .finished := by
  have together : state.SameStream (.op id) (.sync index) := ofOp.trans ofStream.symm
  have started : .op id ∈ state.made := by
    obtain ⟨op, found, -⟩ := Option.map_eq_some_iff.mp ofOp
    exact recorded.op_made.mpr (List.getElem?_eq_some_iff.mp found).1
  rcases Turns.pair_sublist_or started asked (by simp) with before | after
  · exact separated.ended before together (.inr rfl)
  · exact absurd (separated.ended after together.swap (.inl rfl)) unfinished

/-- An operation started during a synchronous call of its stream can begin during it. -/
theorem exists_begun_during {stream : StreamId} {native : StreamCall}
    (reached : streamCalls.Reached Orderly state)
    (taken : streamCalls.step state (.executor (.start stream native)) = some next)
    (asked : .sync index ∈ state.made) (ofStream : state.streamOf (.sync index) = some stream)
    (unfinished : ¬ state.HasEnded (.sync index)) :
    ∃ later, streamCalls.Along Orderly next later ∧ ¬ later.InCallOrder := by
  have reachedNext := reached.free.take _ trivial taken
  have settled : ∀ id, state.executors.streamOf id = some stream →
      state.executors.stageOf id = some .finished := fun id =>
    finished_of_called (recorded_of_reached reached) (separated_of_reached reached) asked
      ofStream unfinished
  obtain ⟨stepped, syncCalls, made, ofOp⟩ := start_of_step taken
  obtain ⟨last, along, listed⟩ :=
    exists_begun_of_start (executors_of_reached reached) stepped settled
  obtain ⟨later, ran, rfl, same⟩ := exists_along along
  refine ⟨later, ran, fun inOrder => unfinished ?_⟩
  have extended := extends_of_along reachedNext ran
  have ofSync := (extends_of_step (placed_of_reached reached) taken).streams _ _ ofStream
  have together : later.SameStream (.sync index) (.op state.executors.ops.length) :=
    (extended.streams _ _ ofSync).trans (extended.streams _ _ ofOp).symm
  have pair : [.sync index, .op state.executors.ops.length].Sublist later.made :=
    (made ▸ Turns.pair_sublist_concat asked _).trans (made_of_along ran).sublist
  have begun := (recorded_of_reached (reachedNext.trans ran.free)).op_begun.mpr listed
  have ended : later.HasEnded (.sync index) :=
    Turns.TakenInTurn.ended_of_pair inOrder pair together begun
  simpa only [HasEnded, same, syncCalls] using ended

theorem hasEnded_of_call {stream : StreamId} {native : StreamCall} (recorded : state.Recorded)
    (taken : streamCalls.step state (.call stream native) = some next)
    (asked : call ∈ state.made) (ended : next.HasEnded call) : state.HasEnded call := by
  cases taken
  cases call with
  | op id => exact ended
  | sync index =>
      have known := (recorded.syncs index).mp asked
      simpa only [HasEnded, List.getElem?_append_left known] using ended

/-- A synchronous call begins at once, before a call that has not ended. -/
theorem not_inCallOrder_of_call {stream : StreamId} {native : StreamCall}
    (reached : streamCalls.Reached Orderly state)
    (taken : streamCalls.step state (.call stream native) = some next)
    (asked : call ∈ state.made) (ofStream : state.streamOf call = some stream)
    (unfinished : ¬ state.HasEnded call) : ¬ next.InCallOrder := by
  intro inOrder
  have extended := extends_of_step (placed_of_reached reached) taken
  have ofSync : next.streamOf (.sync state.syncCalls.length) = some stream := by
    cases taken
    simp [streamOf]
  have together : next.SameStream call (.sync state.syncCalls.length) :=
    (extended.streams call stream ofStream).trans ofSync.symm
  have pair : [call, .sync state.syncCalls.length].Sublist next.made := by
    cases taken
    exact Turns.pair_sublist_concat asked _
  have begun : .sync state.syncCalls.length ∈ next.begun := by
    cases taken
    simp
  have ended := Turns.TakenInTurn.ended_of_pair inOrder pair together begun
  exact unfinished (hasEnded_of_call (recorded_of_reached reached) taken asked ended)

/-- The condition is not too strong: after any other step, some run of orderly steps
breaks the order. -/
theorem exists_out_of_turn {label : CallLabel} (reached : streamCalls.Reached Orderly state)
    (broken : ¬ state.Orderly label) (taken : streamCalls.step state label = some next) :
    ∃ later, streamCalls.Along Orderly next later ∧ ¬ later.InCallOrder := by
  cases label with
  | executor label =>
      by_cases orderly : state.executors.Orderly label
      · have hindered : ¬ state.Unhindered label := fun free => broken ⟨orderly, free⟩
        cases label with
        | start stream native =>
            simp only [Unhindered, not_forall] at hindered
            obtain ⟨call, asked, ofStream, isSync, unfinished⟩ := hindered
            cases call with
            | op => cases isSync
            | sync index => exact exists_begun_during reached taken asked ofStream unfinished
        | submit | fallback | begin | finish | poolBegin | poolFinish | shutdown
        | shutdownDone => exact absurd trivial hindered
      · obtain ⟨last, along, outOfOrder⟩ := StreamState.exists_out_of_order
          (executors_of_reached reached) orderly (executors_of_step taken)
        obtain ⟨later, ran, rfl, -⟩ := exists_along along
        have reachedLater := (reached.free.take _ trivial taken).trans ran.free
        refine ⟨later, ran, fun inOrder => outOfOrder ?_⟩
        exact InCallOrder.executors inOrder (recorded_of_reached reachedLater)
          (placed_of_reached reachedLater)
  | call stream native =>
      simp only [Orderly, not_forall] at broken
      obtain ⟨call, asked, ofStream, unfinished⟩ := broken
      exact ⟨next, .refl, not_inCallOrder_of_call reached taken asked ofStream unfinished⟩
  | returns index => exact absurd trivial broken

end CallState

open CallState in
/-- In a run of orderly steps, the native calls of every stream, synchronous ones among
them, happen one at a time, in the order they were asked for; after any other step orderly
ones can break this order. -/
theorem streamCalls_inCallOrder {state : CallState}
    (reached : streamCalls.Reached Orderly state) :
    state.InCallOrder ∧ ∀ label next, ¬ state.Orderly label →
      streamCalls.step state label = some next →
        ∃ later, streamCalls.Along Orderly next later ∧ ¬ later.InCallOrder := by
  refine ⟨inCallOrder_of_reached reached, fun label next broken taken => ?_⟩
  exact exists_out_of_turn reached broken taken

open CallState in
/-- A write through the executor, a synchronous one after it, and an end through the
executor. -/
theorem streamCalls_inCallOrder_mixed :
    ∃ state, streamCalls.Reached Orderly state ∧ state.begun = [.op 0, .sync 0, .op 1] ∧
      state.InCallOrder ∧ ∀ label next, ¬ state.Orderly label →
        streamCalls.step state label = some next →
          ∃ later, streamCalls.Along Orderly next later ∧ ¬ later.InCallOrder := by
  have ran : (streamCalls.run Orderly streamCalls.initial
      [.executor (asyncWrite 7 [0x68]), .executor (.submit 0), .executor (.begin 0),
        .executor (.finish 0), Stream.write 7 [0x69], .returns 0, .executor (asyncEnd 7),
        .executor (.submit 1), .executor (.begin 0)]).map (·.begun) =
      some [.op 0, .sync 0, .op 1] := by decide +kernel
  obtain ⟨state, ended, begun⟩ := Option.map_eq_some_iff.mp ran
  have reached := System.along_of_run ended
  exact ⟨state, reached, begun, streamCalls_inCallOrder reached⟩

end ObscuraProto
