import ObscuraProto.Stream.Placement

/-!
# The order of stream operations

One worker per executor keeps the operations of a stream in order.  The fallback
to the default executor does not: it keeps the order when it is taken by an
operation that waits for no earlier one, and no later operation is submitted while
it is outstanding.
-/

namespace ObscuraProto

open Transition Processes

/-- Stages a later operation of a stream and an earlier one may have together. -/
def Stage.Follows : Stage → Stage → Prop
  | _, .finished => True
  | .fetched _, .pending _ | .fetched _, .running _ => True
  | .pending (.executor _), .pending (.executor _) => True
  | .pending (.executor _), .running (.executor _) => True
  | _, _ => False

namespace Stage

variable {stage : Stage} {executor : ExecutorId} {place : Place}

theorem follows_finished (stage : Stage) : stage.Follows .finished := by
  cases stage <;> trivial

/-- Nothing follows an operation that is not submitted. -/
theorem not_follows_fetched (stage : Stage) (executor : ExecutorId) :
    ¬ stage.Follows (.fetched executor) := by
  cases stage with
  | pending place => cases place <;> exact fun follows => follows
  | fetched | running | finished => exact fun follows => follows

theorem Follows.submit (follows : (fetched executor).Follows stage)
    (unqueued : stage ≠ .pending .pool) (idle : stage ≠ .running .pool) :
    (pending (.executor executor)).Follows stage := by
  cases stage with
  | fetched => exact follows
  | pending place | running place =>
      cases place with
      | executor => trivial
      | pool => contradiction
  | finished => trivial

theorem Follows.begin (follows : stage.Follows (.pending place)) :
    stage.Follows (.running place) := by
  cases stage with
  | fetched | running | finished => exact follows
  | pending place => cases place <;> cases ‹Place› <;> exact follows

theorem Follows.poolBegin (follows : (pending .pool).Follows stage) :
    (running .pool).Follows stage := by
  cases stage <;> exact follows

theorem Follows.finish (follows : (running place).Follows stage) : finished.Follows stage := by
  cases stage <;> exact follows

end Stage

namespace StreamState

def streamOf (state : StreamState) (id : OpId) : Option StreamId :=
  state.ops[id]?.map (·.stream)

def SameStream (state : StreamState) (one other : OpId) : Prop :=
  state.streamOf one = state.streamOf other

instance (state : StreamState) : DecidableRel state.SameStream :=
  fun _ _ => inferInstanceAs (Decidable (_ = _))

/-- The operation is with the default executor. -/
def WithPool (state : StreamState) (id : OpId) : Prop :=
  state.stageOf id = some (.pending .pool) ∨ state.stageOf id = some (.running .pool)

instance (state : StreamState) : DecidablePred state.WithPool :=
  fun _ => inferInstanceAs (Decidable (_ ∨ _))

/-- The condition on a step: the fallback is taken when the earlier operations of
the stream are finished, and an operation is submitted when none of them is with
the default executor. -/
def Orderly (state : StreamState) : StreamLabel → Prop
  | .fallback id => ∀ earlier < id, state.SameStream earlier id →
      state.stageOf earlier = some .finished
  | .submit id => ∀ earlier < id, state.SameStream earlier id → ¬ state.WithPool earlier
  | _ => True

instance (state : StreamState) : DecidablePred state.Orderly
  | .fallback _ => inferInstanceAs (Decidable (∀ _, _))
  | .submit _ => inferInstanceAs (Decidable (∀ _, _))
  | .start .. | .begin _ | .finish _ | .poolBegin | .poolFinish _ | .shutdown
  | .shutdownDone => isTrue trivial

/-- Operations of one stream are listed in the order of their starts. -/
def InOrder (state : StreamState) (ids : List OpId) : Prop :=
  ids.Pairwise fun first second => state.SameStream first second → first < second

/-- The native calls of a stream happen one at a time, in the order the operations
were started. -/
def InStartOrder (state : StreamState) : Prop :=
  (∀ earlier later, earlier < later → state.SameStream earlier later → later ∈ state.begun →
    state.stageOf earlier = some .finished) ∧ state.InOrder state.begun

/-- What orderly steps keep. -/
structure InTurn (state : StreamState) : Prop where
  stages : ∀ earlier later before stage, earlier < later → state.SameStream earlier later →
    state.stageOf earlier = some before → state.stageOf later = some stage → stage.Follows before
  queue : ∀ executor, state.InOrder (state.queueOf (.executor executor))
  begun : state.InOrder state.begun

variable {state next : StreamState} {id one other : OpId} {op : StreamOp} {ids : List OpId}
  {stage before after : Stage}

theorem InOrder.of_same (inOrder : state.InOrder ids)
    (same : ∀ one ∈ ids, ∀ other ∈ ids, next.SameStream one other → state.SameStream one other) :
    next.InOrder ids :=
  inOrder.imp_of_mem fun first second known together => known (same _ first _ second together)

theorem inOrder_concat (inOrder : state.InOrder ids)
    (last : ∀ other ∈ ids, state.SameStream other id → other < id) :
    state.InOrder (ids ++ [id]) := by
  refine List.pairwise_append.mpr ⟨inOrder, List.pairwise_singleton _ _, ?_⟩
  intro other listed final isLast
  rw [List.mem_singleton.mp isLast]
  exact last other listed

/-- An operation that cannot come after another of its stream was started before it. -/
theorem InTurn.lt_of_not_follows (inTurn : state.InTurn) (same : state.SameStream one other)
    (foundOne : state.stageOf one = some before) (foundOther : state.stageOf other = some stage)
    (apart : before ≠ stage) (overtakes : ¬ before.Follows stage) : one < other := by
  rcases Nat.lt_trichotomy one other with earlier | rfl | later
  · exact earlier
  · rw [foundOne] at foundOther
    cases foundOther
    exact absurd rfl apart
  · exact absurd (inTurn.stages other one stage before later same.symm foundOther foundOne)
      overtakes

/-! ## Looking up after a step -/

section Lookup

variable {executors : List StreamExecutor} {current closing : Option ExecutorId}
  {poolQueue begun : List OpId}

theorem streamOf_move (started : state.ops[id]? = some op) (other : OpId) :
    streamOf ⟨state.ops.set id ⟨op.stream, op.call, stage⟩, executors, current, closing,
        poolQueue, begun⟩ other =
      state.streamOf other := by
  simp only [streamOf, getElem?_set_of_found started]
  split
  · next same => simp [same, started]
  · rfl

theorem streamOf_add (known : other < state.ops.length) :
    streamOf ⟨state.ops ++ [op], executors, current, closing, poolQueue, begun⟩ other =
      state.streamOf other := by
  simp only [streamOf, List.getElem?_append_left known]

theorem lt_length_of_stage (found : state.stageOf id = some stage) : id < state.ops.length := by
  by_contra beyond
  simp [stageOf, List.getElem?_eq_none (Nat.le_of_not_lt beyond)] at found

end Lookup

/-! ## One step -/

theorem follows_of_ready {stream : StreamId} (ready : state.fetching stream = false)
    (ofStream : state.streamOf id = some stream) (found : state.stageOf id = some stage)
    (executor : ExecutorId) : (Stage.fetched executor).Follows stage := by
  cases started : state.ops[id]? with
  | none => simp [stageOf, started] at found
  | some op =>
      simp only [stageOf, streamOf, started, Option.map_some, Option.some.injEq]
        at found ofStream
      subst found
      cases isFetched : op.stage with
      | fetched executor =>
          have found := List.any_eq_false.mp ready op (List.mem_of_getElem? started)
          simp [ofStream, isFetched] at found
      | pending | running | finished => trivial

/-- A new operation of a stream with none between fetching and submitting. -/
theorem InTurn.add (inTurn : state.InTurn) (placed : state.Placed) {executor : ExecutorId}
    (ops : next.ops = state.ops ++ [op]) (fetched : op.stage = .fetched executor)
    (ready : state.fetching op.stream = false)
    (queues : ∀ place, next.queueOf place = state.queueOf place)
    (begun : next.begun = state.begun) : next.InTurn := by
  obtain ⟨ops, executors, current, closing, poolQueue, begun⟩ := next
  subst ops begun
  have old : ∀ one other, one < state.ops.length → other < state.ops.length →
      SameStream ⟨state.ops ++ [op], executors, current, closing, poolQueue, state.begun⟩
        one other → state.SameStream one other := by
    intro one other knownOne knownOther same
    rwa [SameStream, streamOf_add knownOne, streamOf_add knownOther] at same
  constructor
  · intro earlier later before stage precedes same foundEarlier foundLater
    rw [stageOf_add] at foundEarlier foundLater
    split at foundLater
    · next isFresh =>
        subst isFresh
        rw [if_neg (Nat.ne_of_lt precedes)] at foundEarlier
        rw [SameStream, streamOf_add precedes] at same
        cases foundLater
        rw [fetched]
        apply follows_of_ready ready (same.trans _) foundEarlier
        simp [streamOf]
    · have knownLater := lt_length_of_stage foundLater
      have knownEarlier := Nat.lt_trans precedes knownLater
      rw [if_neg (Nat.ne_of_lt knownEarlier)] at foundEarlier
      exact inTurn.stages earlier later before stage precedes
        (old earlier later knownEarlier knownLater same) foundEarlier foundLater
  · intro executor
    rw [queues]
    apply (inTurn.queue executor).of_same
    intro one listedOne other listedOther
    exact old one other (lt_length_of_stage ((placed.queued _ one).mp listedOne))
      (lt_length_of_stage ((placed.queued _ other).mp listedOther))
  · apply inTurn.begun.of_same
    intro one listedOne other listedOther
    obtain ⟨_, foundOne, -⟩ := (placed.begun one).mp listedOne
    obtain ⟨_, foundOther, -⟩ := (placed.begun other).mp listedOther
    exact old one other (lt_length_of_stage foundOne) (lt_length_of_stage foundOther)

/-- An operation comes to a new stage. -/
theorem InTurn.move (inTurn : state.InTurn) (moving : state.stageOf id = some before)
    (streams : ∀ other, next.streamOf other = state.streamOf other)
    (stages : ∀ other, next.stageOf other =
      if other = id then some after else state.stageOf other)
    (ahead : ∀ other stage, other < id → state.SameStream other id →
      state.stageOf other = some stage → after.Follows stage)
    (behind : ∀ stage : Stage, stage.Follows before → stage.Follows after)
    (queue : ∀ executor, state.InOrder (next.queueOf (.executor executor)))
    (begun : state.InOrder next.begun) : next.InTurn where
  stages earlier later before stage precedes same foundEarlier foundLater := by
    rw [SameStream, streams, streams] at same
    rw [stages] at foundEarlier foundLater
    split at foundLater
    · next isLater =>
        subst isLater
        cases foundLater
        rw [if_neg (Nat.ne_of_lt precedes)] at foundEarlier
        exact ahead earlier before precedes same foundEarlier
    · split at foundEarlier
      · next isEarlier =>
          subst isEarlier
          cases foundEarlier
          exact behind stage (inTurn.stages _ later _ stage precedes same moving foundLater)
      · exact inTurn.stages earlier later before stage precedes same foundEarlier foundLater
  queue executor := (queue executor).of_same fun _ _ _ _ same => by
    rwa [SameStream, streams, streams] at same
  begun := begun.of_same fun _ _ _ _ same => by
    rwa [SameStream, streams, streams] at same

/-- The first operation of an executor's queue, its worker being idle, waits for
no earlier one. -/
theorem InTurn.finished_of_first (inTurn : state.InTurn) (registry : state.Registry)
    (placed : state.Placed) {executor : ExecutorId} {queue : List OpId}
    (first : state.queueOf (.executor executor) = id :: queue)
    (idle : state.workerOf executor = none) (earlier : OpId) (precedes : earlier < id)
    (same : state.SameStream earlier id) (found : state.stageOf earlier = some stage) :
    stage = .finished := by
  have listed : id ∈ state.queueOf (.executor executor) := by simp [first]
  have current := registry.current_of_queued listed
  have pending := (placed.queued _ id).mp listed
  have follows := inTurn.stages earlier id stage _ precedes same found pending
  cases stage with
  | finished => rfl
  | fetched other => exact follows.elim
  | pending place =>
      cases place with
      | pool => exact follows.elim
      | executor other =>
          have behind := (placed.queued _ earlier).mpr found
          have alike := registry.current_of_queued behind
          rw [current] at alike
          cases alike
          have sorted := inTurn.queue executor
          rw [first] at behind sorted
          rcases List.mem_cons.mp behind with rfl | behind
          · exact absurd precedes (Nat.lt_irrefl _)
          · have later := (List.pairwise_cons.mp sorted).1 earlier behind same.symm
            exact absurd later (Nat.lt_asymm precedes)
  | running place =>
      cases place with
      | pool => exact follows.elim
      | executor other =>
          have working := (placed.working other earlier).mpr found
          have alike := registry.current_of_working working
          rw [current] at alike
          cases alike
          rw [idle] at working
          cases working

/-- A native call begins after the ones of the earlier operations. -/
theorem InTurn.begun_concat (inTurn : state.InTurn) (placed : state.Placed) {place : Place}
    (pending : state.stageOf id = some (.pending place)) :
    state.InOrder (state.begun ++ [id]) := by
  apply inOrder_concat inTurn.begun
  intro other listed same
  obtain ⟨stage, found, begun⟩ := (placed.begun other).mp listed
  apply inTurn.lt_of_not_follows same found pending
  · intro alike
    subst alike
    exact begun
  · cases stage with
    | fetched | pending => exact begun.elim
    | running | finished => exact fun follows => follows

theorem inTurn_initial : streamExecutor.initial.InTurn where
  stages earlier later before stage precedes same found := by
    simp [streamExecutor, stageOf] at found
  queue executor := by simp [streamExecutor, queueOf, InOrder]
  begun := List.Pairwise.nil

theorem InTurn.step {label : StreamLabel} (inTurn : state.InTurn) (registry : state.Registry)
    (placed : state.Placed) (orderly : state.Orderly label)
    (stepped : streamExecutor.step state label = some next) : next.InTurn := by
  cases streamSteps_of_step stepped with
  | startCurrent unlocked ready current found accepting =>
      exact inTurn.add placed rfl rfl ready (fun _ => rfl) rfl
  | startNew unlocked ready shut =>
      exact inTurn.add placed rfl rfl ready queueOf_create rfl
  | @submit id op executorId executor started fetched found accepting =>
      have moving := (stageOf_of_found started).trans (congrArg some fetched)
      refine inTurn.move moving (streamOf_move started) (stageOf_move started)
        (fun other stage precedes same foundOther => ?_)
        (fun stage follows => absurd follows (stage.not_follows_fetched _)) (fun other => ?_)
        inTurn.begun
      · have elsewhere := orderly other precedes same
        exact (inTurn.stages other id stage _ precedes same foundOther moving).submit
          (fun isQueued => elsewhere (.inl (isQueued ▸ foundOther)))
          (fun isRunning => elsewhere (.inr (isRunning ▸ foundOther)))
      · rw [queueOf_set found]
        split
        · rw [← queueOf_of_found found]
          apply inOrder_concat (inTurn.queue executorId)
          intro other listed same
          exact inTurn.lt_of_not_follows same ((placed.queued _ other).mp listed) moving
            (by simp) (Stage.not_follows_fetched _ _)
        · exact inTurn.queue other
  | @fallback id op executorId executor started fetched found refusing =>
      have moving := (stageOf_of_found started).trans (congrArg some fetched)
      refine inTurn.move moving (streamOf_move started) (stageOf_move started)
        (fun other stage precedes same foundOther => ?_)
        (fun stage follows => absurd follows (stage.not_follows_fetched _)) inTurn.queue
        inTurn.begun
      have finished := orderly other precedes same
      rw [foundOther] at finished
      cases finished
      exact Stage.follows_finished _
  | @begin executorId accepting id queue op found started =>
      have first := queueOf_of_found found
      have moving := (placed.queued (.executor executorId) id).mp (by simp [first])
      refine inTurn.move moving (streamOf_move started) (stageOf_move started)
        (fun other stage precedes same foundOther => ?_) (fun _ follows => follows.begin)
        (fun other => ?_) (inTurn.begun_concat placed moving)
      · rw [inTurn.finished_of_first registry placed first (workerOf_of_found found) other
          precedes same foundOther]
        exact Stage.follows_finished _
      · rw [queueOf_set found]
        split
        · have sorted := inTurn.queue executorId
          rw [first] at sorted
          exact (List.pairwise_cons.mp sorted).2
        · exact inTurn.queue other
  | @finish executorId accepting id queue op found started =>
      have moving := (placed.working executorId id).mp (workerOf_of_found found)
      refine inTurn.move moving (streamOf_move started) (stageOf_move started)
        (fun other stage precedes same foundOther => ?_)
        (fun stage _ => stage.follows_finished) (fun other => ?_) inTurn.begun
      · exact (inTurn.stages other id stage _ precedes same foundOther moving).finish
      · rw [queueOf_set_of_same (by exact found) (by rfl)]
        exact inTurn.queue other
  | @poolBegin id queue op first started =>
      have moving := (placed.queued .pool id).mp (by simp [queueOf, first])
      refine inTurn.move moving (streamOf_move started) (stageOf_move started)
        (fun other stage precedes same foundOther => ?_) (fun _ follows => follows.begin)
        inTurn.queue (inTurn.begun_concat placed moving)
      exact (inTurn.stages other id stage _ precedes same foundOther moving).poolBegin
  | @poolFinish id op started running =>
      have moving := (stageOf_of_found started).trans (congrArg some running)
      refine inTurn.move moving (streamOf_move started) (stageOf_move started)
        (fun other stage precedes same foundOther => ?_)
        (fun stage _ => stage.follows_finished) inTurn.queue inTurn.begun
      exact (inTurn.stages other id stage _ precedes same foundOther moving).finish
  | shutdown unlocked current found accepting =>
      constructor
      · exact inTurn.stages
      · intro other
        rw [queueOf_set_of_same (by exact found) (by rfl)]
        exact inTurn.queue other
      · exact inTurn.begun
  | shutdownDone closing done => exact ⟨inTurn.stages, inTurn.queue, inTurn.begun⟩

theorem inTurn_of_reached (reached : streamExecutor.Reached Orderly state) : state.InTurn :=
  reached.invariant_of InTurn
    (fun _ reached => And.intro (registry_of_reached reached) (placed_of_reached reached))
    inTurn_initial
    fun _ _ _ known inTurn orderly stepped => inTurn.step known.1 known.2 orderly stepped

theorem InTurn.inStartOrder (inTurn : state.InTurn) (placed : state.Placed) :
    state.InStartOrder := by
  constructor
  · intro earlier later precedes same listed
    obtain ⟨stage, found, begun⟩ := (placed.begun later).mp listed
    cases foundEarlier : state.stageOf earlier with
    | none =>
        have known := lt_length_of_stage found
        simp [stageOf, Nat.lt_trans precedes known] at foundEarlier
    | some before =>
        have follows := inTurn.stages earlier later before stage precedes same foundEarlier found
        cases stage with
        | fetched | pending => exact begun.elim
        | running | finished => cases before <;> first | rfl | exact follows.elim
  · exact inTurn.begun

/-! ## After a step that is not orderly -/

/-- An orderly step of the operations already started. -/
def Settling (state : StreamState) : StreamLabel → Prop
  | .start .. => False
  | label => state.Orderly label

/-- The default executor begins its queue, and another operation stays unfinished. -/
theorem along_pool (earlier : OpId) {ahead rest : List OpId}
    (reached : streamExecutor.Reached System.Free state)
    (queued : state.poolQueue = ahead ++ id :: rest)
    (unfinished : state.stageOf earlier ≠ some .finished) :
    ∃ later, streamExecutor.Along Settling state later ∧ id ∈ later.begun ∧
      (∀ other, later.streamOf other = state.streamOf other) ∧
      later.stageOf earlier ≠ some .finished := by
  induction ahead generalizing state with
  | nil =>
      have pending := ((placed_of_reached reached).queued .pool id).mp (by simp [queueOf, queued])
      have started := List.getElem?_eq_getElem (lt_length_of_stage pending)
      refine ⟨_, .take .refl .poolBegin trivial (StreamSteps.poolBegin queued started).step,
        by simp, streamOf_move started, ?_⟩
      rw [stageOf_move started]
      split
      · simp
      · exact unfinished
  | cons head ahead ih =>
      have pending := ((placed_of_reached reached).queued .pool head).mp
        (by simp [queueOf, queued])
      have started := List.getElem?_eq_getElem (lt_length_of_stage pending)
      have taken := (StreamSteps.poolBegin queued started).step
      obtain ⟨later, along, listed, streams, kept⟩ := ih (.step reached trivial taken) rfl <| by
        rw [stageOf_move started]
        split
        · simp
        · exact unfinished
      refine ⟨later, (System.Along.refl.take .poolBegin trivial taken).trans along, listed,
        fun other => ?_, kept⟩
      rw [streams, streamOf_move started]

/-- The worker of an executor finishes what it runs. -/
theorem along_idle {earlier : OpId} {executorId : ExecutorId} {accepting : Bool}
    {queue : List OpId} {running : Option OpId}
    (reached : streamExecutor.Reached System.Free state)
    (found : state.executors[executorId]? = some ⟨accepting, queue, running⟩)
    (elsewhere : state.WithPool earlier) :
    ∃ later, streamExecutor.Along Settling state later ∧
      later.executors[executorId]? = some ⟨accepting, queue, none⟩ ∧
      (∀ other, later.streamOf other = state.streamOf other) ∧ later.WithPool earlier := by
  cases running with
  | none => exact ⟨state, .refl, found, fun _ => rfl, elsewhere⟩
  | some active =>
      have working := ((placed_of_reached reached).working executorId active).mp
        (workerOf_of_found found)
      have started := List.getElem?_eq_getElem (lt_length_of_stage working)
      have apart : earlier ≠ active := by
        intro same
        subst same
        simp [WithPool, working] at elsewhere
      refine ⟨_, .take .refl (.finish executorId) trivial (StreamSteps.finish found started).step,
        by simp [getElem?_set_of_found found], streamOf_move started, ?_⟩
      simpa only [WithPool, stageOf_move started, if_neg apart] using elsewhere

/-- An idle worker begins the first operation of its queue. -/
theorem along_begin {earlier : OpId} {executorId : ExecutorId} {accepting : Bool}
    {rest : List OpId} (reached : streamExecutor.Reached System.Free state)
    (found : state.executors[executorId]? = some ⟨accepting, id :: rest, none⟩)
    (elsewhere : state.WithPool earlier) :
    ∃ later, streamExecutor.Along Settling state later ∧ id ∈ later.begun ∧
      later.executors[executorId]? = some ⟨accepting, rest, some id⟩ ∧
      (∀ other, later.streamOf other = state.streamOf other) ∧ later.WithPool earlier := by
  have pending := ((placed_of_reached reached).queued (.executor executorId) id).mp
    (by simp [queueOf_of_found found])
  have started := List.getElem?_eq_getElem (lt_length_of_stage pending)
  have apart : earlier ≠ id := by
    intro same
    subst same
    simp [WithPool, pending] at elsewhere
  refine ⟨_, .take .refl (.begin executorId) trivial (StreamSteps.begin found started).step,
    by simp, by simp [getElem?_set_of_found found], streamOf_move started, ?_⟩
  simpa only [WithPool, stageOf_move started, if_neg apart] using elsewhere

/-- The worker of an executor comes to an operation of its queue. -/
theorem along_executor (earlier : OpId) {executorId : ExecutorId} {accepting : Bool}
    {running : Option OpId} {ahead rest : List OpId}
    (reached : streamExecutor.Reached System.Free state)
    (found : state.executors[executorId]? = some ⟨accepting, ahead ++ id :: rest, running⟩)
    (elsewhere : state.WithPool earlier) :
    ∃ later, streamExecutor.Along Settling state later ∧ id ∈ later.begun ∧
      (∀ other, later.streamOf other = state.streamOf other) ∧ later.WithPool earlier := by
  induction ahead generalizing state running with
  | nil =>
      obtain ⟨free, idling, foundFree, streams, kept⟩ := along_idle reached found elsewhere
      obtain ⟨next, taken, listed, -, same, still⟩ :=
        along_begin (reached.trans idling.free) foundFree kept
      exact ⟨next, idling.trans taken, listed, fun other => (same other).trans (streams other),
        still⟩
  | cons head ahead ih =>
      obtain ⟨free, idling, foundFree, streams, kept⟩ := along_idle reached found elsewhere
      obtain ⟨next, taken, -, foundNext, same, still⟩ :=
        along_begin (reached.trans idling.free) foundFree kept
      obtain ⟨later, along, listed, samer, final⟩ :=
        ih ((reached.trans idling.free).trans taken.free) foundNext still
      exact ⟨later, (idling.trans taken).trans along, listed,
        fun other => (samer other).trans ((same other).trans (streams other)), final⟩

/-- The condition is not too strong: after any other step, some run of orderly steps
breaks the order. -/
theorem exists_out_of_order {allowed : StreamState → StreamLabel → Prop} {label : StreamLabel}
    (reached : streamExecutor.Reached allowed state) (broken : ¬ state.Orderly label)
    (stepped : streamExecutor.step state label = some next) :
    ∃ later, streamExecutor.Along Settling next later ∧ ¬ later.InStartOrder := by
  have free : streamExecutor.Reached System.Free next :=
    .step reached.free trivial stepped
  cases streamSteps_of_step stepped with
  | @submit id op executorId executor started fetched found accepting =>
      simp only [Orderly, not_forall] at broken
      obtain ⟨earlier, precedes, same, outstanding⟩ := broken
      obtain ⟨later, along, listed, streams, still⟩ :=
        along_executor earlier free
          ((getElem?_set_of_found found _ executorId).trans (if_pos rfl)) <| by
          simpa only [WithPool, stageOf_move started, if_neg (Nat.ne_of_lt precedes)]
            using not_not.mp outstanding
      refine ⟨later, along, ?_⟩
      intro ordered
      have finished := ordered.1 earlier id precedes
        (by simpa only [SameStream, streams, streamOf_move started] using same) listed
      simp [WithPool, finished] at still
  | @fallback id op executorId executor started fetched found refusing =>
      simp only [Orderly, not_forall] at broken
      obtain ⟨earlier, precedes, same, unfinished⟩ := broken
      obtain ⟨later, along, listed, streams, still⟩ :=
        along_pool earlier free (show _ = state.poolQueue ++ id :: [] from rfl) <| by
          rw [stageOf_move started, if_neg (Nat.ne_of_lt precedes)]
          exact unfinished
      refine ⟨later, along, fun ordered => still (ordered.1 earlier id precedes ?_ listed)⟩
      simpa only [SameStream, streams, streamOf_move started] using same
  | _ => exact absurd trivial broken

end StreamState

open StreamState in
/-- In a run of orderly steps, the native calls of every stream happen one at a
time, in the order the operations were started. -/
theorem streamOps_inStartOrder {state : StreamState}
    (reached : streamExecutor.Reached Orderly state) : state.InStartOrder :=
  (inTurn_of_reached reached).inStartOrder (placed_of_reached reached)

open StreamState in
/-- A write, a shutdown that meets the end after its `_get_executor()`, and a write
on another stream with the next executor. -/
theorem streamOps_inStartOrder_fallback :
    ∃ state, streamExecutor.Reached Orderly state ∧ state.begun = [0, 1, 2] ∧
      state.InStartOrder := by
  have ran : streamExecutor.run Orderly streamExecutor.initial
      [asyncWrite 7 [0x68, 0x69], .submit 0, .begin 0, asyncEnd 7, .finish 0, .shutdown,
        .fallback 1, .poolBegin, .shutdownDone, asyncWrite 8 [0x21], .submit 2, .begin 1] =
      some
        { ops :=
            [⟨7, .write [0x68, 0x69], .finished⟩, ⟨7, .end, .running .pool⟩,
              ⟨8, .write [0x21], .running (.executor 1)⟩]
          executors := [{ accepting := false }, { running := some 2 }]
          current := some 1
          begun := [0, 1, 2] } := by decide
  have reached := System.along_of_run ran
  exact ⟨_, reached, rfl, streamOps_inStartOrder reached⟩

open StreamState in
/-- An end that goes to the default executor overtakes a queued write. -/
theorem streamOps_end_overtakes_write :
    ¬ ∀ state, streamExecutor.Reached System.Free state → state.InStartOrder := by
  intro always
  have ran : streamExecutor.run System.Free streamExecutor.initial
      [asyncWrite 7 [0x68], .submit 0, .begin 0, asyncWrite 7 [0x69], .submit 1, asyncEnd 7,
        .shutdown, .fallback 2, .poolBegin, .finish 0, .begin 0] =
      some
        { ops :=
            [⟨7, .write [0x68], .finished⟩, ⟨7, .write [0x69], .running (.executor 0)⟩,
              ⟨7, .end, .running .pool⟩]
          executors := [{ accepting := false, running := some 1 }]
          current := some 0
          closing := some 0
          begun := [0, 2, 1] } := by decide
  have ordered := always _ (System.along_of_run ran)
  exact absurd (ordered.1 1 2 (by decide) (by decide) (by decide)) (by decide)

end ObscuraProto
