import Mathlib.Data.List.Nodup
import ObscuraProto.Bridge.SingleUse

/-!
# The asyncio side of a request settles once

`_fetch` runs on a pool thread or, when `submit()` raises, on a thread of its own, and
posts its outcome to the loop.  There it meets an asyncio future that an expired or
cancelled caller may have cancelled; `_publish` tests nothing else.  The history of a
run tells what was produced for each call and how often its future was settled.
-/

namespace ObscuraProto

open Transition Processes

theorem Call.deadline_publish (call : Call) (outcome : Reply) :
    (call.publish outcome).deadline = call.deadline := by
  rw [publish_eq]
  split <;> rfl

/-- Where the `_fetch` of a call runs. -/
inductive Submission where
  /-- Not handed over yet. -/
  | pending
  | pool
  /-- `submit()` raised `RuntimeError`. -/
  | oneOffThread
  deriving DecidableEq

namespace AwaitState

/-- `result_future.done()`. -/
def isDone (state : AwaitState) (id : CallId) : Bool :=
  state.calls[id]?.any (·.result != .pending)

/-- The calls whose futures are done after a step and were not before. -/
def becameDone (before after : AwaitState) : List CallId :=
  (List.range after.calls.length).filter fun id => after.isDone id && !before.isDone id

/-- The call whose `_publish` raises in a step. -/
def refusedBy (state : AwaitState) : AwaitLabel → List CallId
  | .publish =>
      match state.callbacks with
      | (id, outcome) :: _ =>
          match state.calls[id]? with
          | some call =>
              match call.result.publish outcome with
              | .ok _ => []
              | .error _ => [id]
          | none => []
      | [] => []
  | _ => []

/-- What `ready()` raises, the single-use check raises, or `get()` returns or raises in
a step of `_fetch`. -/
def producedBy (state : AwaitState) : AwaitLabel → List (CallId × Reply)
  | .act id (.poll undefined) =>
      match state.ready undefined with
      | .ok _ => []
      | .error e => [(id, .error e)]
  | .act id .claim => if state.consumed then [(id, .error singleUse)] else []
  | .act id .get =>
      if state.valid then state.reply.toList.map fun reply => (id, reply)
      else [(id, .error noState)]
  | _ => []

/-- The call that times out in a step: `wait_for` expires, or `_fetch` reads the clock
after the deadline. -/
def timedOutBy (state : AwaitState) : AwaitLabel → List CallId
  | .act id .expire => [id]
  | .act id .check => if state.Expired id then [id] else []
  | _ => []

/-- The call whose caller is cancelled in a step. -/
def cancelledBy : AwaitLabel → List CallId
  | .act id .cancel => [id]
  | _ => []

end AwaitState

/-- Calls with the threads of their `_fetch`, and what has happened to them. -/
structure SettlementState where
  await : AwaitState := {}
  submissions : List Submission := []
  settled : List CallId := []
  refused : List CallId := []
  produced : List (CallId × Reply) := []
  timedOut : List CallId := []
  cancelled : List CallId := []
  deriving DecidableEq

inductive SettlementLabel where
  /-- `submit(_fetch)` succeeds or raises. -/
  | submit (call : CallId) (raises : Bool)
  | await (label : AwaitLabel)

namespace SettlementState

/-- A call goes on only after its `_fetch` was handed over. -/
def submitted (state : SettlementState) : AwaitLabel → Bool
  | .act id _ => state.submissions[id]?.any (· != .pending)
  | _ => true

def submissionsAfter (state : SettlementState) : AwaitLabel → List Submission
  | .start .. => state.submissions ++ [.pending]
  | _ => state.submissions

/-- A step of the calls, written down. -/
def record (state : SettlementState) (label : AwaitLabel) (next : AwaitState) :
    SettlementState where
  await := next
  submissions := state.submissionsAfter label
  settled := state.settled ++ state.await.becameDone next
  refused := state.refused ++ state.await.refusedBy label
  produced := state.produced ++ state.await.producedBy label
  timedOut := state.timedOut ++ state.await.timedOutBy label
  cancelled := state.cancelled ++ AwaitState.cancelledBy label

def step (state : SettlementState) : SettlementLabel → Option SettlementState
  | .submit id raises =>
      match state.submissions[id]? with
      | some .pending =>
          some { state with
            submissions := state.submissions.set id (if raises then .oneOffThread else .pool) }
      | _ => none
  | .await label =>
      if state.submitted label then (state.await.step label).map (state.record label) else none

/-- The outcomes produced for a call, in order. -/
def producedFor (state : SettlementState) (id : CallId) : List Reply :=
  (state.produced.filter fun entry => entry.1 == id).map Prod.snd

end SettlementState

/-- Calls of `_await_cpp_future` on one fresh `CppPayloadFuture`, on both submission
paths. -/
def settlement : System SettlementState SettlementLabel where
  initial := {}
  step := SettlementState.step

/-! ## What a step does to an asyncio future -/

namespace Acts

variable {state next : AwaitState} {id : CallId} {call after : Call} {action : Action}

/-- A step of a call leaves its future alone or cancels it while it is pending. -/
theorem result_cases (acts : Acts state id call action next after) :
    after.result = call.result ∨ call.result = .pending ∧ after.result = .cancelled := by
  cases acts with
  | expire | cancel =>
      simp only [Call.abandon]
      split
      · next pending => exact .inr ⟨pending, rfl⟩
      · exact .inl rfl
  | begin | pollReady | pollPending | pollFails | sleep | giveUp | claim | refuse | get
  | getInvalid | post | resume => exact .inl rfl

/-- Only a worker that holds an outcome queues it, once. -/
theorem callbacks_cases (acts : Acts state id call action next after) :
    next.callbacks = state.callbacks ∨
      ∃ outcome, call.worker = .publishing outcome ∧
        next.callbacks = state.callbacks ++ [(id, outcome)] := by
  cases acts with
  | post publishing => exact .inr ⟨_, publishing, rfl⟩
  | begin | pollReady | pollPending | pollFails | sleep | giveUp | claim | refuse | get
  | getInvalid | resume | expire | cancel => exact .inl rfl

theorem queued_cases {other : CallId} {outcome : Reply}
    (acts : Acts state id call action next after) (queued : (other, outcome) ∈ next.callbacks) :
    (other, outcome) ∈ state.callbacks ∨ other = id ∧ call.worker = .publishing outcome := by
  rcases acts.callbacks_cases with same | ⟨posted, publishing, extended⟩
  · exact .inl (same ▸ queued)
  · rcases List.mem_append.mp (extended ▸ queued) with before | last
    · exact .inl before
    · cases List.mem_singleton.mp last
      exact .inr ⟨rfl, publishing⟩

theorem done_of_done {outcome : Reply} (acts : Acts state id call action next after)
    (done : after.result = .done outcome) : call.result = .done outcome := by
  rcases acts.result_cases with same | ⟨-, cancelled⟩
  · exact same ▸ done
  · rw [cancelled] at done
    cases done

end Acts

namespace AwaitState

variable {state next : AwaitState} {label : AwaitLabel} {id : CallId}

/-- A queued `_publish` is the only one of its call and finds no outcome set. -/
structure QueuedOnce (state : AwaitState) : Prop where
  nodup : (state.callbacks.map Prod.fst).Nodup
  unset : ∀ id outcome call other, (id, outcome) ∈ state.callbacks →
    state.calls[id]? = some call → call.result ≠ .done other

theorem QueuedOnce.step (once : state.QueuedOnce) (traced : state.Provenance)
    (stepped : awaitFuture.step state label = some next) : next.QueuedOnce := by
  cases steps_of_step stepped with
  | start what timeout =>
      refine ⟨once.nodup, ?_⟩
      intro id outcome call other queued found
      rcases of_getElem?_append found with before | ⟨rfl, -⟩
      · exact once.unset id outcome call other queued before
      · exact absurd (traced.known _ _ queued) (lt_irrefl _)
  | @act acting action before after next known acts =>
      have idle : ∀ outcome, before.worker = .publishing outcome →
          (∀ outcome, (acting, outcome) ∉ state.callbacks) ∧
            ∀ outcome, before.result ≠ .done outcome := by
        intro outcome publishing
        exact traced.unpublished acting before known (by simp [publishing])
      constructor
      · rcases acts.callbacks_cases with same | ⟨outcome, publishing, extended⟩
        · rw [same]
          exact once.nodup
        · rw [extended, List.map_append]
          apply once.nodup.append (List.nodup_singleton _)
          intro id queued isActing
          obtain ⟨⟨other, posted⟩, member, rfl⟩ := List.mem_map.mp queued
          have same : other = acting := List.mem_singleton.mp isActing
          exact (idle outcome publishing).1 posted (same ▸ member)
      · intro id outcome call other queued found done
        rcases of_getElem?_set found with ⟨rfl, rfl⟩ | ⟨apart, found⟩
        · have wasDone := acts.done_of_done done
          rcases acts.queued_cases queued with earlier | ⟨-, publishing⟩
          · exact once.unset id outcome before other earlier known wasDone
          · exact (idle outcome publishing).2 other wasDone
        · rcases acts.queued_cases queued with earlier | ⟨same, -⟩
          · exact once.unset id outcome call other earlier found done
          · exact apart same
  | @publish acting outcome callbacks queued =>
      have nodup := once.nodup
      rw [queued, List.map_cons, List.nodup_cons] at nodup
      refine ⟨nodup.2, ?_⟩
      intro id posted call other later found
      have apart : acting ≠ id := by
        intro same
        exact nodup.1 (List.mem_map.mpr ⟨(id, posted), later, same.symm⟩)
      simp only [List.getElem?_modify_ne _ _ apart] at found
      exact once.unset id posted call other (queued ▸ List.mem_cons_of_mem _ later) found
  | arrive waiting => exact ⟨once.nodup, once.unset⟩
  | tick positive => exact ⟨once.nodup, once.unset⟩

/-- `_publish` never finds an outcome already set. -/
theorem QueuedOnce.refusedBy (once : state.QueuedOnce) (label : AwaitLabel) :
    state.refusedBy label = [] := by
  cases label with
  | publish =>
      rw [AwaitState.refusedBy]
      split
      · next id outcome callbacks queued =>
          split
          · next call found =>
              split
              · rfl
              · next e raised =>
                  cases result : call.result with
                  | pending | cancelled => simp [ResultFuture.publish, result] at raised
                  | done other =>
                      have unset := once.unset id outcome call other
                        (queued ▸ List.mem_cons_self) found
                      exact absurd result unset
          · rfl
      · rfl
  | start | act | arrive | tick => rfl

end AwaitState

/-! ## Deadlines -/

namespace Acts

variable {state next : AwaitState} {id : CallId} {call after : Call} {action : Action}

/-- A step changes neither what the caller would see of an outcome nor its deadline. -/
theorem call_kept (acts : Acts state id call action next after) :
    after.endingOf = call.endingOf ∧ after.deadline = call.deadline := by
  cases acts <;> exact ⟨rfl, rfl⟩

theorem now_kept (acts : Acts state id call action next after) : next.now = state.now := by
  cases acts <;> rfl

end Acts

namespace AwaitState

variable {state next : AwaitState} {label : AwaitLabel} {id : CallId}

theorem now_le_of_step (stepped : awaitFuture.step state label = some next) :
    state.now ≤ next.now := by
  cases steps_of_step stepped with
  | act found acts => exact acts.now_kept.ge
  | tick positive => exact le_add_of_nonneg_right positive.le
  | start | publish | arrive => exact le_rfl

end AwaitState

namespace SettlementState

variable {state next : SettlementState} {id : CallId}

/-! ## Histories -/

/-- What holds at first and is kept by every step written down holds in every state
reached; a hand-over to a thread changes nothing else. -/
theorem history_invariant (holds : SettlementState → Prop)
    (reached : settlement.Reached System.Free state) (initially : holds {})
    (submitted : ∀ state submissions, holds state → holds { state with submissions })
    (recorded : ∀ state label next, awaitFuture.Reached System.Free state.await → holds state →
      awaitFuture.step state.await label = some next → holds (state.record label next)) :
    holds state ∧ awaitFuture.Reached System.Free state.await := by
  apply reached.invariant fun state => holds state ∧ awaitFuture.Reached System.Free state.await
  · exact ⟨initially, .refl⟩
  · intro state label next known _ stepped
    obtain ⟨before, running⟩ := known
    cases label with
    | submit id raises =>
        simp only [settlement, SettlementState.step] at stepped
        split at stepped <;> cases stepped
        exact ⟨submitted state _ before, running⟩
    | await label =>
        simp only [settlement, SettlementState.step] at stepped
        split at stepped
        · obtain ⟨after, taken, rfl⟩ := Option.map_eq_some_iff.mp stepped
          exact ⟨recorded state label after running before taken, running.take label trivial taken⟩
        · cases stepped

end SettlementState

end ObscuraProto
