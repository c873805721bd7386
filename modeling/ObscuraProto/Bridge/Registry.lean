import Mathlib.Data.Finset.Card
import Mathlib.Data.Finset.Dedup
import ObscuraProto.Bridge.Coherence

/-!
# The registry of consumed futures

An entry stands for a live future that was claimed.  Every future is consumed once,
whatever is collected and whichever addresses are used again.
-/

namespace ObscuraProto

open Transition

theorem SettlementState.await_of_reached {state : SettlementState}
    (reached : settlement.Reached System.Free state) :
    awaitFuture.Reached System.Free state.await :=
  (history_invariant (fun _ => True) reached trivial (fun _ _ _ => trivial)
    fun _ _ _ _ _ _ => trivial).2

namespace AwaitState

variable {state next : AwaitState} {id : CallId} {call after : Call}

/-- A call that was refused as a second use had another call before it, unless the
native side itself answers with that error. -/
theorem exists_rival (owned : state.Ownership) (traced : state.Provenance)
    (found : state.calls[id]? = some call) (refused : call.ending = some (.raised singleUse))
    (answered : state.reply ≠ some (.error singleUse)) :
    ∃ other, other ≠ id ∧ state.Owns other := by
  rcases traced.ended id call _ found refused with ⟨outcome, done, same⟩ | same | same
  · have isSingleUse : outcome = .error singleUse := by
      cases outcome with
      | ok payload => cases same
      | error e =>
          simp only [Call.endingOf] at same
          split at same
          · simp [singleUse, Call.timedOut] at same
          · cases same; rfl
    subst isSingleUse
    have settled : ¬ state.Claimed id := by
      rintro ⟨claimer, known, claimed⟩
      rw [found] at known
      cases known
      exact (traced.unpublished id call found (by simp [claimed])).2 _ done
    rcases traced.sourced id call _ found (.inr (.inr done)) with ⟨-, replied⟩ | ⟨notGot, rest⟩
    · exact absurd replied answered
    · have owner : ∃ other, state.Owns other := by
        rcases rest with ⟨-, used⟩ | timedOut | ⟨before, after, other, split, -⟩
        · exact owned.used used
        · simp [singleUse, Call.timedOut] at timedOut
        · exact ⟨other, .inl (by simp [split])⟩
      obtain ⟨other, owns⟩ := owner
      refine ⟨other, ?_, owns⟩
      rintro rfl
      exact owns.elim notGot settled
  · cases same
  · simp [singleUse, Call.timedOut] at same

end AwaitState

namespace FutureObject

/-- A live future that a call has claimed. -/
def Spent (object : FutureObject) : Prop :=
  object.live = true ∧ ∃ id, object.requests.await.Owns id

end FutureObject

/-- The registry does its work: an entry for every live future that was claimed and no
other, one `get()` for each future, and no refusal without an earlier call on the same
future. -/
structure ProcessState.SingleUse (state : ProcessState) : Prop where
  entries : ∀ address, address ∈ state.consumed ↔
    ∃ object ∈ state.objects, object.Spent ∧ object.address = address
  bounded : state.consumed.card ≤ state.objects.countP (·.live)
  once : ∀ object ∈ state.objects, object.requests.await.touches.countP (·.isGet) ≤ 1
  refused : ∀ object ∈ state.objects, ∀ (id : CallId) (call : Call),
    object.requests.await.calls[id]? = some call → call.ending = some (.raised singleUse) →
      object.requests.await.reply ≠ some (.error singleUse) →
        ∃ other, other ≠ id ∧ object.requests.await.Owns other

namespace ProcessState

variable {state : ProcessState}

theorem requests_of_mem (reached : requestProcess.Reached System.Free state)
    {object : FutureObject} (member : object ∈ state.objects) :
    settlement.Reached System.Free object.requests := by
  obtain ⟨future, found⟩ := List.mem_iff_getElem?.mp member
  exact (coherent_of_reached reached).reached future object found

theorem await_of_mem (reached : requestProcess.Reached System.Free state)
    {object : FutureObject} (member : object ∈ state.objects) :
    awaitFuture.Reached System.Free object.requests.await :=
  SettlementState.await_of_reached (requests_of_mem reached member)

/-- An entry belongs to a live future that was claimed. -/
theorem mem_consumed_iff (reached : requestProcess.Reached System.Free state) {address : Address} :
    address ∈ state.consumed ↔
      ∃ object ∈ state.objects, object.Spent ∧ object.address = address := by
  have coherent := coherent_of_reached reached
  have owned : ∀ object ∈ state.objects, object.requests.await.Ownership := fun object member =>
    AwaitState.ownership_of_reached (await_of_mem reached member)
  constructor
  · intro entry
    obtain ⟨future, object, found, live, rfl⟩ := coherent.occupied address entry
    have member := List.mem_of_getElem? found
    have used := (coherent.registered future object found live).mp entry
    exact ⟨object, member, ⟨live, (owned object member).used used⟩, rfl⟩
  · rintro ⟨object, member, ⟨live, owner, owns⟩, rfl⟩
    obtain ⟨future, found⟩ := List.mem_iff_getElem?.mp member
    rw [coherent.registered future object found live]
    by_contra unused
    exact (owned object member).unused (by simpa using unused) owner owns

/-- The registry grows no larger than the number of live futures. -/
theorem card_consumed_le (reached : requestProcess.Reached System.Free state) :
    state.consumed.card ≤ state.objects.countP (·.live) := by
  have within : state.consumed ⊆
      ((state.objects.filter (·.live)).map (·.address)).toFinset := by
    intro address entry
    obtain ⟨object, member, ⟨live, -⟩, rfl⟩ := (mem_consumed_iff reached).mp entry
    rw [List.mem_toFinset]
    exact List.mem_map.mpr ⟨object, List.mem_filter.mpr ⟨member, live⟩, rfl⟩
  calc
    state.consumed.card ≤ ((state.objects.filter (·.live)).map (·.address)).length :=
      (Finset.card_le_card within).trans (List.toFinset_card_le _)
    _ = state.objects.countP (·.live) := by rw [List.length_map, List.countP_eq_length_filter]

end ProcessState

/-- The registry of the process does its work whatever is collected and whichever
addresses are used again. -/
theorem requestProcess_singleUse {state : ProcessState}
    (reached : requestProcess.Reached System.Free state) : state.SingleUse where
  entries _ := ProcessState.mem_consumed_iff reached
  bounded := ProcessState.card_consumed_le reached
  once object member :=
    AwaitState.countP_isGet_le_one (ProcessState.await_of_mem reached member)
  refused object member id call found refused answered := by
    have running := ProcessState.await_of_mem reached member
    exact AwaitState.exists_rival (AwaitState.ownership_of_reached running)
      (AwaitState.provenance_of_reached running) found refused answered

/-- The calls on a future of the process are a run of calls on a future used alone: the
clock is the same, and the registry shows a live future its own use and nothing else. -/
theorem requestProcess_refines {state : ProcessState} {object : FutureObject}
    (reached : requestProcess.Reached System.Free state) (member : object ∈ state.objects) :
    settlement.Reached System.Free object.requests ∧
      object.requests.await.now = state.now ∧
      (object.live = true → object.seeing state.consumed = object.requests) := by
  have coherent := ProcessState.coherent_of_reached reached
  obtain ⟨future, found⟩ := List.mem_iff_getElem?.mp member
  exact ⟨coherent.reached future object found, coherent.clock future object found,
    coherent.seeing_eq found⟩

/-- A future is awaited and collected; the next one gets its address, is awaited on a
thread of its own and is claimed in turn. -/
def reusedAddress : List ProcessLabel :=
  [.create 7, .call 0 "async_request" none, .submit (0, 0) false, .arrive 0 (.ok ⟨0x4302, []⟩),
    .act (0, 0) .begin, .act (0, 0) (.poll (.ok true)), .act (0, 0) .claim, .act (0, 0) .get,
    .act (0, 0) .post, .publish, .act (0, 0) .resume, .tick 1, .collect 0, .create 7,
    .call 1 "async_request" (some ⟨30, "30.0"⟩), .submit (1, 0) true,
    .arrive 1 (.ok ⟨0x4303, []⟩), .act (1, 0) .begin, .act (1, 0) (.poll (.ok true)),
    .act (1, 0) .claim]

theorem requestProcess_refines_reusedAddress :
    ∃ (state : ProcessState) (object : FutureObject), object ∈ state.objects ∧
      object.live = true ∧ state.consumed = {7} ∧
      settlement.Reached System.Free object.requests ∧
      object.requests.await.now = state.now ∧
      (object.live = true → object.seeing state.consumed = object.requests) := by
  have ran : ((requestProcess.run System.Free requestProcess.initial reusedAddress).map
      fun state => (state.consumed, state.objects[1]?.map (·.live))) = some ({7}, some true) := by
    decide +kernel
  obtain ⟨state, taken, observed⟩ := Option.map_eq_some_iff.mp ran
  obtain ⟨consumed, second⟩ := Prod.mk.inj observed
  obtain ⟨object, found, live⟩ := Option.map_eq_some_iff.mp second
  have member := List.mem_of_getElem? found
  exact ⟨state, object, member, live, consumed,
    requestProcess_refines (System.along_of_run taken) member⟩

theorem requestProcess_singleUse_reusedAddress :
    ∃ state : ProcessState, state.objects.map (·.live) = [false, true] ∧ state.consumed = {7} ∧
      state.SingleUse := by
  have ran : ((requestProcess.run System.Free requestProcess.initial reusedAddress).map
      fun state => (state.consumed, state.objects.map (·.live))) = some ({7}, [false, true]) := by
    decide +kernel
  obtain ⟨state, taken, observed⟩ := Option.map_eq_some_iff.mp ran
  obtain ⟨consumed, live⟩ := Prod.mk.inj observed
  exact ⟨state, live, consumed, requestProcess_singleUse (System.along_of_run taken)⟩

end ObscuraProto
