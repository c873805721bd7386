import ObscuraProto.Bridge.Settlement

/-!
# Every caller gets what was produced for it

At most one outcome is produced for a call.  It travels from the worker over the loop's
queue to the asyncio future, and the caller that waits long enough takes it from there.
-/

namespace ObscuraProto

open Transition Processes

/-! ## What a step produces -/

namespace Acts

variable {state next : AwaitState} {id : CallId} {call after : Call} {action : Action}

/-- A worker gets hold of its outcome as something is produced for its call or the call
times out; no other step produces anything. -/
theorem outcome_cases (acts : Acts state id call action next after)
    (found : state.calls[id]? = some call) :
    state.producedBy (.act id action) = [] ∧ (call.worker.Settled → after.worker.Settled) ∧
        (∀ outcome, after.worker = .publishing outcome → call.worker = .publishing outcome) ∨
      ¬ call.worker.Settled ∧ next.callbacks = state.callbacks ∧ after.result = call.result ∧
        ∃ outcome, after.worker = .publishing outcome ∧
          (state.producedBy (.act id action) = [(id, outcome)] ∨
            state.producedBy (.act id action) = [] ∧ id ∈ state.timedOutBy (.act id action)) := by
  cases acts with
  | begin queued => exact .inl ⟨rfl, by simp [queued, Worker.Settled], by simp⟩
  | pollReady polling answer | pollPending polling answer =>
      refine .inl ⟨?_, by simp [polling, Worker.Settled], by simp⟩
      simp [AwaitState.producedBy, answer]
  | @pollFails _ _ e polling answer =>
      refine .inr ⟨by simp [polling, Worker.Settled], rfl, rfl, .error e, rfl, .inl ?_⟩
      simp [AwaitState.producedBy, answer]
  | sleep checking early => exact .inl ⟨rfl, by simp [checking, Worker.Settled], by simp⟩
  | giveUp checking limited late =>
      refine .inr ⟨by simp [checking, Worker.Settled], rfl, rfl, _, rfl, .inr ⟨rfl, ?_⟩⟩
      have expired : state.Expired id :=
        AwaitState.expired_iff.mpr ⟨call, _, found, limited, late⟩
      simp [AwaitState.timedOutBy, expired]
  | claim consuming unused =>
      refine .inl ⟨?_, by simp [consuming, Worker.Settled], by simp⟩
      simp [AwaitState.producedBy, unused]
  | refuse consuming used =>
      refine .inr ⟨by simp [consuming, Worker.Settled], rfl, rfl, _, rfl, .inl ?_⟩
      simp [AwaitState.producedBy, used]
  | get claimed valid arrived =>
      refine .inr ⟨by simp [claimed, Worker.Settled], rfl, rfl, _, rfl, .inl ?_⟩
      simp [AwaitState.producedBy, valid, arrived]
  | getInvalid claimed invalid =>
      refine .inr ⟨by simp [claimed, Worker.Settled], rfl, rfl, _, rfl, .inl ?_⟩
      simp [AwaitState.producedBy, invalid]
  | post publishing => exact .inl ⟨rfl, fun _ => .inl rfl, by simp⟩
  | resume | expire | cancel =>
      exact .inl ⟨rfl, fun settled => settled, fun outcome publishing => publishing⟩

/-- A caller ends with the outcome of its future, by expiry or by cancellation. -/
theorem ending_cases (acts : Acts state id call action next after) :
    after.ending = call.ending ∨ id ∈ state.timedOutBy (.act id action) ∨
      id ∈ AwaitState.cancelledBy (.act id action) ∨
        ∃ outcome, after.result = .done outcome ∧
          after.ending = some (after.endingOf outcome) := by
  cases acts with
  | resume waiting done => exact .inr (.inr (.inr ⟨_, done, rfl⟩))
  | expire => exact .inr (.inl (List.mem_singleton_self _))
  | cancel => exact .inr (.inr (.inl (List.mem_singleton_self _)))
  | begin | pollReady | pollPending | pollFails | sleep | giveUp | claim | refuse | get
  | getInvalid | post => exact .inl rfl

/-- A caller that ends leaves a future that is done. -/
theorem done_of_ended (acts : Acts state id call action next after)
    (before : call.ending ≠ none → call.result ≠ .pending) (ended : after.ending ≠ none) :
    after.result ≠ .pending := by
  cases acts with
  | resume waiting done => simp [done]
  | expire | cancel =>
      simp only [Call.abandon]
      split
      · simp
      · next done => exact done
  | begin | pollReady | pollPending | pollFails | sleep | giveUp | claim | refuse | get
  | getInvalid | post => exact before ended

end Acts

namespace SettlementState

variable {state next : SettlementState} {id : CallId}

/-! ## Every outcome has been produced -/

/-- At most one outcome is produced for a call, and it is the one on its way to the
caller, unless the call has timed out. -/
structure Accounted (state : SettlementState) : Prop where
  known : ∀ id outcome, (id, outcome) ∈ state.produced → id < state.await.calls.length
  unproduced : ∀ id call, state.await.calls[id]? = some call → ¬ call.worker.Settled →
    state.producedFor id = []
  carried : ∀ id call outcome, state.await.calls[id]? = some call →
    state.await.Carries id call outcome →
      state.producedFor id = [outcome] ∨ id ∈ state.timedOut

variable {label : AwaitLabel} {after : AwaitState} {call : Call} {outcome : Reply}

theorem mem_timedOut_record (timedOut : id ∈ state.timedOut) :
    id ∈ (state.record label after).timedOut :=
  List.mem_append_left _ timedOut

theorem mem_producedBy {action : Action} {acting : CallId}
    (member : (id, outcome) ∈ state.await.producedBy (.act acting action)) : id = acting := by
  cases action with
  | poll undefined =>
      simp only [AwaitState.producedBy] at member
      split at member
      · cases member
      · exact congrArg Prod.fst (List.mem_singleton.mp member)
  | claim =>
      simp only [AwaitState.producedBy] at member
      split at member
      · exact congrArg Prod.fst (List.mem_singleton.mp member)
      · cases member
  | get =>
      simp only [AwaitState.producedBy] at member
      split at member
      · obtain ⟨reply, -, same⟩ := List.mem_map.mp member
        exact congrArg Prod.fst same.symm
      · exact congrArg Prod.fst (List.mem_singleton.mp member)
  | begin | check | post | resume | expire | cancel => cases member

/-- A step that produces nothing for a call leaves what was produced for it. -/
theorem producedFor_record_of_silent
    (silent : ∀ outcome, (id, outcome) ∉ state.await.producedBy label) :
    (state.record label after).producedFor id = state.producedFor id := by
  have none : (state.await.producedBy label).filter (fun entry => entry.1 == id) = [] := by
    rw [List.filter_eq_nil_iff]
    rintro ⟨other, outcome⟩ member same
    exact silent outcome (beq_iff_eq.mp same ▸ member)
  simp only [producedFor, record, List.filter_append, none, List.append_nil]

theorem producedFor_record_of_produced
    (produced : state.await.producedBy label = [(id, outcome)]) :
    (state.record label after).producedFor id = state.producedFor id ++ [outcome] := by
  simp [producedFor, record, produced]

theorem Accounted.producedFor_fresh (accounted : state.Accounted) :
    state.producedFor state.await.calls.length = [] := by
  rw [producedFor, List.map_eq_nil_iff, List.filter_eq_nil_iff]
  intro entry member same
  have bound := accounted.known entry.1 entry.2 member
  exact absurd (beq_iff_eq.mp same ▸ bound) (lt_irrefl _)

theorem Accounted.start (accounted : state.Accounted) (traced : state.await.Provenance)
    (what : String) (timeout : Option Seconds) :
    (state.record (.start what timeout) { state.await with
      calls := state.await.calls ++ [state.await.newCall what timeout] }).Accounted := by
  have silent : ∀ id outcome, (id, outcome) ∉ state.await.producedBy (.start what timeout) :=
    fun id outcome => List.not_mem_nil
  constructor
  · intro id outcome produced
    rcases List.mem_append.mp produced with before | new
    · have bound := accounted.known id outcome before
      simp only [record, List.length_append]
      exact Nat.lt_add_right _ bound
    · exact absurd new (silent id outcome)
  · intro id call found working
    rw [producedFor_record_of_silent (silent id)]
    rcases of_getElem?_append found with before | ⟨rfl, -⟩
    · exact accounted.unproduced id call before working
    · exact accounted.producedFor_fresh
  · intro id call outcome found carried
    rw [producedFor_record_of_silent (silent id)]
    rcases of_getElem?_append found with before | ⟨rfl, rfl⟩
    · exact (accounted.carried id call outcome before carried).imp_right mem_timedOut_record
    · rcases carried with publishing | queued | done
      · cases publishing
      · exact absurd (traced.known _ _ queued) (lt_irrefl _)
      · cases done

/-- Nothing a call carries after its own step is new, unless it was produced in that
step or the call timed out. -/
theorem Accounted.acting {action : Action} {next : AwaitState} {later : Call}
    (accounted : state.Accounted) (traced : state.await.Provenance)
    (found : state.await.calls[id]? = some call)
    (acts : Acts state.await id call action next later) (after : AwaitState) :
    (¬ later.worker.Settled → (state.record (.act id action) after).producedFor id = []) ∧
      ∀ outcome, later.worker = .publishing outcome ∨ (id, outcome) ∈ next.callbacks ∨
        later.result = .done outcome →
        (state.record (.act id action) after).producedFor id = [outcome] ∨
          id ∈ (state.record (.act id action) after).timedOut := by
  rcases acts.outcome_cases found with
    ⟨silent, settled, publishing⟩ | ⟨working, callbacks, result, outcome, holds, source⟩
  · have same : (state.record (.act id action) after).producedFor id = state.producedFor id :=
      producedFor_record_of_silent fun outcome => silent ▸ List.not_mem_nil
    rw [same]
    refine ⟨fun working => accounted.unproduced id call found fun before =>
      working (settled before), ?_⟩
    intro outcome carried
    have before : state.await.Carries id call outcome := by
      rcases carried with isPublishing | queued | done
      · exact .inl (publishing outcome isPublishing)
      · rcases acts.queued_cases queued with before | ⟨-, wasPublishing⟩
        · exact .inr (.inl before)
        · exact .inl wasPublishing
      · exact .inr (.inr (acts.done_of_done done))
    exact (accounted.carried id call outcome found before).imp_right mem_timedOut_record
  · refine ⟨fun unsettled => absurd (.inr ⟨outcome, holds⟩) unsettled, ?_⟩
    intro other carried
    have idle := traced.unpublished id call found fun finished => working (.inl finished)
    have same : other = outcome := by
      rcases carried with isPublishing | queued | done
      · rw [holds, Worker.publishing.injEq] at isPublishing
        exact isPublishing.symm
      · exact absurd (callbacks ▸ queued) (idle.1 other)
      · exact absurd (result ▸ done) (idle.2 other)
    rcases source with produced | ⟨-, timedOut⟩
    · rw [producedFor_record_of_produced produced, accounted.unproduced id call found working, same]
      exact .inl rfl
    · exact .inr (List.mem_append_right _ timedOut)

theorem Accounted.act {action : Action} {next : AwaitState} {later : Call}
    (accounted : state.Accounted) (traced : state.await.Provenance)
    (found : state.await.calls[id]? = some call)
    (acts : Acts state.await id call action next later) :
    (state.record (.act id action)
      { next with calls := state.await.calls.set id later }).Accounted := by
  have own := accounted.acting traced found acts { next with
    calls := state.await.calls.set id later }
  constructor
  · intro other outcome produced
    simp only [record, List.length_set]
    rcases List.mem_append.mp produced with before | new
    · exact accounted.known other outcome before
    · rw [mem_producedBy new]
      exact (List.getElem?_eq_some_iff.mp found).1
  · intro other current foundOther working
    rcases of_getElem?_set foundOther with ⟨rfl, rfl⟩ | ⟨apart, before⟩
    · exact own.1 working
    · rw [producedFor_record_of_silent fun outcome new => apart (mem_producedBy new)]
      exact accounted.unproduced other current before working
  · intro other current outcome foundOther carried
    rcases of_getElem?_set foundOther with ⟨rfl, rfl⟩ | ⟨apart, before⟩
    · exact own.2 outcome carried
    · rw [producedFor_record_of_silent fun outcome new => apart (mem_producedBy new)]
      have carriedBefore : state.await.Carries other current outcome := by
        rcases carried with publishing | queued | done
        · exact .inl publishing
        · rcases acts.queued_cases queued with before | ⟨same, -⟩
          · exact .inr (.inl before)
          · exact absurd same apart
        · exact .inr (.inr done)
      exact (accounted.carried other current outcome before carriedBefore).imp_right
        mem_timedOut_record

theorem Accounted.publish (accounted : state.Accounted) {callbacks : List (CallId × Reply)}
    (queued : state.await.callbacks = (id, outcome) :: callbacks) :
    (state.record .publish { state.await with
      callbacks, calls := state.await.calls.modify id (·.publish outcome) }).Accounted := by
  have silent : ∀ id outcome, (id, outcome) ∉ state.await.producedBy .publish :=
    fun id outcome => List.not_mem_nil
  constructor
  · intro other posted produced
    simp only [record, List.length_modify]
    exact accounted.known other posted
      ((List.mem_append.mp produced).resolve_right (silent other posted))
  · intro other current found working
    rw [producedFor_record_of_silent (silent other)]
    obtain ⟨before, known, rfl | ⟨-, -, rfl⟩⟩ := AwaitState.of_getElem?_publish found
    · exact accounted.unproduced other current known working
    · exact accounted.unproduced other before known working
  · intro other current posted found carried
    rw [producedFor_record_of_silent (silent other)]
    obtain ⟨before, known, moved⟩ := AwaitState.of_getElem?_publish found
    have carriedBefore : state.await.Carries other before posted := by
      rcases carried with publishing | later | done
      · refine .inl ?_
        rcases moved with rfl | ⟨-, -, rfl⟩ <;> exact publishing
      · exact .inr (.inl (queued ▸ List.mem_cons_of_mem _ later))
      · rcases moved with rfl | ⟨rfl, -, rfl⟩
        · exact .inr (.inr done)
        · cases done
          exact .inr (.inl (queued ▸ List.mem_cons_self))
    exact (accounted.carried other before posted known carriedBefore).imp_right
      mem_timedOut_record

/-- A step that touches no call. -/
theorem Accounted.apart (accounted : state.Accounted)
    (silent : ∀ id outcome, (id, outcome) ∉ state.await.producedBy label)
    (calls : after.calls = state.await.calls)
    (callbacks : after.callbacks = state.await.callbacks) :
    (state.record label after).Accounted := by
  constructor
  · intro id outcome produced
    simp only [record, calls]
    exact accounted.known id outcome
      ((List.mem_append.mp produced).resolve_right (silent id outcome))
  · intro id call found working
    rw [producedFor_record_of_silent (silent id)]
    exact accounted.unproduced id call (calls ▸ found) working
  · intro id call outcome found carried
    rw [producedFor_record_of_silent (silent id)]
    have before : state.await.Carries id call outcome :=
      carried.imp_right (Or.imp_left fun queued => callbacks ▸ queued)
    exact (accounted.carried id call outcome (calls ▸ found) before).imp_right mem_timedOut_record

theorem Accounted.record (accounted : state.Accounted) (traced : state.await.Provenance)
    (stepped : awaitFuture.step state.await label = some after) :
    (state.record label after).Accounted := by
  cases steps_of_step stepped with
  | start what timeout => exact accounted.start traced what timeout
  | act found acts => exact accounted.act traced found acts
  | publish queued => exact accounted.publish queued
  | arrive | tick => exact accounted.apart (fun id outcome => List.not_mem_nil) rfl rfl

theorem accounted_of_reached (reached : settlement.Reached System.Free state) :
    state.Accounted := by
  refine (history_invariant Accounted reached ?_ ?_ ?_).1
  · constructor
    · intro id outcome produced
      cases produced
    · intro id call found
      cases found
    · intro id call outcome found
      cases found
  · intro state submissions accounted
    exact ⟨accounted.known, accounted.unproduced, accounted.carried⟩
  · intro state label next running accounted stepped
    exact accounted.record (AwaitState.provenance_of_reached running) stepped

/-! ## How callers end -/

/-- A caller ends once its future is done: with the outcome set, unless it was cancelled
or timed out. -/
structure Ends (state : SettlementState) (id : CallId) (call : Call) (ending : Ending) :
    Prop where
  done : call.result ≠ .pending
  with_outcome : id ∈ state.cancelled ∨ id ∈ state.timedOut ∨
    ∃ outcome, call.result = .done outcome ∧ ending = call.endingOf outcome

def EndingsKnown (state : SettlementState) : Prop :=
  ∀ id call ending, state.await.calls[id]? = some call → call.ending = some ending →
    state.Ends id call ending

theorem Ends.record {ending : Ending} (ends : state.Ends id call ending) :
    (state.record label after).Ends id call ending where
  done := ends.done
  with_outcome := ends.with_outcome.imp (List.mem_append_left _) (Or.imp_left mem_timedOut_record)

theorem EndingsKnown.act {action : Action} {next : AwaitState} {before later : Call}
    {ending : Ending} (known : state.EndingsKnown) (found : state.await.calls[id]? = some before)
    (acts : Acts state.await id before action next later) (ended : later.ending = some ending) :
    (state.record (.act id action) after).Ends id later ending := by
  constructor
  · exact acts.done_of_ended (fun ended => by
      obtain ⟨ending, ended⟩ := Option.ne_none_iff_exists'.mp ended
      exact (known id before ending found ended).done) (ended ▸ Option.some_ne_none ending)
  · rcases acts.ending_cases with same | timedOut | cancelled | ⟨outcome, done, same⟩
    · refine (known id before ending found (same ▸ ended)).record.with_outcome.imp_right
        (Or.imp_right ?_)
      rintro ⟨outcome, done, rfl⟩
      rcases acts.result_cases with kept | ⟨pending, -⟩
      · exact ⟨outcome, kept.trans done, by rw [acts.call_kept.1]⟩
      · rw [pending] at done
        cases done
    · exact .inr (.inl (List.mem_append_right _ timedOut))
    · exact .inl (List.mem_append_right _ cancelled)
    · rw [ended, Option.some.injEq] at same
      exact .inr (.inr ⟨outcome, done, same⟩)

end SettlementState

/-! ## The request settles once -/

end ObscuraProto
