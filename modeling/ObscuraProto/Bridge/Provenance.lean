import ObscuraProto.Bridge.Ownership

/-!
# Where the outcome of a call comes from

Whatever a worker publishes, the loop queues or an asyncio future holds is the
reply obtained by the call's own `get()`, the refusal of the single-use check,
the expiry of its deadline, or what `ready()` raised on a consumed future.
-/

namespace ObscuraProto

open Transition Processes

/-- The worker holds its outcome or has posted it. -/
def Worker.Settled (worker : Worker) : Prop :=
  worker = .finished ∨ ∃ outcome, worker = .publishing outcome

theorem Call.publish_cases (call : Call) (outcome : Reply) :
    call.publish outcome = { call with result := .done outcome } ∧ call.result = .pending ∨
      call.publish outcome = call := by
  rw [Call.publish_eq]
  split
  · next pending => exact .inl ⟨rfl, pending⟩
  · exact .inr rfl

namespace AwaitState

/-- An outcome on its way from the worker of a call to its caller. -/
def Carries (state : AwaitState) (id : CallId) (call : Call) (outcome : Reply) : Prop :=
  call.worker = .publishing outcome ∨ (id, outcome) ∈ state.callbacks ∨
    call.result = .done outcome

/-- The call polled the future after a `get()` on it had begun. -/
def Stale (state : AwaitState) (id : CallId) : Prop :=
  ∃ before after other, state.touches = before ++ .get other :: after ∧ .ready id ∈ after

def Sourced (state : AwaitState) (id : CallId) (call : Call) (outcome : Reply) : Prop :=
  (.get id ∈ state.touches ∧ state.reply = some outcome) ∨
    .get id ∉ state.touches ∧
      (outcome = .error singleUse ∧ state.consumed = true ∨
        outcome = .error call.timedOut ∨ state.Stale id)

/-- What the caller saw is the outcome, unless it left before. -/
def EndedBy (call : Call) (ending : Ending) : Prop :=
  (∃ outcome, call.result = .done outcome ∧ ending = call.endingOf outcome) ∨
    ending = .cancelled ∨ ending = .raised call.timedOut

structure Provenance (state : AwaitState) : Prop where
  known : ∀ id outcome, (id, outcome) ∈ state.callbacks → id < state.calls.length
  unpublished : ∀ id call, state.calls[id]? = some call → call.worker ≠ .finished →
    (∀ outcome, (id, outcome) ∉ state.callbacks) ∧ ∀ outcome, call.result ≠ .done outcome
  settled : ∀ (id : CallId) (call : Call), state.calls[id]? = some call →
    .get id ∈ state.touches → call.worker.Settled
  sourced : ∀ id call outcome, state.calls[id]? = some call →
    state.Carries id call outcome → state.Sourced id call outcome
  ended : ∀ (id : CallId) (call : Call) (ending : Ending), state.calls[id]? = some call →
    call.ending = some ending → EndedBy call ending

variable {state next : AwaitState} {id : CallId} {call after : Call} {outcome : Reply}

theorem Stale.append {touches : List Touch} (stale : state.Stale id)
    (extended : next.touches = state.touches ++ touches) : next.Stale id := by
  obtain ⟨before, after, other, split, polled⟩ := stale
  exact ⟨before, after ++ touches, other, by simp [extended, split], by simp [polled]⟩

theorem Sourced.mono (sourced : state.Sourced id call outcome)
    (gets : .get id ∈ next.touches ↔ .get id ∈ state.touches)
    (reply : ∀ reply, state.reply = some reply → next.reply = some reply)
    (consumed : state.consumed = true → next.consumed = true)
    (stale : state.Stale id → next.Stale id) (timedOut : after.timedOut = call.timedOut) :
    next.Sourced id after outcome := by
  rcases sourced with ⟨got, replied⟩ | ⟨notGot, ⟨refused, used⟩ | expired | polled⟩
  · exact .inl ⟨gets.mpr got, reply _ replied⟩
  · exact .inr ⟨gets.not.mpr notGot, .inl ⟨refused, consumed used⟩⟩
  · exact .inr ⟨gets.not.mpr notGot, .inr (.inl (timedOut ▸ expired))⟩
  · exact .inr ⟨gets.not.mpr notGot, .inr (.inr (stale polled))⟩

/-- A step of one call keeps the provenance when its own outcomes are sourced. -/
theorem Provenance.act (traced : state.Provenance) (found : state.calls[id]? = some call)
    {touches : List Touch} (calls : next.calls = state.calls.set id after)
    (extended : next.touches = state.touches ++ touches)
    (gets : ∀ other, other ≠ id → .get other ∉ touches) (reply : next.reply = state.reply)
    (consumed : state.consumed = true → next.consumed = true)
    (callbacks : ∀ other outcome, (other, outcome) ∈ next.callbacks →
      (other, outcome) ∈ state.callbacks ∨ (other = id ∧ after.worker = .finished))
    (finished : call.worker = .finished → after.worker = .finished)
    (done : ∀ outcome, after.result = .done outcome → call.result = .done outcome)
    (settled : .get id ∈ next.touches → after.worker.Settled)
    (own : ∀ outcome, next.Carries id after outcome → next.Sourced id after outcome)
    (ended : ∀ ending, after.ending = some ending → EndedBy after ending) :
    next.Provenance where
  known other outcome queued := by
    rw [calls, List.length_set]
    rcases callbacks other outcome queued with before | ⟨rfl, -⟩
    · exact traced.known other outcome before
    · exact (List.getElem?_eq_some_iff.mp found).1
  unpublished other current foundOther working := by
    rcases of_getElem?_set (calls ▸ foundOther) with ⟨rfl, rfl⟩ | ⟨apart, before⟩
    · have idle := traced.unpublished other call found fun ended => working (finished ended)
      constructor
      · intro outcome queued
        rcases callbacks other outcome queued with before | ⟨-, ended⟩
        · exact idle.1 outcome before
        · exact working ended
      · intro outcome isDone
        exact idle.2 outcome (done outcome isDone)
    · have idle := traced.unpublished other current before working
      constructor
      · intro outcome queued
        rcases callbacks other outcome queued with before | ⟨same, -⟩
        · exact idle.1 outcome before
        · exact apart same
      · exact idle.2
  settled other current foundOther got := by
    rcases of_getElem?_set (calls ▸ foundOther) with ⟨rfl, rfl⟩ | ⟨apart, before⟩
    · exact settled got
    · rw [extended, List.mem_append] at got
      exact traced.settled other current before (got.resolve_right (gets other apart))
  sourced other current outcome foundOther carried := by
    rcases of_getElem?_set (calls ▸ foundOther) with ⟨rfl, rfl⟩ | ⟨apart, before⟩
    · exact own outcome carried
    · have carriedBefore : state.Carries other current outcome := by
        rcases carried with publishing | queued | isDone
        · exact .inl publishing
        · rcases callbacks other outcome queued with before | ⟨same, -⟩
          · exact .inr (.inl before)
          · exact absurd same apart
        · exact .inr (.inr isDone)
      exact (traced.sourced other current outcome before carriedBefore).mono
        (by simp [extended, gets other apart]) (by simp [reply]) consumed (·.append extended) rfl
  ended other current ending foundOther isEnding := by
    rcases of_getElem?_set (calls ▸ foundOther) with ⟨rfl, rfl⟩ | ⟨apart, before⟩
    · exact ended ending isEnding
    · exact traced.ended other current ending before isEnding

/-- A step of one call that brings no new outcome. -/
theorem Provenance.act_of_same (traced : state.Provenance)
    (found : state.calls[id]? = some call) {touches : List Touch}
    (calls : next.calls = state.calls.set id after)
    (extended : next.touches = state.touches ++ touches)
    (gets : ∀ other, .get other ∉ touches) (reply : next.reply = state.reply)
    (consumed : state.consumed = true → next.consumed = true)
    (callbacks : next.callbacks = state.callbacks)
    (finished : call.worker = .finished → after.worker = .finished)
    (publishing : ∀ outcome, after.worker = .publishing outcome → call.worker = .publishing outcome)
    (done : ∀ outcome, after.result = .done outcome → call.result = .done outcome)
    (settled : call.worker.Settled → after.worker.Settled)
    (timedOut : after.timedOut = call.timedOut)
    (ended : ∀ ending, after.ending = some ending → EndedBy after ending) :
    next.Provenance := by
  have sameGets : .get id ∈ next.touches ↔ .get id ∈ state.touches := by
    simp [extended, gets id]
  refine traced.act found calls extended (fun other _ => gets other) reply consumed
    (fun _ _ queued => .inl (callbacks ▸ queued)) finished done
    (fun got => settled (traced.settled id call found (sameGets.mp got))) ?_ ended
  intro outcome carried
  have before : state.Carries id call outcome := by
    rcases carried with isPublishing | queued | isDone
    · exact .inl (publishing outcome isPublishing)
    · exact .inr (.inl (callbacks ▸ queued))
    · exact .inr (.inr (done outcome isDone))
  exact (traced.sourced id call outcome found before).mono sameGets (by simp [reply])
    consumed (·.append extended) timedOut

/-- A step in which a worker gets hold of its outcome. -/
theorem Provenance.act_of_outcome (traced : state.Provenance)
    (found : state.calls[id]? = some call) {touches : List Touch}
    (calls : next.calls = state.calls.set id { call with worker := .publishing outcome })
    (extended : next.touches = state.touches ++ touches)
    (gets : ∀ other, other ≠ id → .get other ∉ touches) (reply : next.reply = state.reply)
    (consumed : state.consumed = true → next.consumed = true)
    (callbacks : next.callbacks = state.callbacks) (working : ¬ call.worker.Settled)
    (sourced : next.Sourced id call outcome) : next.Provenance := by
  have busy : call.worker ≠ .finished := fun finished => working (.inl finished)
  have idle := traced.unpublished id call found busy
  refine traced.act found calls extended gets reply consumed
    (fun _ _ queued => .inl (callbacks ▸ queued)) (fun finished => absurd finished busy)
    (fun _ isDone => isDone) (fun _ => .inr ⟨outcome, rfl⟩) ?_ (traced.ended id call · found)
  intro carriedOutcome carried
  rcases carried with publishing | queued | isDone
  · cases publishing; exact sourced
  · exact absurd (callbacks ▸ queued) (idle.1 carriedOutcome)
  · exact absurd isDone (idle.2 carriedOutcome)

theorem EndedBy.of_result {ending : Ending} (ended : EndedBy call ending)
    (done : ∀ outcome, call.result = .done outcome → after.result = .done outcome)
    (same : after.timedOut = call.timedOut ∧ after.endingOf = call.endingOf) :
    EndedBy after ending := by
  rcases ended with ⟨outcome, isDone, rfl⟩ | rfl | rfl
  · exact .inl ⟨outcome, done outcome isDone, by rw [same.2]⟩
  · exact .inr (.inl rfl)
  · exact .inr (.inr (by rw [same.1]))

theorem Provenance.start (traced : state.Provenance) (owned : state.Ownership)
    (what : String) (timeout : Option Seconds) :
    ({ state with calls := state.calls ++ [state.newCall what timeout] } :
      AwaitState).Provenance := by
  have unqueued : ∀ outcome, (state.calls.length, outcome) ∉ state.callbacks :=
    fun outcome queued => absurd (traced.known _ _ queued) (lt_irrefl _)
  have notGot : .get state.calls.length ∉ state.touches :=
    fun got => absurd (owned.known _ got) (lt_irrefl _)
  constructor
  · intro id outcome queued
    rw [List.length_append]
    exact lt_of_lt_of_le (traced.known id outcome queued) (Nat.le_add_right _ _)
  · intro id call found working
    rcases of_getElem?_append found with before | ⟨rfl, rfl⟩
    · exact traced.unpublished id call before working
    · exact ⟨unqueued, fun outcome done => nomatch done⟩
  · intro id call found got
    rcases of_getElem?_append found with before | ⟨rfl, rfl⟩
    · exact traced.settled id call before got
    · exact absurd got notGot
  · intro id call outcome found carried
    rcases of_getElem?_append found with before | ⟨rfl, rfl⟩
    · exact traced.sourced id call outcome before carried
    · rcases carried with publishing | queued | done
      · cases publishing
      · exact absurd queued (unqueued outcome)
      · cases done
  · intro id call ending found ended
    rcases of_getElem?_append found with before | ⟨rfl, rfl⟩
    · exact traced.ended id call ending before ended
    · cases ended

/-- A call after a `_publish` is the one before it, or has the outcome now. -/
theorem of_getElem?_publish {calls : List Call} {other : CallId}
    (found : (calls.modify id (·.publish outcome))[other]? = some call) :
    ∃ before, calls[other]? = some before ∧ (call = before ∨
      other = id ∧ before.result = .pending ∧ call = { before with result := .done outcome }) := by
  rw [List.getElem?_modify] at found
  cases known : calls[other]? with
  | none => simp [known] at found
  | some before =>
      refine ⟨before, rfl, ?_⟩
      simp only [known, Option.map_eq_map, Option.map_some, Option.some.injEq] at found
      split at found
      · next same =>
          rcases before.publish_cases outcome with ⟨published, pending⟩ | unchanged
          · exact .inr ⟨same.symm, pending, by rw [← found, published]⟩
          · exact .inl (by rw [← found, unchanged])
      · exact .inl found.symm

/-- Running a queued `_publish` moves an outcome and makes none. -/
theorem Provenance.publish (traced : state.Provenance)
    {callbacks : List (CallId × Reply)} (queued : state.callbacks = (id, outcome) :: callbacks) :
    ({ state with callbacks, calls := state.calls.modify id (·.publish outcome) } :
      AwaitState).Provenance := by
  have rest : ∀ other carried, (other, carried) ∈ callbacks → (other, carried) ∈ state.callbacks :=
    fun _ _ later => queued ▸ List.mem_cons_of_mem _ later
  have head : (id, outcome) ∈ state.callbacks := queued ▸ List.mem_cons_self
  constructor
  · intro other carried later
    rw [List.length_modify]
    exact traced.known other carried (rest other carried later)
  · intro other call found working
    obtain ⟨before, known, rfl | ⟨rfl, pending, rfl⟩⟩ := of_getElem?_publish found
    · have idle := traced.unpublished other call known working
      exact ⟨fun carried later => idle.1 carried (rest other carried later), idle.2⟩
    · exact absurd head ((traced.unpublished other before known working).1 outcome)
  · intro other call found got
    obtain ⟨before, known, rfl | ⟨rfl, pending, rfl⟩⟩ := of_getElem?_publish found
    · exact traced.settled other call known got
    · exact traced.settled other before known got
  · intro other call carriedOutcome found carried
    obtain ⟨before, known, moved⟩ := of_getElem?_publish found
    have carriedBefore : state.Carries other before carriedOutcome := by
      rcases moved with rfl | ⟨rfl, pending, rfl⟩
      · rcases carried with publishing | later | done
        · exact .inl publishing
        · exact .inr (.inl (rest other carriedOutcome later))
        · exact .inr (.inr done)
      · rcases carried with publishing | later | done
        · exact .inl publishing
        · exact .inr (.inl (rest other carriedOutcome later))
        · cases done; exact .inr (.inl head)
    have timedOut : call.timedOut = before.timedOut := by
      rcases moved with rfl | ⟨rfl, pending, rfl⟩ <;> rfl
    exact (traced.sourced other before carriedOutcome known carriedBefore).mono .rfl
      (fun _ replied => replied) (fun used => used) (fun stale => stale) timedOut
  · intro other call ending found ended
    obtain ⟨before, known, rfl | ⟨rfl, pending, rfl⟩⟩ := of_getElem?_publish found
    · exact traced.ended other call ending known ended
    · exact (traced.ended other before ending known ended).of_result
        (fun outcome done => by rw [pending] at done; cases done) ⟨rfl, rfl⟩

/-- Leaving early brings no outcome. -/
theorem Provenance.abandon (traced : state.Provenance) (found : state.calls[id]? = some call)
    {ending : Ending} (early : ending = .cancelled ∨ ending = .raised call.timedOut) :
    ({ state with calls := state.calls.set id (call.abandon ending) } :
      AwaitState).Provenance := by
  refine traced.act_of_same found rfl (List.append_nil _).symm (by simp) rfl (·) rfl (·)
    (fun _ publishing => publishing) ?_ (·) rfl ?_
  · intro outcome done
    simp only [Call.abandon] at done
    split at done
    · cases done
    · exact done
  · intro ending ended
    cases ended
    exact .inr early

/-- Polling a future without shared state comes after a `get()`. -/
theorem Ownership.stale_of_invalid (owned : state.Ownership) (invalid : state.valid = false) :
    (state.touch (.ready id)).Stale id := by
  obtain ⟨before, other, after, split⟩ := owned.exists_get_of_invalid invalid
  exact ⟨before, after ++ [.ready id], other, by simp [touch, split], by simp⟩

/-- Every step keeps the provenance. -/
theorem Provenance.step {label : AwaitLabel} (traced : state.Provenance)
    (owned : state.Ownership) (stepped : awaitFuture.step state label = some next) :
    next.Provenance := by
  cases steps_of_step stepped with
  | start what timeout => exact traced.start owned what timeout
  | publish queued => exact traced.publish queued
  | tick positive =>
      exact ⟨traced.known, traced.unpublished, traced.settled, traced.sourced, traced.ended⟩
  | arrive waiting =>
      refine ⟨traced.known, traced.unpublished, traced.settled, ?_, traced.ended⟩
      intro id call outcome found carried
      refine (traced.sourced id call outcome found carried).mono .rfl ?_ (·) (·) rfl
      intro reply replied
      rw [waiting] at replied
      cases replied
  | @act id action call after next found acts =>
      have noTouch : state.touches = state.touches ++ [] := (List.append_nil _).symm
      have oneTouch : ∀ touch, (state.touch touch).touches = state.touches ++ [touch] :=
        fun _ => rfl
      have notGot : ¬ call.worker.Settled → .get id ∉ state.touches :=
        fun working got => working (traced.settled id call found got)
      have ended := fun ending => traced.ended id call ending found
      cases acts with
      | begin queued =>
          exact traced.act_of_same found rfl noTouch (by simp) rfl (·) rfl (by simp [queued])
            (by simp) (fun _ => (·)) (by simp [queued, Worker.Settled]) rfl ended
      | pollReady polling answer | pollPending polling answer =>
          exact traced.act_of_same found rfl (oneTouch (.ready id)) (by simp) rfl (·) rfl
            (by simp [polling]) (by simp) (fun _ => (·)) (by simp [polling, Worker.Settled])
            rfl ended
      | @pollFails _ _ e polling answer =>
          have working : ¬ call.worker.Settled := by simp [polling, Worker.Settled]
          have invalid : state.valid = false := by
            rw [ready] at answer
            split at answer
            · cases answer
            · next invalid => simpa using invalid
          refine traced.act_of_outcome found rfl (oneTouch (.ready id)) (by simp) rfl (·) rfl
            working (.inr ⟨?_, .inr (.inr (owned.stale_of_invalid invalid))⟩)
          exact (get_mem_touch_ready id).not.mpr (notGot working)
      | sleep checking early =>
          exact traced.act_of_same found rfl noTouch (by simp) rfl (·) rfl (by simp [checking])
            (by simp) (fun _ => (·)) (by simp [checking, Worker.Settled]) rfl ended
      | giveUp checking limited late =>
          have working : ¬ call.worker.Settled := by simp [checking, Worker.Settled]
          exact traced.act_of_outcome found rfl noTouch (by simp) rfl (·) rfl working
            (.inr ⟨notGot working, .inr (.inl rfl)⟩)
      | claim consuming unused =>
          exact traced.act_of_same found rfl noTouch (by simp) rfl (fun _ => rfl) rfl
            (by simp [consuming])
            (by simp) (fun _ => (·)) (by simp [consuming, Worker.Settled]) rfl ended
      | refuse consuming used =>
          have working : ¬ call.worker.Settled := by simp [consuming, Worker.Settled]
          exact traced.act_of_outcome found rfl noTouch (by simp) rfl (·) rfl working
            (.inr ⟨notGot working, .inl ⟨rfl, used⟩⟩)
      | get claimed valid arrived =>
          exact traced.act_of_outcome found rfl (oneTouch (.get id)) (by simp) rfl (·) rfl
            (by simp [claimed, Worker.Settled]) (.inl ⟨by simp [touch], arrived⟩)
      | getInvalid claimed invalid =>
          have valid := owned.claimed_valid id ⟨call, found, claimed⟩
          exact absurd (invalid.symm.trans valid) Bool.false_ne_true
      | @post posted publishing =>
          refine traced.act found rfl noTouch (by simp) rfl (·) ?_ (fun _ => rfl) (fun _ => (·))
            (fun _ => .inl rfl) ?_ ended
          · intro other outcome queued
            rcases List.mem_append.mp queued with before | last
            · exact .inl before
            · simp only [List.mem_singleton, Prod.mk.injEq] at last
              exact .inr ⟨last.1, rfl⟩
          · intro outcome carried
            have before : state.Carries id call outcome := by
              rcases carried with absurdly | queued | done
              · cases absurdly
              · rcases List.mem_append.mp queued with before | last
                · exact .inr (.inl before)
                · simp only [List.mem_singleton, Prod.mk.injEq, true_and] at last
                  exact .inl (last ▸ publishing)
              · exact .inr (.inr done)
            exact (traced.sourced id call outcome found before).mono .rfl (fun _ => (·)) (·)
              (·) rfl
      | resume waiting done =>
          refine traced.act_of_same found rfl noTouch (by simp) rfl (·) rfl (·) (fun _ => (·))
            (fun _ => (·)) (·) rfl ?_
          intro ending ended
          cases ended
          exact .inl ⟨_, done, rfl⟩
      | expire waiting limited late => exact traced.abandon found (.inr rfl)
      | cancel waiting => exact traced.abandon found (.inl rfl)

theorem provenance_initial : awaitFuture.initial.Provenance where
  known id outcome queued := by cases queued
  unpublished id call found := by cases found
  settled id call found := by cases found
  sourced id call outcome found := by cases found
  ended id call ending found := by cases found

/-- In every state of every run the outcomes of all calls are sourced. -/
theorem provenance_of_reached {allowed : AwaitState → AwaitLabel → Prop}
    (reached : awaitFuture.Reached allowed state) : state.Provenance :=
  reached.invariant_of Provenance (fun _ => ownership_of_reached) provenance_initial
    fun _ _ _ owned traced _ stepped => traced.step owned stepped

end AwaitState

end ObscuraProto
