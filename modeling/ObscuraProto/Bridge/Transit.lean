import ObscuraProto.Bridge.Provenance

/-!
# The response between the worker and its caller

While no response is there no worker gets past `ready()`.  A response that a worker has
taken is on its way to the caller until the caller has it or leaves.
-/

namespace ObscuraProto

open Transition Processes

namespace AwaitState

/-- Where the response is before it arrives and after a worker has taken it. -/
structure Transit (state : AwaitState) : Prop where
  unconsumed : state.reply = none → state.consumed = false
  unready : state.reply = none → ∀ (id : CallId) (call : Call), state.calls[id]? = some call →
    call.worker ≠ .consuming
  uncancelled : ∀ (id : CallId) (call : Call), state.calls[id]? = some call →
    call.ending = none → call.result ≠ .cancelled
  carried : ∀ (id : CallId) (call : Call) (reply : Reply), state.calls[id]? = some call →
    call.ending = none → .get id ∈ state.touches → state.reply = some reply →
      state.Carries id call reply

variable {state next : AwaitState} {id : CallId} {call after : Call}

theorem Transit.not_owns (transit : state.Transit) (owned : state.Ownership)
    (waiting : state.reply = none) (id : CallId) : ¬ state.Owns id :=
  owned.unused (transit.unconsumed waiting) id

/-- A future that nobody has consumed has its shared state. -/
theorem Ownership.valid_of_unconsumed (owned : state.Ownership) (unused : state.consumed = false) :
    state.valid = true :=
  owned.valid_iff.mpr fun id got => owned.unused unused id (.inl got)

/-- Without a response `ready()` answers no. -/
theorem Transit.not_ready (transit : state.Transit) (owned : state.Ownership)
    (waiting : state.reply = none) (undefined : Except PyExc Bool) :
    state.ready undefined = .ok false := by
  rw [ready, owned.valid_of_unconsumed (transit.unconsumed waiting), waiting]
  rfl

/-- A step of one call that leaves the others on their way. -/
theorem Transit.act (transit : state.Transit) (calls : next.calls = state.calls.set id after)
    (reply : next.reply = state.reply)
    (unconsumed : state.reply = none → next.consumed = false)
    (gets : ∀ other, other ≠ id → .get other ∈ next.touches → .get other ∈ state.touches)
    (callbacks : ∀ entry ∈ state.callbacks, entry ∈ next.callbacks)
    (unready : state.reply = none → after.worker ≠ .consuming)
    (uncancelled : after.ending = none → after.result ≠ .cancelled)
    (own : ∀ reply, after.ending = none → .get id ∈ next.touches →
      state.reply = some reply → next.Carries id after reply) : next.Transit where
  unconsumed waiting := unconsumed (reply ▸ waiting)
  unready waiting other current found := by
    rcases of_getElem?_set (calls ▸ found) with ⟨rfl, rfl⟩ | ⟨-, before⟩
    · exact unready (reply ▸ waiting)
    · exact transit.unready (reply ▸ waiting) other current before
  uncancelled other current found := by
    rcases of_getElem?_set (calls ▸ found) with ⟨rfl, rfl⟩ | ⟨-, before⟩
    · exact uncancelled
    · exact transit.uncancelled other current before
  carried other current given found waits got replied := by
    rw [reply] at replied
    rcases of_getElem?_set (calls ▸ found) with ⟨rfl, rfl⟩ | ⟨apart, before⟩
    · exact own given waits got replied
    · have carried := transit.carried other current given before waits (gets other apart got)
        replied
      exact carried.imp_right (Or.imp_left (callbacks _))

/-- A step of a worker that has not come to an outcome. -/
theorem Transit.work (transit : state.Transit) (traced : state.Provenance)
    (found : state.calls[id]? = some call) (working : ¬ call.worker.Settled) {worker : Worker}
    (calls : next.calls = state.calls.set id { call with worker })
    (reply : next.reply = state.reply) (callbacks : next.callbacks = state.callbacks)
    (unconsumed : state.reply = none → next.consumed = false)
    (gets : ∀ other, .get other ∈ next.touches → .get other ∈ state.touches)
    (unready : state.reply = none → worker ≠ .consuming) : next.Transit := by
  refine transit.act calls reply unconsumed (fun other _ => gets other)
    (fun _ queued => callbacks ▸ queued) unready (transit.uncancelled id call found) ?_
  intro given _ got
  exact absurd (traced.settled id call found (gets id got)) working

theorem Transit.step_act (transit : state.Transit) (owned : state.Ownership)
    (traced : state.Provenance) {action : Action} (found : state.calls[id]? = some call)
    (acts : Acts state id call action next after) :
    ({ next with calls := state.calls.set id after } : AwaitState).Transit := by
  have noGet (other : CallId) : .get other ∈ (state.touch (.ready id)).touches →
      .get other ∈ state.touches := (get_mem_touch_ready other).mp
  cases acts with
  | begin queued =>
      exact transit.work traced found (by simp [queued, Worker.Settled]) rfl rfl rfl
        transit.unconsumed (fun _ => (·)) (by simp)
  | pollReady polling answer =>
      refine transit.work traced found (by simp [polling, Worker.Settled]) rfl rfl rfl
        transit.unconsumed noGet ?_
      intro waiting
      rw [transit.not_ready owned waiting] at answer
      cases answer
  | pollPending polling | pollFails polling =>
      exact transit.work traced found (by simp [polling, Worker.Settled]) rfl rfl rfl
        transit.unconsumed noGet (by simp)
  | sleep checking | giveUp checking =>
      exact transit.work traced found (by simp [checking, Worker.Settled]) rfl rfl rfl
        transit.unconsumed (fun _ => (·)) (by simp)
  | claim consuming =>
      refine transit.work traced found (by simp [consuming, Worker.Settled]) rfl rfl rfl ?_
        (fun _ => (·)) (by simp)
      intro waiting
      exact absurd consuming (transit.unready waiting id call found)
  | refuse consuming =>
      exact transit.work traced found (by simp [consuming, Worker.Settled]) rfl rfl rfl
        transit.unconsumed (fun _ => (·)) (by simp)
  | get claimed valid arrived =>
      refine transit.act rfl rfl transit.unconsumed ?_ (fun _ => (·)) (by simp)
        (transit.uncancelled id call found) ?_
      · intro other apart got
        simpa [touch, apart] using got
      · intro given _ _ replied
        rw [arrived] at replied
        cases replied
        exact .inl rfl
  | getInvalid claimed invalid =>
      have valid := owned.claimed_valid id ⟨call, found, claimed⟩
      exact absurd (invalid.symm.trans valid) Bool.false_ne_true
  | post publishing =>
      refine transit.act rfl rfl transit.unconsumed (fun _ _ => (·))
        (fun _ queued => List.mem_append_left _ queued) (by simp)
        (transit.uncancelled id call found) ?_
      intro given waits got replied
      rcases transit.carried id call given found waits got replied with held | queued | done
      · rw [publishing] at held
        cases held
        exact .inr (.inl (by simp))
      · exact .inr (.inl (List.mem_append_left _ queued))
      · exact .inr (.inr done)
  | resume | expire | cancel =>
      exact transit.act rfl rfl transit.unconsumed (fun _ _ => (·)) (fun _ => (·))
        (fun waiting => transit.unready waiting id call found) (by simp [Call.abandon])
        (fun _ waits => by cases waits)

/-- A `_publish` sets the outcome of its call, or the call has its outcome already. -/
theorem Transit.carried_publish (transit : state.Transit) (traced : state.Provenance)
    {published : CallId} {outcome given : Reply} {callbacks : List (CallId × Reply)}
    (queued : state.callbacks = (published, outcome) :: callbacks)
    (found : (state.calls.modify published (·.publish outcome))[id]? = some after)
    (waits : after.ending = none) (got : .get id ∈ state.touches)
    (replied : state.reply = some given) :
    ({ state with callbacks, calls := state.calls.modify published (·.publish outcome) } :
      AwaitState).Carries id after given := by
  -- What a call that took the response carries is the response.
  have same {before : Call} {other : Reply} (known : state.calls[id]? = some before)
      (carried : state.Carries id before other) : other = given := by
    rcases traced.sourced id before other known carried with ⟨-, isReply⟩ | ⟨notGot, -⟩
    · exact Option.some.inj (isReply.symm.trans replied)
    · exact absurd got notGot
  obtain ⟨before, known, rfl | ⟨rfl, -, rfl⟩⟩ := of_getElem?_publish found
  · rcases transit.carried id after given known waits got replied with held | waiting | done
    · exact .inl held
    · rw [queued] at waiting
      rcases List.mem_cons.mp waiting with first | rest
      · cases first
        rw [List.getElem?_modify, known] at found
        simp only [if_pos, Option.map_eq_map, Option.map_some, Option.some.injEq] at found
        cases result : after.result with
        | pending =>
            rw [Call.publish_eq, if_pos result] at found
            rw [← found] at result
            cases result
        | cancelled => exact absurd result (transit.uncancelled _ _ known waits)
        | done other => exact .inr (.inr (same known (.inr (.inr result)) ▸ result))
      · exact .inr (.inl rest)
    · exact .inr (.inr done)
  · have first : state.Carries id before outcome := .inr (.inl (queued ▸ List.mem_cons_self))
    exact .inr (.inr (same known first ▸ rfl))

/-- Every step keeps the response on its way. -/
theorem Transit.step {label : AwaitLabel} (transit : state.Transit) (owned : state.Ownership)
    (traced : state.Provenance) (stepped : awaitFuture.step state label = some next) :
    next.Transit := by
  cases steps_of_step stepped with
  | act found acts => exact transit.step_act owned traced found acts
  | tick positive =>
      exact ⟨transit.unconsumed, transit.unready, transit.uncancelled, transit.carried⟩
  | arrive waiting =>
      refine ⟨nofun, nofun, transit.uncancelled, ?_⟩
      intro id call given _ _ got
      exact absurd (.inl got) (transit.not_owns owned waiting id)
  | start what timeout =>
      refine ⟨transit.unconsumed, ?_, ?_, ?_⟩
      · intro waiting id call found
        rcases of_getElem?_append found with before | ⟨-, rfl⟩
        · exact transit.unready waiting id call before
        · exact nofun
      · intro id call found
        rcases of_getElem?_append found with before | ⟨-, rfl⟩
        · exact transit.uncancelled id call before
        · exact fun _ => nofun
      · intro id call given found waits got replied
        rcases of_getElem?_append found with before | ⟨rfl, -⟩
        · exact transit.carried id call given before waits got replied
        · exact absurd (owned.known _ got) (lt_irrefl _)
  | publish queued =>
      refine ⟨transit.unconsumed, ?_, ?_, ?_⟩
      · intro waiting id call found
        obtain ⟨before, known, rfl | ⟨-, -, rfl⟩⟩ := of_getElem?_publish found
        · exact transit.unready waiting id call known
        · exact transit.unready waiting id before known
      · intro id call found
        obtain ⟨before, known, rfl | ⟨-, -, rfl⟩⟩ := of_getElem?_publish found
        · exact transit.uncancelled id call known
        · exact fun _ => nofun
      · intro id call given found waits got replied
        exact transit.carried_publish traced queued found waits got replied

theorem transit_initial : awaitFuture.initial.Transit where
  unconsumed _ := rfl
  unready _ id call found := by cases found
  uncancelled id call found := by cases found
  carried id call reply found := by cases found

/-- In every state of every run the response is where a worker or the loop left it. -/
theorem transit_of_reached {allowed : AwaitState → AwaitLabel → Prop}
    (reached : awaitFuture.Reached allowed state) : state.Transit :=
  reached.invariant_of Transit
    (fun _ before => And.intro (ownership_of_reached before) (provenance_of_reached before))
    transit_initial fun _ _ _ known transit _ stepped => transit.step known.1 known.2 stepped

end AwaitState

end ObscuraProto
