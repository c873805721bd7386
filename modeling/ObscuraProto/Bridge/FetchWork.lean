import Mathlib.Data.Rat.Floor
import ObscuraProto.Bridge.RequestPool
import ObscuraProto.Bridge.Settlement
import ObscuraProto.Library.Polling

/-!
# The work of a limited `_fetch`

A `_fetch` with a deadline polls a bounded number of times, whatever the clock, the
response and the other calls do.  Past its deadline nothing holds it up.
-/

namespace ObscuraProto

open Transition Processes

/-- A step of `_fetch`, not of its caller. -/
def Action.isFetch : Action → Bool
  | begin | poll _ | check | claim | get | post => true
  | resume | expire | cancel => false

/-- How many sleeps are left before a deadline. -/
def sleepsLeft (deadline clock : Rat) : Nat :=
  ⌈(deadline - clock) / callbackPollInterval⌉₊

/-- How many steps a `_fetch` with a deadline takes at most from now on: a poll and a
look at the clock for every sleep, and what follows the last poll. -/
def Worker.work (deadline now : Rat) : Worker → Nat
  | queued => 2 * sleepsLeft deadline now + 5
  | polling notBefore => 2 * sleepsLeft deadline (max notBefore now) + 4
  | checking => 2 * sleepsLeft deadline now + 3
  | consuming => 3
  | claimed => 2
  | publishing _ => 1
  | finished => 0

/-- The work of a limited call; an unlimited one has no bound. -/
def Call.work (now : Rat) (call : Call) : Nat :=
  match call.deadline with
  | some deadline => call.worker.work deadline now
  | none => 0

theorem sleepsLeft_anti {deadline clock later : Rat} (forward : clock ≤ later) :
    sleepsLeft deadline later ≤ sleepsLeft deadline clock :=
  Nat.ceil_mono (div_le_div_of_nonneg_right (sub_le_sub_left forward deadline)
    callbackPollInterval_pos.le)

/-- A sleep uses up one of those left. -/
theorem sleepsLeft_sleep {deadline now : Rat} (early : now < deadline) :
    sleepsLeft deadline (now + min callbackPollInterval (deadline - now)) <
      sleepsLeft deadline now :=
  Library.Polling.Turns.ceil_lt_of_turn callbackPollInterval_pos le_rfl early rfl

theorem Worker.work_anti {deadline now later : Rat} (worker : Worker) (forward : now ≤ later) :
    worker.work deadline later ≤ worker.work deadline now := by
  cases worker with
  | queued | checking =>
      have fewer : sleepsLeft deadline later ≤ sleepsLeft deadline now := sleepsLeft_anti forward
      simp only [work]
      omega
  | polling notBefore =>
      have fewer : sleepsLeft deadline (max notBefore later) ≤
          sleepsLeft deadline (max notBefore now) := sleepsLeft_anti (max_le_max_left _ forward)
      simp only [work]
      omega
  | consuming | claimed | publishing | finished => exact le_rfl

theorem Call.work_anti {now later : Rat} (call : Call) (forward : now ≤ later) :
    call.work later ≤ call.work now := by
  rw [work, work]
  split
  · exact call.worker.work_anti forward
  · exact le_rfl

/-! ## One step -/

section Act

variable {state next : AwaitState} {id : CallId} {call after : Call} {action : Action}

/-- Under a deadline `_fetch` sleeps until the deadline at the latest. -/
theorem polling_of_check {deadline wake : Rat}
    (acted : state.act id call .check = some (next, after))
    (limited : call.deadline = some deadline) (sleeps : after.worker = .polling wake) :
    state.now < deadline ∧
      wake = state.now + min callbackPollInterval (deadline - state.now) := by
  simp only [AwaitState.act, limited] at acted
  split at acted
  · split at acted
    · cases acted
      cases sleeps
    · next early =>
        cases acted
        cases sleeps
        rw [sub_nonpos, not_le] at early
        exact ⟨early, rfl⟩
  · cases acted

theorem due_of_poll {undefined : Except PyExc Bool} {notBefore : Rat}
    (acted : state.act id call (.poll undefined) = some (next, after))
    (polling : call.worker = .polling notBefore) : notBefore ≤ state.now := by
  simp only [AwaitState.act, polling] at acted
  split at acted
  · next due => exact due
  · cases acted

/-- A step of `_fetch` uses up some of the work of a limited call, and no other step
changes it. -/
theorem work_act {deadline : Rat} (acted : state.act id call action = some (next, after))
    (limited : call.deadline = some deadline) :
    after.work state.now + action.isFetch.toNat ≤ call.work state.now := by
  have kept := (acts_of_act acted).call_kept.2.trans limited
  simp only [Call.work, limited, kept]
  cases acts_of_act acted with
  | begin queued => simp [queued, Worker.work, Action.isFetch]
  | pollReady polling | pollFails polling =>
      simp only [polling, Worker.work, Action.isFetch, Bool.toNat_true]
      omega
  | pollPending polling =>
      have due := due_of_poll acted polling
      simp only [polling, Worker.work, Action.isFetch, Bool.toNat_true, max_eq_right due]
      omega
  | sleep checking =>
      obtain ⟨early, rfl⟩ := polling_of_check acted limited rfl
      have ahead : state.now ≤
          state.now + min callbackPollInterval (deadline - state.now) :=
        le_add_of_nonneg_right (le_min callbackPollInterval_pos.le (sub_nonneg.mpr early.le))
      have fewer := sleepsLeft_sleep early
      simp only [checking, Worker.work, Action.isFetch, Bool.toNat_true, max_eq_left ahead]
      omega
  | giveUp checking =>
      simp only [checking, Worker.work, Action.isFetch, Bool.toNat_true]
      omega
  | claim consuming | refuse consuming => simp [consuming, Worker.work, Action.isFetch]
  | get claimed | getInvalid claimed => simp [claimed, Worker.work, Action.isFetch]
  | post publishing => simp [publishing, Worker.work, Action.isFetch]
  | resume | expire | cancel => exact le_rfl

end Act

/-! ## Nothing holds a `_fetch` up past its deadline -/

/-- While there is shared state only `get()` takes it away, and the response stays. -/
theorem Acts.shared_kept {state next : AwaitState} {id : CallId} {call after : Call}
    {action : Action} (acts : Acts state id call action next after) (shared : next.valid = true) :
    state.valid = true ∧ next.reply = state.reply := by
  cases acts with
  | get => cases shared
  | begin | pollReady | pollPending | pollFails | sleep | giveUp | claim | refuse | getInvalid
  | post | resume | expire | cancel => exact ⟨shared, rfl⟩

namespace AwaitState

variable {state next : AwaitState} {id : CallId} {call after : Call} {action : Action}

/-- Where the calls can be: no sleep lasts beyond the deadline, and a `get()` in front
of a worker will not block. -/
structure Steady (state : AwaitState) : Prop where
  sleeping : ∀ (id : CallId) (call : Call) (notBefore deadline : Rat),
    state.calls[id]? = some call → call.worker = .polling notBefore →
      call.deadline = some deadline → notBefore ≤ max deadline state.now
  answered : ∀ (id : CallId) (call : Call), state.calls[id]? = some call →
    call.worker = .consuming ∨ call.worker = .claimed → state.valid = true → state.reply ≠ none

theorem act_of_step (stepped : awaitFuture.step state (.act id action) = some next) :
    ∃ call between after, state.calls[id]? = some call ∧
      state.act id call action = some (between, after) ∧
        next = { between with calls := state.calls.set id after } := by
  simp only [awaitFuture, AwaitState.step] at stepped
  split at stepped
  · next call found =>
      split at stepped
      · next between after acted => cases stepped; exact ⟨call, between, after, found, acted, rfl⟩
      · cases stepped
  · cases stepped

/-- Steps that are none of a call keep its worker and its deadline. -/
theorem Steady.of_same (steady : state.Steady) (valid : next.valid = state.valid)
    (reply : state.reply ≠ none → next.reply ≠ none) (now : state.now ≤ next.now)
    (origin : ∀ (id : CallId) (call : Call), next.calls[id]? = some call →
      call.worker = .queued ∨ ∃ before, state.calls[id]? = some before ∧
        before.worker = call.worker ∧ before.deadline = call.deadline) : next.Steady where
  sleeping id call notBefore deadline found polling limited := by
    rcases origin id call found with queued | ⟨before, known, worker, same⟩
    · rw [queued] at polling
      cases polling
    · have bound := steady.sleeping id before notBefore deadline known (worker.trans polling)
        (same.trans limited)
      exact bound.trans (max_le_max_left _ now)
  answered id call found busy shared := by
    rcases origin id call found with queued | ⟨before, known, worker, -⟩
    · rw [queued] at busy
      simp at busy
    · exact reply (steady.answered id before known (worker ▸ busy) (valid ▸ shared))

theorem Steady.act (steady : state.Steady) (found : state.calls[id]? = some call)
    (acted : state.act id call action = some (next, after)) :
    ({ next with calls := state.calls.set id after } : AwaitState).Steady := by
  have acts := acts_of_act acted
  have now := acts.now_kept
  constructor
  · intro other current notBefore limit known polling limited
    rcases of_getElem?_set known with ⟨rfl, rfl⟩ | ⟨-, before⟩
    · have same := acts.call_kept.2.symm.trans limited
      rw [now]
      cases acts with
      | begin => cases polling; exact le_max_right _ _
      | sleep checking =>
          cases polling
          obtain ⟨early, rfl⟩ := polling_of_check acted same rfl
          refine le_max_of_le_left ?_
          calc
            _ ≤ state.now + (limit - state.now) := add_le_add_right (min_le_right _ _) _
            _ = limit := add_sub_cancel _ _
      | resume | expire | cancel =>
          exact steady.sleeping other call notBefore limit found polling same
      | pollReady | pollPending | pollFails | giveUp | claim | refuse | get | getInvalid | post =>
          cases polling
    · rw [now]
      exact steady.sleeping other current notBefore limit before polling limited
  · intro other current known busy shared
    have kept := acts.shared_kept shared
    rcases of_getElem?_set known with ⟨rfl, rfl⟩ | ⟨-, before⟩
    · rw [kept.2]
      cases acts with
      | pollReady polling answer =>
          rw [ready, if_pos kept.1] at answer
          cases replied : state.reply with
          | none => simp [replied] at answer
          | some reply => simp
      | claim consuming => exact steady.answered other call found (.inl consuming) kept.1
      | resume | expire | cancel => exact steady.answered other call found busy kept.1
      | begin | pollPending | pollFails | sleep | giveUp | refuse | get | getInvalid | post =>
          simp at busy
    · rw [kept.2]
      exact steady.answered other current before busy kept.1

theorem Steady.step {label : AwaitLabel} (steady : state.Steady)
    (stepped : awaitFuture.step state label = some next) : next.Steady := by
  cases label with
  | act id action =>
      obtain ⟨call, between, after, found, acted, rfl⟩ := act_of_step stepped
      exact steady.act found acted
  | start what timeout =>
      cases stepped
      refine steady.of_same rfl (·) le_rfl fun id call found => ?_
      rcases of_getElem?_append found with before | ⟨-, rfl⟩
      · exact .inr ⟨call, before, rfl, rfl⟩
      · exact .inl rfl
  | publish =>
      cases steps_of_step stepped with
      | publish queued =>
          refine steady.of_same rfl (·) le_rfl fun id call found => ?_
          obtain ⟨before, known, rfl | ⟨-, -, rfl⟩⟩ := of_getElem?_publish found
          · exact .inr ⟨call, known, rfl, rfl⟩
          · exact .inr ⟨before, known, rfl, rfl⟩
  | arrive reply =>
      cases steps_of_step stepped with
      | arrive waiting =>
          exact steady.of_same rfl (fun _ => Option.some_ne_none _) le_rfl
            fun id call found => .inr ⟨call, found, rfl, rfl⟩
  | tick elapsed =>
      cases steps_of_step stepped with
      | tick positive =>
          exact steady.of_same rfl (·) (le_add_of_nonneg_right positive.le)
            fun id call found => .inr ⟨call, found, rfl, rfl⟩

theorem steady_of_reached {allowed : AwaitState → AwaitLabel → Prop}
    (reached : awaitFuture.Reached allowed state) : state.Steady :=
  reached.invariant Steady
    ⟨fun id call notBefore deadline found => (by cases found),
      fun id call found => (by cases found)⟩
    fun _ _ _ steady _ stepped => steady.step stepped

/-- A `_fetch` that has begun goes on when its deadline is over. -/
theorem Steady.exists_act (steady : state.Steady) (found : state.calls[id]? = some call)
    {deadline : Rat} (limited : call.deadline = some deadline) (late : deadline ≤ state.now)
    (unfinished : call.worker ≠ .finished) (begun : call.worker ≠ .queued) :
    ∃ action between after, action.isFetch = true ∧ action ≠ .begin ∧
      state.act id call action = some (between, after) := by
  cases worker : call.worker with
  | queued => exact absurd worker begun
  | finished => exact absurd worker unfinished
  | polling notBefore =>
      have due : notBefore ≤ state.now := by
        have bound := steady.sleeping id call notBefore deadline found worker limited
        rwa [max_eq_right late] at bound
      exact ⟨.poll (.ok true), _, _, rfl, by simp,
        by simp only [AwaitState.act, worker, if_pos due]; rfl⟩
  | checking =>
      refine ⟨.check, state, { call with worker := .publishing (.error call.timedOut) }, rfl,
        by simp, ?_⟩
      simp only [AwaitState.act, worker, limited, if_pos (sub_nonpos.mpr late)]
  | consuming =>
      cases used : state.consumed with
      | true =>
          exact ⟨.claim, _, _, rfl, by simp, by simp only [AwaitState.act, worker, used]; rfl⟩
      | false =>
          exact ⟨.claim, _, _, rfl, by simp, by simp only [AwaitState.act, worker, used]; rfl⟩
  | claimed =>
      cases shared : state.valid with
      | true =>
          obtain ⟨reply, replied⟩ := Option.ne_none_iff_exists'.mp
            (steady.answered id call found (.inr worker) shared)
          exact ⟨.get, _, _, rfl, by simp,
            by simp only [AwaitState.act, worker, shared, replied]; rfl⟩
      | false =>
          exact ⟨.get, _, _, rfl, by simp, by simp only [AwaitState.act, worker, shared]; rfl⟩
  | publishing outcome =>
      exact ⟨.post, _, _, rfl, by simp, by simp only [AwaitState.act, worker]; rfl⟩

end AwaitState

end ObscuraProto
