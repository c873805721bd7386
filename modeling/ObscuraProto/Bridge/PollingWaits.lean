import ObscuraProto.Bridge.RequestPool
import ObscuraProto.Callback.IdentityCheck
import ObscuraProto.Library.Polling

/-!
# The polling waits

`_wait_future_with_polling` and, under a timeout, the loop of `_fetch` poll until a
deadline.  The waits that the wrappers and the request executor are modelled with are
what comes out of these loops.
-/

namespace ObscuraProto

open Library.Polling

/-! ## `_wait_future_with_polling` -/

/-- What the waiting thread meets: a clock, and the future as other threads have left
it at each poll and, past the deadline, when it is abandoned. -/
structure FutureSurroundings where
  polled : Nat → ConcurrentFuture
  overdue : Nat → ConcurrentFuture
  delay : Nat → Rat
  delay_nonneg : ∀ poll, 0 ≤ delay poll

/-- `future.done()` raises nothing. -/
def FutureSurroundings.polling (around : FutureSurroundings) : Surroundings Rat Empty where
  answer poll := .ok (around.polled poll).done
  delay := around.delay
  delay_nonneg := around.delay_nonneg

structure PollingWait where
  run : Run Rat Empty
  /-- What is returned or raised. -/
  outcome : Option (Except PyExc PyValue) := none
  /-- The future as the wait leaves it. -/
  future : Option ConcurrentFuture := none

namespace PollingWait

/-- How `_wait_future_with_polling` leaves its loop. -/
def leave (around : FutureSurroundings) (timeout : Seconds) (run : Run Rat Empty) : PollingWait :=
  match run.ending with
  | some (.completed poll) =>
      let future := around.polled poll
      { run, outcome := future.result, future }
  | some (.expired poll) =>
      let future := (around.overdue poll).abandon
      { run, outcome := some (.error (callbackTimeout timeout)), future }
  | some (.failed e) => nomatch e
  | none => { run }

/-- `_wait_future_with_polling` with the clock at `start` when the deadline is set. -/
def waitFutureWithPolling (around : FutureSurroundings) (timeout : Seconds) (start : Rat)
    (fuel : Nat) : PollingWait :=
  let deadline := start + timeout.value
  leave around timeout (loop callbackPollInterval deadline around.polling fuel 0 start)

end PollingWait

/-- How a wait ends: with the outcome of a future that is done, or with a
`TimeoutError` and a future that is cancelled, unless it was done by then, and reaped. -/
structure PollingWait.Concluded (wait : PollingWait) (around : FutureSurroundings)
    (timeout : Seconds) : Prop where
  completed : ∀ poll, wait.run.ending = some (.completed poll) →
    (around.polled poll).done = true ∧ wait.outcome = (around.polled poll).result
  expired : ∀ poll, wait.run.ending = some (.expired poll) →
    wait.outcome = some (.error (callbackTimeout timeout)) ∧
      ∃ future, wait.future = some future ∧ future.reaped = true ∧
        future.state = (around.overdue poll).cancel.state ∧
        ((around.overdue poll).done = false → future.state = .cancelled)
  raised : ∀ e, wait.outcome = some (.error e) →
    (∃ poll, wait.run.ending = some (.expired poll)) ∨
      ∃ poll, wait.run.ending = some (.completed poll) ∧
        (around.polled poll).result = some (.error e)

/-! ## The loop of `_fetch` -/

def fetchTimeout (what : String) (timeout : Seconds) : PyExc :=
  .timeoutError s!"{what} timed out after {timeout.text}s"

structure FetchWait where
  run : Run Rat PyExc
  /-- What the loop raises, if `_fetch` does not go on to `_consume_cpp_future`. -/
  outcome : Option (Except PyExc Unit)

namespace FetchWait

/-- How `_fetch` leaves its loop. -/
def leave (what : String) (timeout : Seconds) (run : Run Rat PyExc) : FetchWait :=
  match run.ending with
  | some (.completed _) => { run, outcome := some (.ok ()) }
  | some (.expired _) => { run, outcome := some (.error (fetchTimeout what timeout)) }
  | some (.failed e) => { run, outcome := some (.error e) }
  | none => { run, outcome := none }

/-- The loop of `_fetch` under a timeout, with the clock at `called` when the deadline
is set; the worker may start later. -/
def fetch (around : Surroundings Rat PyExc) (what : String) (timeout : Seconds) (called : Rat)
    (fuel : Nat) : FetchWait :=
  let deadline := called + timeout.value
  leave what timeout (loop callbackPollInterval deadline around fuel 0 called)

end FetchWait

structure FetchWait.Concluded (wait : FetchWait) (what : String) (timeout : Seconds) : Prop where
  completed : wait.outcome = some (.ok ()) ↔ ∃ poll, wait.run.ending = some (.completed poll)
  raised : ∀ e, wait.outcome = some (.error e) →
    e = fetchTimeout what timeout ∧ (∃ poll, wait.run.ending = some (.expired poll)) ∨
      wait.run.ending = some (.failed e)

/-! ## Both waits are bounded -/

theorem ConcurrentFuture.state_cancel {future : ConcurrentFuture} (pending : future.done = false) :
    future.cancel.state = .cancelled := by
  rw [cancel, settle, if_neg (Bool.not_eq_true _ ▸ pending)]

namespace PollingWait

variable {around : FutureSurroundings} {timeout : Seconds} {run : Run Rat Empty}

@[simp] theorem run_leave : (leave around timeout run).run = run := by
  rw [leave]
  split
  · rfl
  · rfl
  · next e _ => cases e
  · rfl

theorem concluded_leave (seen : ∀ poll, run.ending = some (.completed poll) →
    (around.polled poll).done = true) : (leave around timeout run).Concluded around timeout := by
  obtain ⟨events, ending⟩ := run
  rcases ending with - | ⟨poll⟩ | e | ⟨poll⟩
  · exact ⟨nofun, nofun, nofun⟩
  · constructor
    · intro last completed
      cases completed
      exact ⟨seen poll rfl, rfl⟩
    · nofun
    · intro e raised
      exact .inr ⟨poll, rfl, raised⟩
  · cases e
  · constructor
    · nofun
    · intro last expired
      cases expired
      exact ⟨rfl, _, rfl, rfl, rfl, ConcurrentFuture.state_cancel⟩
    · intro e raised
      exact .inl ⟨poll, rfl⟩

end PollingWait

theorem FetchWait.outcome_leave_after (what : String) (timeout : Seconds)
    (events : List (Event Rat PyExc)) (run : Run Rat PyExc) :
    (leave what timeout (run.after events)).outcome = (leave what timeout run).outcome := by
  obtain ⟨earlier, ending⟩ := run
  rcases ending with - | ⟨poll⟩ | e | ⟨poll⟩ <;> rfl

@[simp] theorem FetchWait.run_leave (what : String) (timeout : Seconds) (run : Run Rat PyExc) :
    (leave what timeout run).run = run := by
  rw [leave]
  split <;> rfl

theorem FetchWait.concluded_leave (what : String) (timeout : Seconds) (run : Run Rat PyExc) :
    (leave what timeout run).Concluded what timeout := by
  obtain ⟨events, ending⟩ := run
  rcases ending with - | ⟨poll⟩ | e | ⟨poll⟩
  · exact ⟨⟨nofun, nofun⟩, nofun⟩
  · exact ⟨⟨fun _ => ⟨poll, rfl⟩, fun _ => rfl⟩, nofun⟩
  · refine ⟨⟨nofun, nofun⟩, ?_⟩
    intro other raised
    cases raised
    exact .inr rfl
  · refine ⟨⟨nofun, nofun⟩, ?_⟩
    intro other raised
    cases raised
    exact .inl ⟨rfl, poll, rfl⟩

/-- Both waits end in time, see what they meet, and end as the source says. -/
theorem pollingWaits_bounded (timeout : Seconds) (start : Rat) (fuel : Nat)
    (enough : ⌈max timeout.value 0 / callbackPollInterval⌉₊ + 2 ≤ fuel) :
    (∀ around : FutureSurroundings,
      let wait := PollingWait.waitFutureWithPolling around timeout start fuel
      let deadline := start + timeout.value
      wait.run.Bounded callbackPollInterval timeout.value deadline ∧
        wait.run.Follows callbackPollInterval deadline start around.polling 0 ∧
        wait.Concluded around timeout) ∧
    (0 < timeout.value → ∀ (around : Surroundings Rat PyExc) (what : String),
      let wait := FetchWait.fetch around what timeout start fuel
      let deadline := start + timeout.value
      wait.run.Bounded callbackPollInterval timeout.value deadline ∧
        wait.run.Follows callbackPollInterval deadline start around 0 ∧
        wait.Concluded what timeout) := by
  constructor
  · intro around wait deadline
    have turns := Turns.of_loop callbackPollInterval deadline around.polling fuel 0 start
    have run : wait.run = loop callbackPollInterval deadline around.polling fuel 0 start :=
      PollingWait.run_leave
    refine ⟨?_, ?_, ?_⟩
    · rw [run]
      exact turns.bounded callbackPollInterval_pos enough
    · rw [run]
      exact turns.follows
    · apply PollingWait.concluded_leave
      intro poll completed
      exact Except.ok.inj (turns.answer_of_completed completed)
  · intro positive around what wait deadline
    have turns := Turns.of_loop callbackPollInterval deadline around fuel 0 start
    have run : wait.run = loop callbackPollInterval deadline around fuel 0 start :=
      FetchWait.run_leave what timeout _
    refine ⟨?_, ?_, ?_⟩
    · rw [run]
      exact turns.bounded callbackPollInterval_pos enough
    · rw [run]
      exact turns.follows
    · exact FetchWait.concluded_leave what timeout _

/-- An eighth of a second: two whole intervals, half of one, and a last poll. -/
theorem pollingWaits_bounded_eighth :
    let around : FutureSurroundings :=
      { polled := fun _ => {}, overdue := fun _ => {}, delay := fun _ => 0
        delay_nonneg := fun _ => le_rfl }
    let wait := PollingWait.waitFutureWithPolling around ⟨1 / 8, "0.125"⟩ 0 5
    wait.run.sleeps = [1 / 20, 1 / 20, 1 / 40] ∧ wait.run.polls = 4 ∧
      wait.future = some { state := .cancelled, reaped := true } ∧
      wait.run.Bounded callbackPollInterval (1 / 8) (0 + 1 / 8) ∧
      wait.run.Follows callbackPollInterval (0 + 1 / 8) 0 around.polling 0 ∧
      (FetchWait.fetch ⟨fun poll => .ok (poll == 2), fun _ => 1 / 100, fun _ => by decide +kernel⟩
        "async_request" ⟨1 / 8, "0.125"⟩ 0 5).Concluded "async_request" ⟨1 / 8, "0.125"⟩ := by
  have bounded := pollingWaits_bounded ⟨1 / 8, "0.125"⟩ 0 5 (by decide +kernel)
  refine ⟨by decide +kernel, by decide +kernel, by decide +kernel, (bounded.1 _).1,
    (bounded.1 _).2.1, ?_⟩
  exact (bounded.2 (by decide +kernel) _ _).2.2

/-! ## The waits of the wrappers and of the executor -/

/-- The coroutine waited for, as the wrappers see it; `eventual` is what it ends with
when no poll sees it done. -/
def PollingWait.coroutine (wait : PollingWait) (id : Nat) (eventual : Except PyExc PyValue) :
    Coroutine :=
  match wait.run.ending with
  | some (.completed _) => { id, outcome := wait.outcome.getD eventual, inTime := true }
  | _ => { id, outcome := eventual, inTime := false }

/-- The wait of the wrappers returns or raises what the loop does. -/
theorem PollingWait.exec_waitFutureWithPolling {around : FutureSurroundings} {timeout : Seconds}
    {run : Run Rat Empty} {outcome : Except PyExc PyValue}
    (ended : (leave around timeout run).outcome = some outcome) (id : Nat)
    (eventual : Except PyExc PyValue) (world : World) :
    ((ObscuraProto.waitFutureWithPolling
      ((leave around timeout run).coroutine id eventual) timeout).exec world).1 = outcome := by
  rw [ObscuraProto.exec_waitFutureWithPolling]
  obtain ⟨events, ending⟩ := run
  rcases ending with - | ⟨poll⟩ | e | ⟨poll⟩
  · cases ended
  · simp only [leave] at ended
    simp [coroutine, leave, Coroutine.waitOutcome, ended]
  · cases e
  · cases ended
    rfl

namespace Request

variable {request : Request} {deadline start : Rat}

/-- When the executor's loop polls. -/
def pollTime (deadline start : Rat) : Nat → Rat
  | 0 => start
  | poll + 1 =>
      let now := pollTime deadline start poll
      now + min callbackPollInterval (deadline - now)

/-- A worker that starts late, and sleeps as long as it asks for. -/
def surroundings (request : Request) (deadline : Rat) {start : Rat}
    (late : request.called ≤ start) : Surroundings Rat PyExc where
  answer poll := .ok (request.readyAt (pollTime deadline start poll)).isSome
  delay
    | 0 => start - request.called
    | _ + 1 => 0
  delay_nonneg poll := by
    cases poll with
    | zero => exact sub_nonneg.mpr late
    | succ poll => exact le_rfl

/-- From any poll on the executor's loop ends as the polling loop does. -/
theorem fetch_eq_leave {timeout : Seconds} (limited : request.deadline = some deadline)
    (late : request.called ≤ start) (same : request.timedOut = fetchTimeout request.what timeout)
    (fuel poll : Nat) (clock : Rat)
    (reads : clock + (request.surroundings deadline late).delay poll =
      pollTime deadline start poll) :
    (request.fetch fuel (pollTime deadline start poll)).map (fun ended => ended.2.map fun _ => ()) =
      (FetchWait.leave request.what timeout (loop callbackPollInterval deadline
        (request.surroundings deadline late) fuel poll clock)).outcome := by
  induction fuel generalizing poll clock with
  | zero => rfl
  | succ fuel ih =>
      rw [loop, reads]
      cases ready : request.readyAt (pollTime deadline start poll) with
      | some payload => simp [fetch, surroundings, ready, FetchWait.leave, Except.map]
      | none =>
          by_cases expired : deadline - pollTime deadline start poll ≤ 0
          · simp [fetch, surroundings, ready, limited, expired, FetchWait.leave, Except.map, same]
          · have again := ih (poll + 1) (pollTime deadline start (poll + 1)) (add_zero _)
            simp only [fetch, surroundings, ready, limited, if_neg expired, Option.isSome_none,
              FetchWait.outcome_leave_after]
            exact again

/-- The wait of the executor ends as the loop of `_fetch` does. -/
theorem fetch_eq_outcome {timeout : Seconds} (limited : request.limit = some timeout)
    (late : request.called ≤ start) (fuel : Nat) :
    (request.fetch fuel start).map (fun ended => ended.2.map fun _ => ()) =
      (FetchWait.fetch (request.surroundings (request.called + timeout.value) late) request.what
        timeout request.called fuel).outcome := by
  have reads : request.called + (start - request.called) = start := add_sub_cancel _ _
  apply fetch_eq_leave _ late _ fuel 0 request.called reads
  · rw [deadline, limited, Option.map_some]
  · simp [timedOut, fetchTimeout, limited]

end Request

end ObscuraProto
