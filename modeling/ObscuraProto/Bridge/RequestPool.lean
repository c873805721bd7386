import Mathlib.Algebra.Order.Archimedean.Basic
import Mathlib.Algebra.Order.Floor.Semiring
import Mathlib.Data.Rat.Floor
import Mathlib.Order.WithBot
import Mathlib.Tactic.Linarith
import ObscuraProto.Bridge.AwaitFuture
import ObscuraProto.Library.WorkerPool

/-!
# The request executor

Every `_await_cpp_future` in flight holds one of four workers until its response
or its deadline.  With given times of calls and responses the executor is
deterministic: workers take the waits in submission order and poll at fixed
intervals, and every step between two sleeps takes no time.
-/

namespace ObscuraProto

/-- `_REQUEST_EXECUTOR_MAX_WORKERS`. -/
def requestExecutorMaxWorkers : Nat := 4

/-- A call of `_await_cpp_future`: when it is made, and when its response is
ready, if ever. -/
structure Request where
  what : String
  called : Rat
  timeout : Option Seconds
  response : Option (Rat × Payload)

namespace Request

/-- The timeout that is applied: one that is not positive means none. -/
def limit (request : Request) : Option Seconds :=
  request.timeout.filter fun timeout => 0 < timeout.value

def deadline (request : Request) : Option Rat :=
  request.limit.map fun timeout => request.called + timeout.value

def timedOut (request : Request) : PyExc :=
  let timeout := (request.limit.map (·.text)).getD "None"
  .timeoutError s!"{request.what} timed out after {timeout}s"

/-- `cpp_future.ready()` at a time. -/
def readyAt (request : Request) (now : Rat) : Option Payload :=
  match request.response with
  | some (ready, payload) => if ready ≤ now then some payload else none
  | none => none

/-- The polling loop of `_fetch` from a time on: when it ends, and with what.
`fuel` bounds the number of polls. -/
def fetch (request : Request) : Nat → Rat → Option (Rat × Reply)
  | 0, _ => none
  | fuel + 1, now =>
      match request.readyAt now with
      | some payload => some (now, .ok payload)
      | none =>
          match request.deadline with
          | none => request.fetch fuel (now + callbackPollInterval)
          | some deadline =>
              if deadline - now ≤ 0 then some (now, .error request.timedOut)
              else request.fetch fuel (now + min callbackPollInterval (deadline - now))

/-- Polls up to a time. -/
def pollsUntil (time now : Rat) : Nat :=
  ⌈(time - now) / callbackPollInterval⌉₊ + 1

/-- The end of `_fetch` when a worker starts it at a time; an unlimited wait
without response never ends. -/
def fetchFrom (request : Request) (now : Rat) : Option (Rat × Reply) :=
  match request.deadline, request.response with
  | some deadline, _ => request.fetch (pollsUntil deadline now) now
  | none, some (ready, _) => request.fetch (pollsUntil ready now) now
  | none, none => none

/-- When the worker is free again. -/
def finish (request : Request) : WithTop Rat → WithTop Rat
  | ⊤ => ⊤
  | (start : Rat) =>
      match request.fetchFrom start with
      | some (ended, _) => ended
      | none => ⊤

/-- What the call returns or raises, given when a worker starts its `_fetch`;
`none` when it waits forever.  A result published at the deadline is too late. -/
def outcome (request : Request) (start : WithTop Rat) : Option Reply :=
  let fetched := match start with
    | ⊤ => none
    | (start : Rat) => request.fetchFrom start
  match request.deadline, fetched with
  | none, some (_, reply) => some reply
  | none, none => none
  | some deadline, some (ended, reply) =>
      if ended < deadline then some reply else some (.error request.timedOut)
  | some _, none => some (.error request.timedOut)

end Request

/-! ## The polling loop -/

theorem callbackPollInterval_pos : 0 < callbackPollInterval := by
  decide +kernel

namespace Request

variable {request : Request}

/-- One turn of the loop. -/
theorem fetch_succ (fuel : Nat) (now : Rat) :
    (request.fetch (fuel + 1) now = some (now, .error request.timedOut) ∧
        request.readyAt now = none ∧
          ∃ deadline, request.deadline = some deadline ∧ deadline ≤ now) ∨
      (∃ payload, request.fetch (fuel + 1) now = some (now, .ok payload) ∧
        request.readyAt now = some payload) ∨
      ∃ later, request.fetch (fuel + 1) now = request.fetch fuel later ∧
        request.readyAt now = none ∧ now < later ∧
        ((request.deadline = none ∧ later = now + callbackPollInterval) ∨
          ∃ deadline, request.deadline = some deadline ∧ now < deadline ∧
            later = now + min callbackPollInterval (deadline - now)) := by
  have positive := callbackPollInterval_pos
  cases ready : request.readyAt now with
  | some payload => exact .inr (.inl ⟨payload, by simp only [fetch, ready], rfl⟩)
  | none =>
      cases limited : request.deadline with
      | none =>
          exact .inr (.inr ⟨_, by simp only [fetch, ready, limited], rfl, by linarith,
            .inl ⟨rfl, rfl⟩⟩)
      | some deadline =>
          by_cases late : deadline - now ≤ 0
          · exact .inl ⟨by simp only [fetch, ready, limited, if_pos late], rfl, deadline, rfl,
              sub_nonpos.mp late⟩
          · have early : now < deadline := by linarith
            refine .inr (.inr ⟨_, by simp only [fetch, ready, limited, if_neg late], rfl, ?_,
              .inr ⟨deadline, rfl, early, rfl⟩⟩)
            have := lt_min positive (sub_pos.mpr early)
            linarith

/-- The loop ends no earlier than it starts. -/
theorem le_of_fetch {fuel : Nat} {now ended : Rat} {reply : Reply}
    (fetched : request.fetch fuel now = some (ended, reply)) : now ≤ ended := by
  induction fuel generalizing now with
  | zero => cases fetched
  | succ fuel ih =>
      rcases request.fetch_succ fuel now with
        ⟨timedOut, -⟩ | ⟨payload, consumed, -⟩ | ⟨later, looped, -, forward, -⟩
      · rw [timedOut] at fetched; cases fetched; exact le_rfl
      · rw [consumed] at fetched; cases fetched; exact le_rfl
      · exact forward.le.trans (ih (looped ▸ fetched))

/-- With enough polls a limited loop ends. -/
theorem fetch_isSome_of_limited {deadline : Rat} (limited : request.deadline = some deadline)
    (fuel : Nat) (now : Rat) (enough : deadline - now ≤ fuel * callbackPollInterval) :
    (request.fetch (fuel + 1) now).isSome := by
  induction fuel generalizing now with
  | zero =>
      rcases request.fetch_succ 0 now with
        ⟨timedOut, -⟩ | ⟨payload, consumed, -⟩ | ⟨later, looped, -, forward, ⟨unlimited, -⟩ | wait⟩
      · simp [timedOut]
      · simp [consumed]
      · rw [limited] at unlimited; cases unlimited
      · obtain ⟨other, same, early, -⟩ := wait
        rw [limited] at same
        cases same
        simp only [Nat.cast_zero, zero_mul] at enough
        linarith
  | succ fuel ih =>
      rcases request.fetch_succ (fuel + 1) now with
        ⟨timedOut, -⟩ | ⟨payload, consumed, -⟩ | ⟨later, looped, -, forward, ⟨unlimited, -⟩ | wait⟩
      · simp [timedOut]
      · simp [consumed]
      · rw [limited] at unlimited; cases unlimited
      · obtain ⟨other, same, early, rfl⟩ := wait
        rw [limited] at same
        cases same
        rw [looped]
        apply ih
        push_cast at enough
        have slack : 0 ≤ (fuel : Rat) * callbackPollInterval :=
          mul_nonneg (Nat.cast_nonneg fuel) callbackPollInterval_pos.le
        rcases min_choice callbackPollInterval (deadline - now) with interval | remaining
        · rw [interval]; linarith
        · rw [remaining]; linarith

/-- With enough polls an unlimited loop ends after its response. -/
theorem fetch_isSome_of_answered {ready : Rat} {payload : Payload}
    (unlimited : request.deadline = none) (answered : request.response = some (ready, payload))
    (fuel : Nat) (now : Rat) (enough : ready - now ≤ fuel * callbackPollInterval) :
    (request.fetch (fuel + 1) now).isSome := by
  induction fuel generalizing now with
  | zero =>
      have isReady : request.readyAt now = some payload := by
        simp only [Nat.cast_zero, zero_mul, sub_nonpos] at enough
        simp [readyAt, answered, enough]
      simp [fetch, isReady]
  | succ fuel ih =>
      rcases request.fetch_succ (fuel + 1) now with
        ⟨timedOut, -⟩ | ⟨payload, consumed, -⟩ | ⟨later, looped, -, forward, ⟨-, rfl⟩ | wait⟩
      · simp [timedOut]
      · simp [consumed]
      · rw [looped]
        apply ih
        push_cast at enough
        linarith
      · obtain ⟨deadline, limited, -⟩ := wait
        rw [unlimited] at limited
        cases limited

/-- The fuel of `fetchFrom` is enough. -/
theorem le_ceil_mul (time now : Rat) :
    time - now ≤ (⌈(time - now) / callbackPollInterval⌉₊ : Rat) * callbackPollInterval := by
  have ceil := Nat.le_ceil ((time - now) / callbackPollInterval)
  rwa [div_le_iff₀ callbackPollInterval_pos] at ceil

theorem exists_fuel {now ended : Rat} {reply : Reply}
    (fetched : request.fetchFrom now = some (ended, reply)) :
    ∃ fuel, request.fetch fuel now = some (ended, reply) := by
  rw [fetchFrom] at fetched
  split at fetched
  · exact ⟨_, fetched⟩
  · exact ⟨_, fetched⟩
  · cases fetched

/-- A worker is lost to an unlimited wait without response, and to no other. -/
theorem fetchFrom_eq_none_iff (now : Rat) :
    request.fetchFrom now = none ↔ request.deadline = none ∧ request.response = none := by
  rw [fetchFrom]
  split
  · next deadline limited =>
      have ends := fetch_isSome_of_limited limited _ now (le_ceil_mul deadline now)
      simp [limited, Option.ne_none_iff_isSome.mpr ends, pollsUntil]
  · next ready payload unlimited answered =>
      have ends := fetch_isSome_of_answered unlimited answered _ now (le_ceil_mul ready now)
      simp [answered, Option.ne_none_iff_isSome.mpr ends, pollsUntil]
  · next unlimited unanswered => simp [unlimited, unanswered]

theorem start_le_finish (start : WithTop Rat) : start ≤ request.finish start := by
  cases start with
  | top => exact le_top
  | coe start =>
      simp only [finish]
      cases fetched : request.fetchFrom start with
      | none => exact le_top
      | some result =>
          obtain ⟨fuel, fetched⟩ := exists_fuel fetched
          exact WithTop.coe_le_coe.mpr (le_of_fetch fetched)

/-- The response of the call is ready more than one poll interval before its
deadline. -/
def Timely (request : Request) (payload : Payload) : Prop :=
  ∃ ready, request.response = some (ready, payload) ∧
    ∀ deadline, request.deadline = some deadline → ready + callbackPollInterval < deadline

/-- A loop that starts before the deadline of a timely response gets it before the
deadline. -/
theorem fetch_of_timely {payload : Payload} (timely : request.Timely payload) {fuel : Nat}
    {now ended : Rat} {reply : Reply}
    (early : ∀ deadline, request.deadline = some deadline → now < deadline)
    (fetched : request.fetch fuel now = some (ended, reply)) :
    reply = .ok payload ∧ ∀ deadline, request.deadline = some deadline → ended < deadline := by
  obtain ⟨ready, answered, ahead⟩ := timely
  have pending : ∀ time, request.readyAt time = none → time < ready := by
    intro time notReady
    by_contra late
    simp [readyAt, answered, not_lt.mp late] at notReady
  induction fuel generalizing now with
  | zero => cases fetched
  | succ fuel ih =>
      rcases request.fetch_succ fuel now with
        ⟨-, -, deadline, limited, late⟩ | ⟨got, consumed, isReady⟩ |
          ⟨later, looped, notReady, -, wait⟩
      · exact absurd (early deadline limited) (not_lt.mpr late)
      · rw [consumed] at fetched
        cases fetched
        constructor
        · simp only [readyAt, answered] at isReady
          split at isReady
          · cases isReady; rfl
          · cases isReady
        · exact early
      · apply ih _ (looped ▸ fetched)
        intro deadline limited
        have before := pending now notReady
        have gap := ahead deadline limited
        rcases wait with ⟨unlimited, -⟩ | ⟨other, same, -, rfl⟩
        · rw [unlimited] at limited; cases limited
        · linarith [min_le_left callbackPollInterval (other - now)]

/-- The deadline of a call, `⊤` without one. -/
def deadlineOrTop (request : Request) : WithTop Rat :=
  match request.deadline with
  | some deadline => deadline
  | none => ⊤

/-- A timely call returns its response exactly when a worker takes it before its
deadline. -/
theorem outcome_eq_ok_iff {payload : Payload} (timely : request.Timely payload)
    (start : WithTop Rat) :
    request.outcome start = some (.ok payload) ↔ start < request.deadlineOrTop := by
  cases start with
  | top =>
      cases limited : request.deadline <;> simp [outcome, deadlineOrTop, limited]
  | coe start =>
      have ends : request.fetchFrom start ≠ none := by
        obtain ⟨ready, answered, -⟩ := timely
        simp [fetchFrom_eq_none_iff, answered]
      obtain ⟨⟨ended, reply⟩, fetchedFrom⟩ := Option.ne_none_iff_exists'.mp ends
      obtain ⟨fuel, fetched⟩ := exists_fuel fetchedFrom
      cases limited : request.deadline with
      | none =>
          have got := (fetch_of_timely timely (by simp [limited]) fetched).1
          simp [outcome, deadlineOrTop, limited, fetchedFrom, got]
      | some deadline =>
          simp only [outcome, deadlineOrTop, limited, fetchedFrom, WithTop.coe_lt_coe]
          constructor
          · intro returned
            by_contra late
            have tooLate : ¬ ended < deadline :=
              not_lt.mpr ((not_lt.mp late).trans (le_of_fetch fetched))
            rw [if_neg tooLate] at returned
            cases returned
          · intro early
            obtain ⟨rfl, inTime⟩ :=
              fetch_of_timely timely (by simpa [limited] using early) fetched
            rw [if_pos (inTime deadline limited)]

/-- The task of a call on the request executor. -/
def task (request : Request) : WorkerPool.Task (WithTop Rat) where
  submitted := request.called
  finish := request.finish
  start_le_finish _ := start_le_finish _

end Request

/-! ## The executor -/

/-- What calls made in this order return, with `busy` the workers in use. -/
def results (busy : List (WithTop Rat)) : List Request → List (Option Reply)
  | [] => []
  | request :: requests =>
      request.outcome (WorkerPool.start requestExecutorMaxWorkers busy request.task) ::
        results (WorkerPool.assign requestExecutorMaxWorkers busy request.task) requests

/-- How many of the earlier calls are queued or hold a worker at a time. -/
def unfinishedAt (earlier : List Request) (time : Rat) : Nat :=
  (WorkerPool.finishes requestExecutorMaxWorkers [] (earlier.map Request.task)).countP
    ((time : WithTop Rat) < ·)

theorem results_getElem? (busy : List (WithTop Rat)) (earlier later : List Request)
    (request : Request) :
    (results busy (earlier ++ request :: later))[earlier.length]? =
      some (request.outcome (WorkerPool.start requestExecutorMaxWorkers
        (WorkerPool.serve requestExecutorMaxWorkers busy (earlier.map Request.task))
        request.task)) := by
  induction earlier generalizing busy with
  | nil => rfl
  | cons first earlier ih => exact ih _

/-- A call whose response is ready in time returns it exactly when, at some moment
between the call and its deadline, fewer than four earlier calls are queued or
hold a worker. -/
theorem request_answered_iff (earlier later : List Request) (request : Request)
    (payload : Payload) (timely : request.Timely payload) :
    (results [] (earlier ++ request :: later))[earlier.length]? = some (some (.ok payload)) ↔
      ∃ time : Rat, request.called ≤ time ∧
        (∀ deadline, request.deadline = some deadline → time < deadline) ∧
        unfinishedAt earlier time < requestExecutorMaxWorkers := by
  rw [results_getElem?, Option.some.injEq, Request.outcome_eq_ok_iff timely,
    WorkerPool.start_lt_iff (by decide)]
  constructor
  · intro moment
    rcases moment with ⟨time, after, before, free⟩
    obtain ⟨time, rfl⟩ := WithTop.ne_top_iff_exists.mp (before.trans_le le_top).ne
    refine ⟨time, WithTop.coe_le_coe.mp after, fun deadline limited => ?_, free⟩
    simpa [Request.deadlineOrTop, limited] using before
  · intro moment
    rcases moment with ⟨time, after, before, free⟩
    refine ⟨time, WithTop.coe_le_coe.mpr after, ?_, free⟩
    rw [Request.deadlineOrTop]
    split
    · next deadline limited => exact WithTop.coe_lt_coe.mpr (before deadline limited)
    · exact WithTop.coe_lt_top time

/-- Three silent waits leave a worker for a fourth call. -/
theorem request_answered_beside_three :
    (results [] ([⟨"async_request", 0, some ⟨5, "5.0"⟩, none⟩,
        ⟨"async_request", 0, none, none⟩, ⟨"async_request", 0, none, none⟩] ++
        [⟨"async_request", 0, some ⟨1, "1.0"⟩, some (1 / 10, ⟨0x4302, []⟩)⟩]))[3]? =
      some (some (.ok ⟨0x4302, []⟩)) := by
  refine (request_answered_iff _ [] _ _ ⟨1 / 10, rfl, ?_⟩).mpr ⟨0, le_rfl, ?_, ?_⟩
  · intro deadline limited
    cases limited
    decide +kernel
  · intro deadline limited
    cases limited
    decide +kernel
  · decide +kernel

/-- Four silent waits hold every worker, and a fifth call times out although its
response is ready nine tenths of a second before its deadline. -/
theorem request_starved :
    ¬ ∀ (earlier later : List Request) (request : Request) (payload : Payload),
      request.Timely payload →
        (results [] (earlier ++ request :: later))[earlier.length]? =
          some (some (.ok payload)) := by
  intro answered
  let silent : Request := ⟨"async_request", 0, some ⟨5, "5.0"⟩, none⟩
  let request : Request := ⟨"async_request", 0, some ⟨1, "1.0"⟩, some (1 / 10, ⟨0x4302, []⟩)⟩
  have timely : request.Timely ⟨0x4302, []⟩ := by
    refine ⟨1 / 10, rfl, ?_⟩
    intro deadline limited
    cases limited
    decide +kernel
  have starved : (results [] ([silent, silent, silent, silent] ++ [request]))[4]? =
      some (some (.error (.timeoutError "async_request timed out after 1.0s"))) := by
    decide +kernel
  have got := answered [silent, silent, silent, silent] [] request _ timely
  rw [List.length_cons, List.length_cons, List.length_cons, List.length_cons] at got
  cases starved.symm.trans got

end ObscuraProto
