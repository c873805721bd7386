import ObscuraProto.Bridge.RequestPool

/-!
# How long requests wait for each other

A request holds a worker until it is resolved: until its response or its deadline,
whichever comes first, and at most one poll interval longer.  So the responses and the
deadlines of the earlier requests tell whether a worker comes to a request in time.
-/

namespace ObscuraProto

namespace Request

/-- When the response is ready, `⊤` without one. -/
def readyOrTop (request : Request) : WithTop Rat :=
  match request.response with
  | some (ready, _) => ready
  | none => ⊤

/-- The response is ready or the deadline has come. -/
def resolved (request : Request) : WithTop Rat :=
  min request.deadlineOrTop request.readyOrTop

/-- A worker knows of the response, or the deadline has come. -/
def noticed (request : Request) : WithTop Rat :=
  match request.response with
  | some (ready, _) => min request.deadlineOrTop (ready + callbackPollInterval : Rat)
  | none => request.deadlineOrTop

variable {request : Request}

theorem lt_ready_of_readyAt {now : Rat} (pending : request.readyAt now = none) :
    (now : WithTop Rat) < request.readyOrTop := by
  rw [readyOrTop]
  cases answered : request.response with
  | none => exact WithTop.coe_lt_top now
  | some response =>
      simp only [readyAt, answered, ite_eq_right_iff, reduceCtorEq, imp_false] at pending
      exact WithTop.coe_lt_coe.mpr (not_le.mp pending)

theorem ready_le_of_readyAt {now : Rat} {payload : Payload}
    (ready : request.readyAt now = some payload) : request.readyOrTop ≤ now := by
  rw [readyOrTop]
  cases answered : request.response with
  | none => simp [readyAt, answered] at ready
  | some response =>
      simp only [readyAt, answered, Option.ite_none_right_eq_some] at ready
      exact WithTop.coe_le_coe.mpr ready.1

/-- A sleep after a poll that found nothing ends before the response is noticed. -/
theorem le_noticed {now later : Rat} (pending : request.readyAt now = none)
    (slept : later ≤ now + callbackPollInterval)
    (inTime : (later : WithTop Rat) ≤ request.deadlineOrTop) :
    (later : WithTop Rat) ≤ request.noticed := by
  have before := lt_ready_of_readyAt pending
  rw [readyOrTop] at before
  rw [noticed]
  cases answered : request.response with
  | none => exact inTime
  | some response =>
      rw [answered] at before
      refine le_min inTime (WithTop.coe_le_coe.mpr ?_)
      have early := WithTop.coe_lt_coe.mp before
      linarith

/-- The loop ends when the request is resolved or the worker comes to it later, and notices
within a poll interval. -/
theorem fetch_bounds {fuel : Nat} {now ended : Rat} {reply : Reply}
    (fetched : request.fetch fuel now = some (ended, reply)) :
    request.resolved ≤ ended ∧ (ended : WithTop Rat) ≤ max ↑now request.noticed := by
  induction fuel generalizing now with
  | zero => cases fetched
  | succ fuel ih =>
      rcases request.fetch_succ fuel now with
        ⟨timedOut, -, deadline, limited, late⟩ | ⟨payload, consumed, ready⟩ |
          ⟨later, looped, pending, -, wait⟩
      · rw [timedOut] at fetched
        cases fetched
        refine ⟨min_le_of_left_le ?_, le_max_left _ _⟩
        rw [deadlineOrTop, limited]
        exact WithTop.coe_le_coe.mpr late
      · rw [consumed] at fetched
        cases fetched
        exact ⟨min_le_of_right_le (ready_le_of_readyAt ready), le_max_left _ _⟩
      · obtain ⟨above, below⟩ := ih (looped ▸ fetched)
        refine ⟨above, below.trans (max_le ?_ (le_max_right _ _))⟩
        apply le_max_of_le_right
        rcases wait with ⟨unlimited, rfl⟩ | ⟨deadline, limited, -, rfl⟩
        · apply le_noticed pending le_rfl
          rw [deadlineOrTop, unlimited]
          exact le_top
        · apply le_noticed pending
          · linarith [min_le_left callbackPollInterval (deadline - now)]
          · rw [deadlineOrTop, limited]
            apply WithTop.coe_le_coe.mpr
            linarith [min_le_right callbackPollInterval (deadline - now)]

theorem resolved_le_finish (start : WithTop Rat) : request.resolved ≤ request.finish start := by
  cases start with
  | top => exact le_top
  | coe start =>
      simp only [finish]
      cases fetched : request.fetchFrom start with
      | none => exact le_top
      | some result =>
          obtain ⟨fuel, fetched⟩ := exists_fuel fetched
          exact (fetch_bounds fetched).1

theorem finish_le_noticed (start : WithTop Rat) :
    request.finish start ≤ max start request.noticed := by
  cases start with
  | top => exact le_max_of_le_left le_rfl
  | coe start =>
      simp only [finish]
      cases fetched : request.fetchFrom start with
      | none =>
          obtain ⟨unlimited, unanswered⟩ := (fetchFrom_eq_none_iff start).mp fetched
          apply le_max_of_le_right
          rw [noticed, unanswered, deadlineOrTop, unlimited]
      | some result =>
          obtain ⟨fuel, fetched⟩ := exists_fuel fetched
          exact (fetch_bounds fetched).2

end Request

/-- At some moment between a call and its deadline, fewer earlier requests than there are
workers have this time still ahead. -/
def HasMoment (earlier : List Request) (request : Request) (held : Request → WithTop Rat) : Prop :=
  ∃ time : Rat, request.called ≤ time ∧
    (∀ deadline, request.deadline = some deadline → time < deadline) ∧
      earlier.countP (fun other => (time : WithTop Rat) < held other) < requestExecutorMaxWorkers

theorem Request.lt_deadlineOrTop_iff {request : Request} {time : Rat} :
    (time : WithTop Rat) < request.deadlineOrTop ↔
      ∀ deadline, request.deadline = some deadline → time < deadline := by
  rw [deadlineOrTop]
  split
  · next deadline limited => simp [limited]
  · next unlimited => simp [unlimited, WithTop.coe_lt_top]

/-- A call whose response is ready in time returns it when at some moment before its
deadline fewer than four earlier requests are unnoticed, and only when at such a moment
fewer than four are unresolved.  The two are a poll interval apart. -/
theorem request_answered_between (earlier later : List Request) (request : Request)
    (payload : Payload) (timely : request.Timely payload)
    (inOrder : ∀ other ∈ earlier, other.called ≤ request.called) :
    (HasMoment earlier request Request.noticed →
      (results [] (earlier ++ request :: later))[earlier.length]? = some (some (.ok payload))) ∧
    ((results [] (earlier ++ request :: later))[earlier.length]? = some (some (.ok payload)) →
      HasMoment earlier request Request.resolved) := by
  rw [results_getElem?, Option.some.injEq, Request.outcome_eq_ok_iff timely]
  constructor
  · rintro ⟨time, after, before, few⟩
    have submitted : ∀ other ∈ earlier, other.task.submitted ≤ (time : WithTop Rat) :=
      fun other member => WithTop.coe_le_coe.mpr ((inOrder other member).trans after)
    have unfinished := WorkerPool.countP_finishes_le (by decide)
      (fun _ _ => Request.finish_le_noticed) submitted few
    have begun : WorkerPool.start requestExecutorMaxWorkers
        (WorkerPool.serve requestExecutorMaxWorkers [] (earlier.map Request.task)) request.task ≤
          max (request.called : WithTop Rat) time :=
      WorkerPool.start_le_of_free (by decide) (unfinished.trans_lt few)
    exact begun.trans_lt (max_lt (Request.lt_deadlineOrTop_iff.mpr fun deadline limited =>
      after.trans_lt (before deadline limited)) (Request.lt_deadlineOrTop_iff.mpr before))
  · rw [WorkerPool.start_lt_iff (by decide)]
    rintro ⟨time, after, before, few⟩
    obtain ⟨time, rfl⟩ := WithTop.ne_top_iff_exists.mp (before.trans_le le_top).ne
    refine ⟨time, WithTop.coe_le_coe.mp after, Request.lt_deadlineOrTop_iff.mp before, ?_⟩
    exact (WorkerPool.le_countP_finishes fun _ _ => Request.resolved_le_finish).trans_lt few

/-- Four requests hold all workers until the fourth of them is answered. -/
theorem request_answered_between_fifth :
    (results [] ([⟨"async_request", 0, some ⟨5, "5.0"⟩, none⟩,
        ⟨"async_request", 0, some ⟨5, "5.0"⟩, none⟩, ⟨"async_request", 0, none, none⟩,
        ⟨"async_request", 0, none, some (1 / 5, ⟨0x4301, []⟩)⟩] ++
        [⟨"async_request", 0, some ⟨1, "1.0"⟩, some (1 / 10, ⟨0x4302, []⟩)⟩]))[4]? =
      some (some (.ok ⟨0x4302, []⟩)) := by
  refine (request_answered_between _ [] _ _ ⟨1 / 10, rfl, ?_⟩ ?_).1 ⟨3 / 10, ?_, ?_, ?_⟩
  · intro deadline limited
    cases limited
    decide +kernel
  · decide +kernel
  · decide +kernel
  · intro deadline limited
    cases limited
    decide +kernel
  · decide +kernel

end ObscuraProto
