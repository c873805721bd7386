import ObscuraProto.Endpoint.LoopBlocked

/-!
# Native calls on the loop's thread return

`stop()` and `disconnect()` join an I/O thread, which may be waiting for the coroutine
that called them; `sync_request()` needs an I/O thread to deliver the response.  Neither
is held up for ever.
-/

namespace ObscuraProto

open Transition Processes

namespace LoopState

variable {Name Code : Type} {program : LoopProgram Name Code} {state next : LoopState Name Code}
  {endpoint : EndpointId} {thread : IoThread Name} {label : LoopLabel Name} {id : TaskId}
  {task : LoopTask Code}

/-- The I/O thread a coroutine joins has been told to stop. -/
def Told (state : LoopState Name Code) : Prop :=
  ∀ (id : TaskId) (task : LoopTask Code) (endpoint : EndpointId) (following : Code),
    state.tasks[id]? = some task → task.activity = .stopping endpoint following →
      ∃ thread, state.threads[endpoint]? = some thread ∧ thread.stopping = true

theorem stopping_of_step (taken : (loopThread program).step state label = some next)
    (found : state.threads[endpoint]? = some thread) (stopping : thread.stopping = true) :
    ∃ after, next.threads[endpoint]? = some after ∧ after.stopping = true := by
  obtain ⟨after, there, steps⟩ := threadSteps_of_step taken found
  refine ⟨after, there, ?_⟩
  cases steps with
  | keeps raised => exact raised stopping
  | receives => exact stopping
  | acts steps =>
      obtain ⟨known, threads, same⟩ := threads_of_ioSteps steps
      rw [threads, getElem?_set_of_found found, if_pos rfl] at there
      cases there
      exact same.trans stopping

/-- A task replaced by one that joins no I/O thread. -/
theorem known_of_set {other : TaskId} {changed : LoopTask Code} {following : Code}
    (tasks : next.tasks = state.tasks.set other changed)
    (apart : changed.activity ≠ .stopping endpoint following)
    (known : next.tasks[id]? = some task) (calling : task.activity = .stopping endpoint following) :
    state.tasks[id]? = some task := by
  rw [tasks] at known
  rcases of_getElem?_set known with ⟨-, rfl⟩ | ⟨-, before⟩
  · exact absurd calling apart
  · exact before

/-- A coroutine begins to join an I/O thread by telling it to stop. -/
theorem stopping_of_loopStep {following : Code}
    (taken : state.loopStep program label = some next) (known : next.tasks[id]? = some task)
    (calling : task.activity = .stopping endpoint following) :
    state.tasks[id]? = some task ∨
      ∃ thread, next.threads[endpoint]? = some thread ∧ thread.stopping = true := by
  unfold loopStep at taken
  split at taken
  · next other =>
      split at taken
      · next code future found =>
          simp only [takeTurn] at taken
          cases turn : program.turn code with
          | finish | pause | awaitResponse | syncRequest =>
              simp only [turn, Option.some.injEq] at taken
              subst taken
              exact .inl (known_of_set rfl (by simp [Turn.activity]) known calling)
          | stop target after =>
              simp only [turn] at taken
              obtain ⟨thread, there, rfl⟩ := Option.map_eq_some_iff.mp taken
              rcases of_getElem?_set known with ⟨-, rfl⟩ | ⟨-, before⟩
              · cases calling
                refine .inr ⟨{ thread with stopping := true }, ?_, rfl⟩
                simp only [setThread, setTask]
                rw [getElem?_set_of_found there, if_pos rfl]
              · exact .inl before
      · cases taken
  · split at taken
    · rw [Option.ite_none_right_eq_some] at taken
      cases taken.2
      exact .inl (known_of_set rfl (by simp) known calling)
    · cases taken
  · split at taken
    · cases taken
      exact .inl (known_of_set rfl (by simp) known calling)
    · cases taken
  · split at taken
    · rw [Option.ite_none_right_eq_some] at taken
      cases taken.2
      exact .inl (known_of_set rfl (by simp) known calling)
    · rw [Option.ite_none_right_eq_some] at taken
      cases taken.2
      exact .inl (known_of_set rfl (by simp) known calling)
    · cases taken
  · cases taken

theorem known_of_returnStep {other : TaskId} {following : Code}
    (taken : state.returnStep other label = some next) (known : next.tasks[id]? = some task)
    (calling : task.activity = .stopping endpoint following) : state.tasks[id]? = some task := by
  unfold returnStep at taken
  split at taken
  · split at taken
    · rw [Option.ite_none_right_eq_some] at taken
      cases taken.2
      exact known_of_set rfl (by simp) known calling
    · cases taken
  · split at taken
    · rw [Option.ite_none_right_eq_some] at taken
      cases taken.2
      exact known_of_set rfl (by simp) known calling
    · cases taken
  · cases taken

theorem Told.step (told : state.Told) (taken : (loopThread program).step state label = some next) :
    next.Told := by
  intro id task endpoint following known calling
  have before : ∀ {task : LoopTask Code}, state.tasks[id]? = some task →
      task.activity = .stopping endpoint following →
        ∃ thread, next.threads[endpoint]? = some thread ∧ thread.stopping = true := by
    intro task earlier calling
    obtain ⟨thread, found, stopping⟩ := told id task endpoint following earlier calling
    exact stopping_of_step taken found stopping
  have stepped := taken
  simp only [loopThread, LoopState.step] at taken
  split at taken
  · obtain ⟨receiver, there, rfl⟩ := Option.map_eq_some_iff.mp taken
    exact before known calling
  · obtain ⟨actor, there, acted⟩ := Option.bind_eq_some_iff.mp taken
    rcases activity_before_ioSteps (ioSteps_of_act acted) known with
      ⟨earlier, there, same⟩ | ⟨code, ready⟩
    · exact before there (same.trans calling)
    · cases ready.symm.trans calling
  · obtain ⟨stopped, there, rfl⟩ := Option.map_eq_some_iff.mp taken
    exact before known calling
  · split at taken
    · rcases stopping_of_loopStep taken known calling with earlier | there
      · exact before earlier calling
      · exact there
    · exact before (known_of_returnStep taken known calling) calling

theorem told_of_reached (reached : (loopThread program).Reached System.Free state) :
    state.Told := by
  apply reached.invariant Told
  · intro id task endpoint following known calling
    obtain ⟨code, -, rfl⟩ := List.mem_map.mp (List.mem_of_getElem? known)
    cases calling
  · exact fun _ _ _ told _ taken => told.step taken

/-! ## Answers -/

theorem delivered_deliver {message : Message Name} {pair : PeerKey × Payload}
    (before : pair ∈ state.delivered) :
    pair ∈ (state.deliver program endpoint thread message).delivered := by
  cases message with
  | answer key content => exact List.mem_append_left _ before
  | invoke name =>
      rw [deliver]
      split <;> exact before

theorem delivered_of_step {pair : PeerKey × Payload} (before : pair ∈ state.delivered)
    (taken : (loopThread program).step state label = some next) : pair ∈ next.delivered := by
  simp only [loopThread, LoopState.step] at taken
  split at taken
  · obtain ⟨receiver, -, rfl⟩ := Option.map_eq_some_iff.mp taken
    exact before
  · obtain ⟨actor, -, acted⟩ := Option.bind_eq_some_iff.mp taken
    cases ioSteps_of_act acted with
    | deliver => exact delivered_deliver before
    | collect | pending | expire | sleep | wake | exit => exact before
  · obtain ⟨stopped, -, rfl⟩ := Option.map_eq_some_iff.mp taken
    exact before
  · split at taken
    · exact (loopKeeps_of_loopStep taken).delivered ▸ before
    · exact (loopKeeps_of_returnStep taken).1.delivered ▸ before

/-- An answer is in the inbox of an endpoint or delivered. -/
def Holds (state : LoopState Name Code) (endpoint : EndpointId) (key : PeerKey)
    (content : Payload) : Prop :=
  (key, content) ∈ state.delivered ∨
    ∃ thread, state.threads[endpoint]? = some thread ∧ .answer key content ∈ thread.inbox

theorem holds_of_ioSteps {key : PeerKey} {content : Payload} {action : IoAction}
    (steps : IoSteps program state endpoint thread action next)
    (found : state.threads[endpoint]? = some thread) (queued : .answer key content ∈ thread.inbox) :
    next.Holds endpoint key content := by
  have kept : ∀ {after : IoThread Name}, next.threads = state.threads.set endpoint after →
      .answer key content ∈ after.inbox → next.Holds endpoint key content := by
    intro after threads member
    refine .inr ⟨after, ?_, member⟩
    rw [threads, getElem?_set_of_found found, if_pos rfl]
  cases steps with
  | @deliver reading message inbox idle head forward =>
      rw [head] at queued
      rcases List.mem_cons.mp queued with rfl | later
      · exact .inl (List.mem_append_right _ (List.mem_singleton.mpr rfl))
      · obtain ⟨after, threads, inboxes, -⟩ := threads_deliver _
        exact kept threads (inboxes ▸ later)
  | collect | pending | expire | sleep | wake | exit => exact kept rfl queued

theorem Holds.step {key : PeerKey} {content : Payload} (holds : state.Holds endpoint key content)
    (taken : (loopThread program).step state label = some next) :
    next.Holds endpoint key content := by
  rcases holds with before | ⟨thread, found, queued⟩
  · exact .inl (delivered_of_step before taken)
  · obtain ⟨after, there, steps⟩ := threadSteps_of_step taken found
    cases steps with
    | keeps => exact .inr ⟨_, there, queued⟩
    | receives => exact .inr ⟨_, there, List.mem_append_left _ queued⟩
    | acts steps => exact holds_of_ioSteps steps found queued

end LoopState

open LoopState in
/-- A native `stop()` on the loop's thread returns: the I/O thread it joins takes a bounded
number of steps, even when it waits for the very coroutine that called it. -/
theorem stop_returns {Name Code : Type} {program : LoopProgram Name Code}
    {state later : LoopState Name Code} {labels : List (LoopLabel Name)} {id : TaskId}
    {endpoint : EndpointId} {following : Code} {future : ConcurrentFuture}
    (reached : (loopThread program).Reached System.Free state) (blocked : state.blocked = some id)
    (calling : state.tasks[id]? = some ⟨.stopping endpoint following, future⟩)
    (ran : (loopThread program).run StandsStill state labels = some later) :
    labels.countP (LoopLabel.isIoOf endpoint) ≤ state.workOf program endpoint +
        program.messageWork * labels.countP (LoopLabel.isReceiveOf endpoint) ∧
      ∃ label next, (loopThread program).step later label = some next ∧
        (label.isIoOf endpoint = true ∨ label = .joined) := by
  obtain ⟨thread, found, stopping⟩ :=
    told_of_reached reached id _ endpoint following calling rfl
  have bounded := (messageBudget program endpoint StandsStill).countP_add_rank_le
    ⟨thread, found⟩ ran
  refine ⟨Nat.le_of_add_right_le bounded, ?_⟩
  obtain ⟨since, stillBlocked⟩ := since_of_run reached blocked ran
  obtain ⟨current, waiting⟩ := since.activity id _ calling
  have later_reached := reached.trans ((System.along_of_run ran).mono fun _ _ _ => trivial)
  obtain ⟨joined, there, told⟩ :=
    told_of_reached later_reached id _ endpoint following waiting rfl
  by_cases rests : later.Rests endpoint
  · obtain ⟨known, same, exited | ⟨-, -, running⟩⟩ := rests
    · refine ⟨.joined, { later.setTask id ⟨.ready following, current⟩ with blocked := none }, ?_,
        .inr rfl⟩
      simp only [loopThread, LoopState.step, stillBlocked, returnStep, waiting, same,
        Option.map_some, exited, if_true]
    · rw [same] at there
      cases there
      rw [running] at told
      cases told
  · obtain ⟨action, next, acted⟩ := exists_act there rests
    exact ⟨.io endpoint action, next, acted, .inl (BEq.rfl)⟩

open LoopState in
/-- The I/O thread waits for a request handler when the program leaves its `async with`. -/
theorem stop_returns_leaving :
    ∃ later labels, (loopThread leavingProgram).run StandsStill leavingState labels = some later ∧
      labels.length = 3 ∧
      labels.countP (LoopLabel.isIoOf 0) ≤ leavingState.workOf leavingProgram 0 +
          leavingProgram.messageWork * labels.countP (LoopLabel.isReceiveOf 0) ∧
        ∃ label next, (loopThread leavingProgram).step later label = some next ∧
          (label.isIoOf 0 = true ∨ label = .joined) := by
  let labels : List (LoopLabel Unit) := [.io 0 .poll, .io 0 (.check 5), .io 0 .exit]
  have ran : ((loopThread leavingProgram).run StandsStill leavingState labels).isSome = true := by
    decide +kernel
  obtain ⟨later, after⟩ := Option.isSome_iff_exists.mp ran
  exact ⟨later, labels, after, rfl, stop_returns reached_leavingState rfl rfl after⟩

open LoopState in
/-- A native `sync_request()` on the loop's thread returns once its response is among the
messages an endpoint has received, unless the endpoint is stopped before. -/
theorem syncRequest_returns {Name Code : Type} {program : LoopProgram Name Code}
    {state later : LoopState Name Code} {labels : List (LoopLabel Name)} {id : TaskId}
    {endpoint : EndpointId} {thread : IoThread Name} {key : PeerKey} {content : Payload}
    {resume : Payload → Code} {future : ConcurrentFuture}
    (reached : (loopThread program).Reached System.Free state) (blocked : state.blocked = some id)
    (calling : state.tasks[id]? = some ⟨.requesting key resume, future⟩)
    (found : state.threads[endpoint]? = some thread) (queued : .answer key content ∈ thread.inbox)
    (ran : (loopThread program).run StandsStill state labels = some later) :
    labels.countP (LoopLabel.isIoOf endpoint) ≤ state.workOf program endpoint +
        program.messageWork * labels.countP (LoopLabel.isReceiveOf endpoint) ∧
      ((∃ label next, (loopThread program).step later label = some next ∧
          (label.isIoOf endpoint = true ∨ label = .answered content)) ∨
        later.threads[endpoint]?.map (·.phase) = some .exited) := by
  let budget := messageBudget program endpoint StandsStill
  have bounded := budget.countP_add_rank_le ⟨thread, found⟩ ran
  refine ⟨Nat.le_of_add_right_le bounded, ?_⟩
  obtain ⟨since, stillBlocked⟩ := since_of_run reached blocked ran
  obtain ⟨current, waiting⟩ := since.activity id _ calling
  have along := System.along_of_run ran
  have holds : later.Holds endpoint key content :=
    along.invariant (fun state => state.Holds endpoint key content)
      (.inr ⟨thread, found, queued⟩)
      fun _ _ _ holds _ taken => holds.step taken
  obtain ⟨known, there⟩ := along.invariant _ ⟨thread, found⟩ budget.kept
  rcases holds with delivered | ⟨same, again, member⟩
  · refine .inl ⟨.answered content,
      { later.setTask id ⟨.ready (resume content), current⟩ with blocked := none }, ?_, .inr rfl⟩
    have arrived : later.delivered.contains (key, content) = true :=
      List.contains_iff_mem.mpr delivered
    simp only [loopThread, LoopState.step, stillBlocked, returnStep, waiting, arrived, if_true]
  · by_cases rests : later.Rests endpoint
    · obtain ⟨resting, here, exited | ⟨-, empty, -⟩⟩ := rests
      · exact .inr (by rw [here, Option.map_some, exited])
      · rw [again] at here
        cases here
        rw [empty] at member
        cases member
    · obtain ⟨action, next, acted⟩ := exists_act there rests
      exact .inl ⟨.io endpoint action, next, acted, .inl BEq.rfl⟩

open LoopState in
/-- The I/O thread waits for a request handler when the response arrives behind it. -/
theorem syncRequest_returns_behind :
    ∃ state later labels, (loopThread leavingProgram).run StandsStill state labels = some later ∧
      labels.length = 2 ∧
      labels.countP (LoopLabel.isIoOf 0) ≤ state.workOf leavingProgram 0 +
          leavingProgram.messageWork * labels.countP (LoopLabel.isReceiveOf 0) ∧
        ((∃ label next, (loopThread leavingProgram).step later label = some next ∧
            (label.isIoOf 0 = true ∨ label = .answered ⟨0x4301, []⟩)) ∨
          later.threads[0]?.map (·.phase) = some .exited) := by
  let state : LoopState Unit Nat :=
    { threads := [{ inbox := [.answer 7 ⟨0x4301, []⟩], phase := .polling ⟨2, 5⟩ }]
      tasks := [⟨.ready 0, {}⟩, ⟨.requesting 7 fun _ => 3, {}⟩, ⟨.ready 2, {}⟩]
      blocked := some 1 }
  have reached : (loopThread leavingProgram).run System.Free (loopThread leavingProgram).initial
      [.receive 0 (.invoke ()), .io 0 (.deliver 0), .receive 0 (.answer 7 ⟨0x4301, []⟩),
        .turn 1] = some state := by
    have waits : (leavingProgram.wrapper ()).waits = true := rfl
    simp [System.run, loopThread, LoopState.step, act, deliver, loopStep, takeTurn, setThread,
      setTask, Turn.activity, state, waits]
    simp [leavingProgram]
  let labels : List (LoopLabel Unit) := [.io 0 .poll, .io 0 (.check 5)]
  have ran : ((loopThread leavingProgram).run StandsStill state labels).isSome = true := by
    decide +kernel
  obtain ⟨later, after⟩ := Option.isSome_iff_exists.mp ran
  exact ⟨state, later, labels, after, rfl,
    syncRequest_returns (System.along_of_run reached) rfl rfl rfl (by simp) after⟩

end ObscuraProto
