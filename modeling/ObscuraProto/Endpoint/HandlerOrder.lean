import ObscuraProto.Endpoint.LoopBlocked

/-!
# What comes behind a handler

An I/O thread delivers nothing while it waits for the coroutine of a handler.  So what
lies behind the message of an `on_stream` handler, the events of the stream among it, is
delivered when the handler has ended, with its callbacks registered, or when the result
timeout has run out.
-/

namespace ObscuraProto

open Transition Processes

/-- What a step of the loop's thread does to a task. -/
inductive TaskChange {Code : Type} (before : LoopTask Code) : LoopTask Code → Prop
  | keeps : TaskChange before before
  | moves (activity : Activity Code)
      (unfinished : ∀ outcome, before.activity ≠ .ended outcome) :
      TaskChange before ⟨activity, before.future⟩
  | settles {outcome : Except PyExc PyValue} (ended : before.activity = .ended outcome) :
      TaskChange before ⟨.ended outcome, before.future.settle (.finished outcome)⟩

namespace LoopState

variable {Name Code : Type} {program : LoopProgram Name Code} {state next : LoopState Name Code}
  {endpoint : EndpointId} {thread : IoThread Name} {action : IoAction} {label : LoopLabel Name}
  {id other : TaskId} {task before after : LoopTask Code} {wait : Wait}

theorem change_of_set (found : state.tasks[id]? = some before)
    (tasks : next.tasks = state.tasks.set id after) (change : TaskChange before after)
    (known : next.tasks[other]? = some task) :
    ∃ earlier, state.tasks[other]? = some earlier ∧ TaskChange earlier task := by
  rw [tasks] at known
  rcases of_getElem?_set known with ⟨rfl, rfl⟩ | ⟨-, same⟩
  · exact ⟨before, found, change⟩
  · exact ⟨task, same, .keeps⟩

theorem change_of_takeTurn {code : Code} {future : ConcurrentFuture} {turn : Turn Code}
    (found : state.tasks[id]? = some ⟨.ready code, future⟩)
    (taken : state.takeTurn id future turn = some next) (known : next.tasks[other]? = some task) :
    ∃ earlier, state.tasks[other]? = some earlier ∧ TaskChange earlier task := by
  have moved : next.tasks = state.tasks.set id ⟨turn.activity, future⟩ := by
    cases turn with
    | finish | pause | awaitResponse | syncRequest => cases taken; rfl
    | stop =>
        obtain ⟨thread, -, rfl⟩ := Option.map_eq_some_iff.mp taken
        rfl
  exact change_of_set found moved (.moves _ (by simp)) known

theorem change_of_loopStep (taken : state.loopStep program label = some next)
    (known : next.tasks[other]? = some task) :
    ∃ earlier, state.tasks[other]? = some earlier ∧ TaskChange earlier task := by
  unfold loopStep at taken
  split at taken
  · split at taken
    · next found => exact change_of_takeTurn found taken known
    · cases taken
  · split at taken
    · next found =>
        rw [Option.ite_none_right_eq_some] at taken
        cases taken.2
        exact change_of_set found rfl (.moves _ (by simp)) known
    · cases taken
  · split at taken
    · next found =>
        cases taken
        exact change_of_set found rfl (.settles rfl) known
    · cases taken
  · split at taken
    · next found =>
        rw [Option.ite_none_right_eq_some] at taken
        cases taken.2
        exact change_of_set found rfl (.moves _ (by simp)) known
    · next found =>
        rw [Option.ite_none_right_eq_some] at taken
        cases taken.2
        exact change_of_set found rfl (.moves _ (by simp)) known
    · cases taken
  · cases taken

theorem change_of_returnStep (taken : state.returnStep id label = some next)
    (known : next.tasks[other]? = some task) :
    ∃ earlier, state.tasks[other]? = some earlier ∧ TaskChange earlier task := by
  unfold returnStep at taken
  split at taken
  · split at taken
    · next found =>
        rw [Option.ite_none_right_eq_some] at taken
        cases taken.2
        exact change_of_set found rfl (.moves _ (by simp)) known
    · cases taken
  · split at taken
    · next found =>
        rw [Option.ite_none_right_eq_some] at taken
        cases taken.2
        exact change_of_set found rfl (.moves _ (by simp)) known
    · cases taken
  · cases taken

/-- A task after a step of an I/O thread is new, abandoned or as it was. -/
theorem task_of_ioSteps (steps : IoSteps program state endpoint thread action next)
    (known : next.tasks[other]? = some task) :
    (∃ code, task = ⟨.ready code, {}⟩) ∨ ∃ earlier, state.tasks[other]? = some earlier ∧
      (task = earlier ∨ task = ⟨earlier.activity, earlier.future.abandon⟩) := by
  cases steps with
  | deliver =>
      obtain ⟨fresh, same, ready⟩ := tasks_deliver _
      rw [same] at known
      rcases Nat.lt_or_ge other state.tasks.length with old | beyond
      · rw [List.getElem?_append_left old] at known
        exact .inr ⟨task, known, .inl rfl⟩
      · rw [List.getElem?_append_right beyond] at known
        exact .inl (ready task (List.mem_of_getElem? known))
  | @expire reading wait =>
      simp only [tasks_setThread, abandon, List.getElem?_modify] at known
      obtain ⟨earlier, found, same⟩ := Option.map_eq_some_iff.mp known
      refine .inr ⟨earlier, found, ?_⟩
      split at same
      · exact .inr same.symm
      · exact .inl same.symm
  | collect | pending | sleep | wake | exit => exact .inr ⟨task, known, .inl rfl⟩

/-- A future that holds an outcome has it from the task, and the futures the I/O threads
wait for are not cancelled. -/
structure Settled (state : LoopState Name Code) : Prop where
  finished : ∀ (id : TaskId) (task : LoopTask Code) (outcome : Except PyExc PyValue),
    state.tasks[id]? = some task → task.future.state = .finished outcome →
      task.activity = .ended outcome
  live : ∀ (endpoint : EndpointId) (wait : Wait) (task : LoopTask Code),
    state.Waits endpoint wait → state.tasks[wait.task]? = some task →
      task.future.state ≠ .cancelled

theorem ended_of_change {outcome : Except PyExc PyValue} (change : TaskChange before after)
    (sound : ∀ outcome, before.future.state = .finished outcome →
      before.activity = .ended outcome)
    (holds : after.future.state = .finished outcome) : after.activity = .ended outcome := by
  cases change with
  | keeps => exact sound outcome holds
  | moves activity unfinished => exact absurd (sound outcome holds) (unfinished outcome)
  | settles ended =>
      simp only [ConcurrentFuture.settle] at holds
      split at holds
      · exact ended.symm.trans (sound outcome holds)
      · cases holds
        rfl

theorem finished_of_abandon {future : ConcurrentFuture} {outcome : Except PyExc PyValue}
    (holds : future.abandon.state = .finished outcome) : future.state = .finished outcome := by
  simp only [ConcurrentFuture.abandon, ConcurrentFuture.cancel, ConcurrentFuture.settle] at holds
  split at holds
  · exact holds
  · cases holds

/-- No step of the loop's thread cancels a future. -/
theorem live_of_change (change : TaskChange before after)
    (live : before.future.state ≠ .cancelled) : after.future.state ≠ .cancelled := by
  cases change with
  | keeps => exact live
  | moves => exact live
  | settles =>
      simp only [ConcurrentFuture.settle]
      split
      · exact live
      · simp

/-- The task an I/O thread waits for after a step of one is untouched, or new. -/
theorem Distinct.task_eq {other : EndpointId} (distinct : state.Distinct)
    (steps : IoSteps program state endpoint thread action next)
    (found : state.threads[endpoint]? = some thread) (waits : next.Waits other wait)
    (known : next.tasks[wait.task]? = some task) :
    (∃ code, task = ⟨.ready code, {}⟩) ∨
      state.Waits other wait ∧ state.tasks[wait.task]? = some task := by
  rcases waits_of_ioSteps steps found waits with before | ⟨-, fresh, -⟩
  · have old := distinct.bound other wait before
    cases steps with
    | deliver =>
        obtain ⟨added, same, -⟩ := tasks_deliver _
        rw [same, List.getElem?_append_left old] at known
        exact .inr ⟨before, known⟩
    | @expire reading within checking =>
        obtain ⟨current, there, isWait⟩ := waits
        rcases of_getElem?_set there with ⟨rfl, rfl⟩ | ⟨apart, -⟩
        · cases isWait
        · have others : within.task ≠ wait.task := by
            intro same
            exact apart (distinct.apart other endpoint wait within before
              ⟨thread, found, by rw [checking, IoPhase.wait]⟩ same.symm)
          have same : state.tasks[wait.task]? = some task := by
            simpa [abandon, others] using known
          exact .inr ⟨before, same⟩
    | collect | pending | sleep | wake | exit => exact .inr ⟨before, known⟩
  · rcases task_of_ioSteps steps known with isNew | ⟨earlier, there, -⟩
    · exact .inl isNew
    · rw [fresh, List.getElem?_eq_none le_rfl] at there
      cases there

theorem Settled.io (settled : state.Settled) (distinct : state.Distinct)
    (steps : IoSteps program state endpoint thread action next)
    (found : state.threads[endpoint]? = some thread) : next.Settled where
  finished id task outcome known holds := by
    rcases task_of_ioSteps steps known with ⟨code, rfl⟩ | ⟨earlier, there, rfl | rfl⟩
    · cases holds
    · exact settled.finished id task outcome there holds
    · exact settled.finished id earlier outcome there (finished_of_abandon holds)
  live other wait task waits known := by
    rcases distinct.task_eq steps found waits known with ⟨code, rfl⟩ | ⟨before, same⟩
    · simp
    · exact settled.live other wait task before same

theorem Settled.of_changes (settled : state.Settled)
    (changes : ∀ (id : TaskId) (task : LoopTask Code), next.tasks[id]? = some task →
      ∃ earlier, state.tasks[id]? = some earlier ∧ TaskChange earlier task)
    (kept : ∀ endpoint wait, next.Waits endpoint wait → state.Waits endpoint wait) :
    next.Settled where
  finished id task outcome known holds := by
    obtain ⟨earlier, found, change⟩ := changes id task known
    exact ended_of_change change (fun outcome => settled.finished id earlier outcome found) holds
  live endpoint wait task waits known := by
    obtain ⟨earlier, found, change⟩ := changes wait.task task known
    exact live_of_change change (settled.live endpoint wait earlier (kept _ _ waits) found)

theorem Settled.step (settled : state.Settled) (distinct : state.Distinct)
    (taken : (loopThread program).step state label = some next) : next.Settled := by
  have same : ∀ {endpoint : EndpointId} {thread after : IoThread Name},
      state.threads[endpoint]? = some thread → after.phase = thread.phase →
        (state.setThread endpoint after).Settled := fun found phase =>
    settled.of_changes (fun _ task known => ⟨task, known, .keeps⟩)
      fun _ _ => waits_of_set found rfl phase
  simp only [loopThread, LoopState.step] at taken
  split at taken
  · obtain ⟨receiver, found, rfl⟩ := Option.map_eq_some_iff.mp taken
    exact same found rfl
  · obtain ⟨actor, found, acted⟩ := Option.bind_eq_some_iff.mp taken
    exact settled.io distinct (ioSteps_of_act acted) found
  · obtain ⟨stopped, found, rfl⟩ := Option.map_eq_some_iff.mp taken
    exact same found rfl
  · split at taken
    · exact settled.of_changes (fun _ _ => change_of_loopStep taken)
        fun _ _ => waits_of_loopKeeps (loopKeeps_of_loopStep taken)
    · exact settled.of_changes (fun _ _ => change_of_returnStep taken)
        fun _ _ => waits_of_loopKeeps (loopKeeps_of_returnStep taken).1

theorem settled_of_reached (reached : (loopThread program).Reached System.Free state) :
    state.Settled := by
  apply reached.invariant_of Settled fun _ => distinct_of_reached
  · have fresh : ∀ {id : TaskId} {task : LoopTask Code},
        (loopThread program).initial.tasks[id]? = some task → task.future = {} := by
      intro id task known
      obtain ⟨code, -, rfl⟩ := List.mem_map.mp (List.mem_of_getElem? known)
      rfl
    constructor
    · intro id task outcome known holds
      rw [fresh known] at holds
      cases holds
    · intro endpoint wait task waits known
      rw [fresh known]
      simp
  · exact fun _ _ _ distinct settled _ taken => settled.step distinct taken

/-! ## The end of a wait -/

/-- A wait has ended: its coroutine has, and with the outcome the wait gave, or the result
timeout has run out. -/
def WaitEnded (program : LoopProgram Name Code) (wait : Wait) (state : LoopState Name Code) :
    Prop :=
  ∃ outcome, (wait.task, outcome) ∈ state.results ∧
    ((∃ future, state.tasks[wait.task]? = some ⟨.ended outcome, future⟩) ∨
      outcome = .error (callbackTimeout program.resultTimeout) ∧ wait.deadline ≤ state.clock)

theorem ended_of_changes {outcome : Except PyExc PyValue} {future : ConcurrentFuture}
    (known : state.tasks[id]? = some ⟨.ended outcome, future⟩)
    (length : next.tasks.length = state.tasks.length)
    (changes : ∀ task, next.tasks[id]? = some task →
      ∃ earlier, state.tasks[id]? = some earlier ∧ TaskChange earlier task) :
    ∃ future, next.tasks[id]? = some ⟨.ended outcome, future⟩ := by
  have bound : id < next.tasks.length := length ▸ (List.getElem?_eq_some_iff.mp known).1
  obtain ⟨earlier, found, change⟩ := changes _ (List.getElem?_eq_getElem bound)
  rw [known] at found
  cases found
  rw [List.getElem?_eq_getElem bound]
  generalize next.tasks[id] = task at change
  cases change with
  | keeps => exact ⟨future, rfl⟩
  | moves activity unfinished => exact absurd rfl (unfinished outcome)
  | settles ended =>
      cases ended
      exact ⟨_, rfl⟩

/-- A coroutine that has ended stays so; what is recorded stays, and the clock goes on. -/
theorem kept_of_step (taken : (loopThread program).step state label = some next) :
    (∀ (id : TaskId) outcome future, state.tasks[id]? = some ⟨.ended outcome, future⟩ →
        ∃ future, next.tasks[id]? = some ⟨.ended outcome, future⟩) ∧
      (∀ entry ∈ state.results, entry ∈ next.results) ∧ state.clock ≤ next.clock := by
  simp only [loopThread, LoopState.step] at taken
  split at taken
  · obtain ⟨receiver, -, rfl⟩ := Option.map_eq_some_iff.mp taken
    exact ⟨fun _ _ future known => ⟨future, known⟩, fun _ => id, le_rfl⟩
  · obtain ⟨actor, -, acted⟩ := Option.bind_eq_some_iff.mp taken
    have steps := ioSteps_of_act acted
    refine ⟨fun _ _ _ known => activity_of_ioSteps steps known, ?_, clock_le_of_ioSteps steps⟩
    intro entry member
    cases steps with
    | deliver =>
        rw [results_deliver]
        exact member
    | collect | expire => exact List.mem_append_left _ member
    | pending | sleep | wake | exit => exact member
  · obtain ⟨stopped, -, rfl⟩ := Option.map_eq_some_iff.mp taken
    exact ⟨fun _ _ future known => ⟨future, known⟩, fun _ => id, le_rfl⟩
  · split at taken
    · have keeps := loopKeeps_of_loopStep taken
      exact ⟨fun _ _ _ known => ended_of_changes known keeps.length
        fun _ => change_of_loopStep taken, fun _ => keeps.results ▸ id, keeps.clock.ge⟩
    · have keeps := (loopKeeps_of_returnStep taken).1
      exact ⟨fun _ _ _ known => ended_of_changes known keeps.length
        fun _ => change_of_returnStep taken, fun _ => keeps.results ▸ id, keeps.clock.ge⟩

theorem WaitEnded.step (ended : WaitEnded program wait state)
    (taken : (loopThread program).step state label = some next) :
    WaitEnded program wait next := by
  obtain ⟨tasks, results, clock⟩ := kept_of_step taken
  obtain ⟨outcome, listed, ⟨future, known⟩ | ⟨timeout, late⟩⟩ := ended
  · exact ⟨outcome, results _ listed, .inl (tasks _ _ _ known)⟩
  · exact ⟨outcome, results _ listed, .inr ⟨timeout, late.trans clock⟩⟩

theorem waits_setThread {origin : LoopState Name Code} {after : IoThread Name}
    (found : state.threads[endpoint]? = some thread) (same : origin.threads = state.threads)
    (within : after.phase.wait = some wait) :
    (origin.setThread endpoint after).Waits endpoint wait := by
  refine ⟨after, ?_, within⟩
  rw [setThread, same, getElem?_set_of_found found, if_pos rfl]

/-- The outcome of a future an I/O thread waits for is that of the coroutine. -/
theorem Settled.ended_of_result {outcome : Except PyExc PyValue} (settled : state.Settled)
    (waits : state.Waits endpoint wait) (done : state.resultOf wait.task = some outcome) :
    ∃ future, state.tasks[wait.task]? = some ⟨.ended outcome, future⟩ := by
  obtain ⟨⟨activity, future⟩, known, result⟩ := Option.bind_eq_some_iff.mp done
  refine ⟨future, ?_⟩
  rw [known]
  cases held : future.state with
  | pending => simp [ConcurrentFuture.result, held] at result
  | cancelled => exact absurd held (settled.live endpoint wait _ waits known)
  | finished own =>
      simp only [ConcurrentFuture.result, held, Option.some.injEq] at result
      have ended : activity = .ended own := settled.finished _ _ own known held
      rw [ended, result]

/-- The I/O thread goes on waiting, delivering nothing, or its wait ends. -/
theorem wait_step (settled : state.Settled) (waits : state.Waits endpoint wait)
    (taken : (loopThread program).step state label = some next) :
    next.Waits endpoint wait ∧ (∀ reading, label ≠ .io endpoint (.deliver reading)) ∨
      WaitEnded program wait next := by
  obtain ⟨thread, found, within⟩ := waits
  obtain ⟨after, there, steps⟩ := threadSteps_of_step taken found
  cases steps with
  | keeps raised apart => exact .inl ⟨⟨_, there, within⟩, fun reading => apart _⟩
  | receives => exact .inl ⟨⟨_, there, within⟩, by simp⟩
  | acts steps =>
      cases steps with
      | deliver idle | exit idle =>
          rw [idle] at within
          cases within
      | collect polling done =>
          have listed := within
          rw [polling] at listed
          cases listed
          exact .inr ⟨_, List.mem_append_right _ (List.mem_singleton.mpr rfl),
            .inl (settled.ended_of_result ⟨thread, found, within⟩ done)⟩
      | expire checking forward late =>
          rw [checking] at within
          cases within
          exact .inr ⟨_, List.mem_append_right _ (List.mem_singleton.mpr rfl), .inr ⟨rfl, late⟩⟩
      | pending polling =>
          rw [polling] at within
          exact .inl ⟨waits_setThread found rfl within, by simp⟩
      | sleep checking =>
          rw [checking] at within
          exact .inl ⟨waits_setThread found rfl within, by simp⟩
      | wake sleeping =>
          rw [sleeping] at within
          exact .inl ⟨waits_setThread found rfl within, by simp⟩

end LoopState

open LoopState in
/-- While an I/O thread waits for a handler it delivers nothing that came behind it, until
the coroutine of the handler has ended or the result timeout has run out. -/
theorem ioThread_waits_for_handler {Name Code : Type} {program : LoopProgram Name Code}
    {state later : LoopState Name Code} {labels : List (LoopLabel Name)} {endpoint : EndpointId}
    {wait : Wait} (reached : (loopThread program).Reached System.Free state)
    (waits : state.Waits endpoint wait)
    (ran : (loopThread program).run System.Free state labels = some later) :
    (later.Waits endpoint wait ∧ ∀ reading, .io endpoint (.deliver reading) ∉ labels) ∨
      WaitEnded program wait later := by
  induction labels generalizing state with
  | nil =>
      cases ran
      exact .inl ⟨waits, by simp⟩
  | cons label labels ih =>
      obtain ⟨-, next, taken, rest⟩ := System.run_cons ran
      rcases wait_step (settled_of_reached reached) waits taken with ⟨still, nothing⟩ | ended
      · rcases ih (reached.take label trivial taken) still rest with ⟨final, none⟩ | ended
        · refine .inl ⟨final, ?_⟩
          intro reading member
          rcases List.mem_cons.mp member with same | later
          · exact nothing reading same.symm
          · exact none reading later
        · exact .inr ended
      · exact .inr ((System.along_of_run rest).invariant (WaitEnded program wait) ended
          fun _ _ _ ended _ taken => ended.step taken)

open LoopState in
/-- The answer behind the request is delivered only after the wait for it has run out. -/
theorem ioThread_waits_for_handler_leaving :
    ∃ later labels, (loopThread leavingProgram).run System.Free leavingState labels = some later ∧
      later.delivered = [(7, ⟨0x4301, []⟩)] ∧
      ((later.Waits 0 ⟨2, 5⟩ ∧ ∀ reading, .io 0 (.deliver reading) ∉ labels) ∨
        WaitEnded leavingProgram ⟨2, 5⟩ later) := by
  let labels : List (LoopLabel Unit) :=
    [.receive 0 (.answer 7 ⟨0x4301, []⟩), .io 0 .poll, .io 0 (.check 5), .io 0 (.deliver 5)]
  have ran : ((loopThread leavingProgram).run System.Free leavingState labels).map (·.delivered) =
      some [(7, ⟨0x4301, []⟩)] := by decide +kernel
  obtain ⟨later, after, delivered⟩ := Option.map_eq_some_iff.mp ran
  exact ⟨later, labels, after, delivered,
    ioThread_waits_for_handler reached_leavingState ⟨_, rfl, rfl⟩ after⟩

end ObscuraProto
