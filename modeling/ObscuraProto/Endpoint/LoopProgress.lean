import ObscuraProto.Endpoint.LoopThread
import ObscuraProto.Library.Ranking

/-!
# The I/O threads go on

Whatever the loop does, and even while it stands still, an I/O thread comes to the end of
every wait: it takes a bounded number of steps for a message and is never stuck.
-/

namespace ObscuraProto

open Transition Processes

/-- What a step of an I/O thread does. -/
inductive IoSteps {Name Code : Type} (program : LoopProgram Name Code)
    (state : LoopState Name Code) (endpoint : EndpointId) (thread : IoThread Name) :
    IoAction → LoopState Name Code → Prop
  | deliver {reading : Rat} {message : Message Name} {inbox : List (Message Name)}
      (idle : thread.phase = .idle) (queued : thread.inbox = message :: inbox)
      (forward : state.clock ≤ reading) :
      IoSteps program state endpoint thread (.deliver reading)
        ({ state with clock := reading }.deliver program endpoint { thread with inbox } message)
  | collect {wait : Wait} {outcome : Except PyExc PyValue}
      (polling : thread.phase = .polling wait) (done : state.resultOf wait.task = some outcome) :
      IoSteps program state endpoint thread .poll
        ({ state with results := state.results ++ [(wait.task, outcome)] }.setThread endpoint
          { thread with phase := .idle })
  | pending {wait : Wait} (polling : thread.phase = .polling wait)
      (undone : state.resultOf wait.task = none) :
      IoSteps program state endpoint thread .poll
        (state.setThread endpoint { thread with phase := .checking wait })
  | expire {reading : Rat} {wait : Wait} (checking : thread.phase = .checking wait)
      (forward : state.clock ≤ reading) (late : wait.deadline ≤ reading) :
      IoSteps program state endpoint thread (.check reading)
        (({ state with clock := reading }.abandon program wait.task).setThread endpoint
          { thread with phase := .idle })
  | sleep {reading : Rat} {wait : Wait} (checking : thread.phase = .checking wait)
      (forward : state.clock ≤ reading) (early : reading < wait.deadline) :
      IoSteps program state endpoint thread (.check reading)
        ({ state with clock := reading }.setThread endpoint
          { thread with
            phase :=
              .sleeping wait (reading + min callbackPollInterval (wait.deadline - reading)) })
  | wake {reading wake : Rat} {wait : Wait} (sleeping : thread.phase = .sleeping wait wake)
      (forward : state.clock ≤ reading) (due : wake ≤ reading) :
      IoSteps program state endpoint thread (.wake reading)
        ({ state with clock := reading }.setThread endpoint
          { thread with phase := .polling wait })
  | exit (idle : thread.phase = .idle) (stopping : thread.stopping = true) :
      IoSteps program state endpoint thread .exit
        (state.setThread endpoint { thread with phase := .exited })

/-- What a step does to the I/O thread of an endpoint. -/
inductive ThreadSteps {Name Code : Type} (program : LoopProgram Name Code)
    (state next : LoopState Name Code) (endpoint : EndpointId) (thread : IoThread Name) :
    LoopLabel Name → IoThread Name → Prop
  | keeps {label : LoopLabel Name} {stopping : Bool}
      (raised : thread.stopping = true → stopping = true)
      (apart : ∀ action, label ≠ .io endpoint action) (forward : state.clock ≤ next.clock) :
      ThreadSteps program state next endpoint thread label { thread with stopping }
  | receives (message : Message Name) (same : next.clock = state.clock) :
      ThreadSteps program state next endpoint thread (.receive endpoint message)
        { thread with inbox := thread.inbox ++ [message] }
  | acts {action : IoAction} {after : IoThread Name}
      (steps : IoSteps program state endpoint thread action next)
      (there : next.threads[endpoint]? = some after) :
      ThreadSteps program state next endpoint thread (.io endpoint action) after

namespace LoopState

variable {Name Code : Type} {program : LoopProgram Name Code} {state next : LoopState Name Code}
  {endpoint other : EndpointId} {thread after : IoThread Name} {action : IoAction}
  {label : LoopLabel Name} {id : TaskId} {task : LoopTask Code}

@[simp] theorem tasks_setThread : (state.setThread endpoint thread).tasks = state.tasks := rfl

@[simp] theorem clock_deliver (message : Message Name) :
    (state.deliver program endpoint thread message).clock = state.clock := by
  cases message with
  | answer key content => rfl
  | invoke name =>
      rw [deliver]
      split <;> rfl

/-- What a delivery leaves of the thread that makes it: it is idle or waits for a new
task. -/
theorem threads_deliver (message : Message Name) :
    ∃ after, (state.deliver program endpoint thread message).threads =
        state.threads.set endpoint after ∧
      after.inbox = thread.inbox ∧ after.stopping = thread.stopping ∧
      (after.phase = thread.phase ∨ after.phase = .idle ∨
        after.phase =
            .polling ⟨state.tasks.length, state.clock + program.resultTimeout.value⟩ ∧
          state.tasks.length < (state.deliver program endpoint thread message).tasks.length) := by
  cases message with
  | answer key content => exact ⟨thread, rfl, rfl, rfl, .inl rfl⟩
  | invoke name =>
      rw [deliver]
      split
      · exact ⟨thread, rfl, rfl, rfl, .inl rfl⟩
      · refine ⟨_, rfl, rfl, rfl, .inr ?_⟩
        split
        · exact .inr ⟨rfl, by simp⟩
        · exact .inl rfl

theorem ioSteps_of_act (acted : state.act program endpoint thread action = some next) :
    IoSteps program state endpoint thread action next := by
  unfold act at acted
  split at acted
  · next reading idle =>
      split at acted
      · next message inbox queued =>
          rw [Option.ite_none_right_eq_some] at acted
          obtain ⟨forward, acted⟩ := acted
          cases acted
          exact .deliver idle queued forward
      · cases acted
  · next wait polling =>
      split at acted
      · next outcome done =>
          cases acted
          exact .collect polling done
      · next undone =>
          cases acted
          exact .pending polling undone
  · next reading wait checking =>
      rw [Option.ite_none_right_eq_some] at acted
      obtain ⟨forward, acted⟩ := acted
      dsimp only at acted
      split at acted
      · next late =>
          cases acted
          exact .expire checking forward (sub_nonpos.mp late)
      · next early =>
          cases acted
          exact .sleep checking forward (not_le.mp (mt sub_nonpos.mpr early))
  · next reading wait wake sleeping =>
      rw [Option.ite_none_right_eq_some] at acted
      obtain ⟨⟨forward, due⟩, acted⟩ := acted
      cases acted
      exact .wake sleeping forward due
  · next idle =>
      rw [Option.ite_none_right_eq_some] at acted
      obtain ⟨stopping, acted⟩ := acted
      cases acted
      exact .exit idle stopping
  · cases acted

theorem clock_le_of_ioSteps (steps : IoSteps program state endpoint thread action next) :
    state.clock ≤ next.clock := by
  cases steps with
  | deliver idle queued forward => simpa using forward
  | collect | pending | exit => exact le_rfl
  | expire checking forward | sleep checking forward | wake sleeping forward => exact forward

/-- A step of the I/O thread of one endpoint replaces that thread only. -/
theorem threads_of_ioSteps (steps : IoSteps program state endpoint thread action next) :
    ∃ after, next.threads = state.threads.set endpoint after ∧
      after.stopping = thread.stopping := by
  cases steps with
  | deliver =>
      obtain ⟨after, same, -, stopping, -⟩ := threads_deliver _
      exact ⟨after, same, stopping⟩
  | collect | pending | expire | sleep | wake | exit => exact ⟨_, rfl, rfl⟩

/-- What the steps of the loop's thread leave as it is. -/
structure LoopKeeps (state next : LoopState Name Code) : Prop where
  clock : next.clock = state.clock
  results : next.results = state.results
  delivered : next.delivered = state.delivered
  length : next.tasks.length = state.tasks.length
  threads : next.threads = state.threads ∨ ∃ endpoint thread,
    state.threads[endpoint]? = some thread ∧
      next.threads = state.threads.set endpoint { thread with stopping := true }

theorem loopKeeps_setTask : LoopKeeps state (state.setTask id task) :=
  ⟨rfl, rfl, rfl, List.length_set, .inl rfl⟩

theorem loopKeeps_of_loopStep (taken : state.loopStep program label = some next) :
    LoopKeeps state next := by
  unfold loopStep at taken
  split at taken
  · next id =>
      split at taken
      · next code future found =>
          simp only [takeTurn] at taken
          split at taken
          · cases taken; exact loopKeeps_setTask
          · cases taken; exact loopKeeps_setTask
          · cases taken; exact loopKeeps_setTask
          · cases taken; exact ⟨rfl, rfl, rfl, List.length_set, .inl rfl⟩
          · next endpoint following stops =>
              obtain ⟨thread, there, rfl⟩ := Option.map_eq_some_iff.mp taken
              exact ⟨rfl, rfl, rfl, List.length_set, .inr ⟨endpoint, thread, there, rfl⟩⟩
      · cases taken
  · split at taken
    · rw [Option.ite_none_right_eq_some] at taken
      cases taken.2
      exact loopKeeps_setTask
    · cases taken
  · split at taken
    · cases taken
      exact loopKeeps_setTask
    · cases taken
  · split at taken
    · rw [Option.ite_none_right_eq_some] at taken
      cases taken.2
      exact loopKeeps_setTask
    · rw [Option.ite_none_right_eq_some] at taken
      cases taken.2
      exact loopKeeps_setTask
    · cases taken
  · cases taken

theorem loopKeeps_of_returnStep (taken : state.returnStep id label = some next) :
    LoopKeeps state next ∧ next.blocked = none := by
  unfold returnStep at taken
  split at taken
  · split at taken
    · rw [Option.ite_none_right_eq_some] at taken
      cases taken.2
      exact ⟨⟨rfl, rfl, rfl, List.length_set, .inl rfl⟩, rfl⟩
    · cases taken
  · split at taken
    · rw [Option.ite_none_right_eq_some] at taken
      cases taken.2
      exact ⟨⟨rfl, rfl, rfl, List.length_set, .inl rfl⟩, rfl⟩
    · cases taken
  · cases taken

theorem threadSteps_of_loopKeeps (keeps : LoopKeeps state next)
    (apart : ∀ action, label ≠ .io endpoint action)
    (found : state.threads[endpoint]? = some thread) :
    ∃ after, next.threads[endpoint]? = some after ∧
      ThreadSteps program state next endpoint thread label after := by
  have forward := keeps.clock.ge
  rcases keeps.threads with same | ⟨other, stopped, there, same⟩
  · exact ⟨thread, same ▸ found, .keeps id apart forward⟩
  · rw [same, getElem?_set_of_found there]
    split
    · next here =>
        rw [here, there] at found
        cases found
        exact ⟨_, rfl, .keeps (fun _ => rfl) apart forward⟩
    · exact ⟨thread, found, .keeps id apart forward⟩

theorem threadSteps_of_step (taken : (loopThread program).step state label = some next)
    (found : state.threads[endpoint]? = some thread) :
    ∃ after, next.threads[endpoint]? = some after ∧
      ThreadSteps program state next endpoint thread label after := by
  simp only [loopThread, step] at taken
  split at taken
  · next other message =>
      obtain ⟨receiver, there, rfl⟩ := Option.map_eq_some_iff.mp taken
      simp only [setThread]
      rw [getElem?_set_of_found there]
      split
      · next here =>
          rw [← here, found] at there
          cases there
          exact ⟨_, rfl, here ▸ .receives message rfl⟩
      · exact ⟨thread, found, .keeps id (by simp) le_rfl⟩
  · next other action =>
      obtain ⟨actor, there, acted⟩ := Option.bind_eq_some_iff.mp taken
      have steps := ioSteps_of_act acted
      obtain ⟨after, threads, -⟩ := threads_of_ioSteps steps
      have looked := getElem?_set_of_found there after endpoint
      rw [← threads] at looked
      by_cases here : endpoint = other
      · rw [← here, found] at there
        cases there
        rw [if_pos here] at looked
        exact ⟨after, looked, here ▸ .acts (here ▸ steps) looked⟩
      · rw [if_neg here] at looked
        refine ⟨thread, looked.trans found, .keeps id ?_ (clock_le_of_ioSteps steps)⟩
        intro action same
        cases same
        exact here rfl
  · next other =>
      obtain ⟨stopped, there, rfl⟩ := Option.map_eq_some_iff.mp taken
      simp only [setThread]
      rw [getElem?_set_of_found there]
      split
      · next here =>
          rw [← here, found] at there
          cases there
          exact ⟨_, rfl, .keeps (fun _ => rfl) (by simp) le_rfl⟩
      · exact ⟨thread, found, .keeps id (by simp) le_rfl⟩
  · next notReceive notIo notHalt =>
      have apart := notIo endpoint
      split at taken
      · exact threadSteps_of_loopKeeps (loopKeeps_of_loopStep taken) apart found
      · exact threadSteps_of_loopKeeps (loopKeeps_of_returnStep taken).1 apart found

end LoopState

/-! ## The work of an I/O thread -/

/-- The steps of an I/O thread that are left before it has exited. -/
def IoPhase.work (clock : Rat) : IoPhase → Nat
  | idle => 1
  | polling wait => 3 * sleepsLeft wait.deadline clock + 3
  | checking wait => 3 * sleepsLeft wait.deadline clock + 2
  | sleeping wait wake => 3 * sleepsLeft wait.deadline (max wake clock) + 4
  | exited => 0

namespace LoopProgram

variable {Name Code : Type} (program : LoopProgram Name Code)

/-- How many steps a message takes an I/O thread at most: three for every sleep of a wait,
and those around them. -/
def messageWork : Nat :=
  3 * sleepsLeft program.resultTimeout.value 0 + 3

end LoopProgram

namespace LoopState

variable {Name Code : Type} {program : LoopProgram Name Code} {state next : LoopState Name Code}
  {endpoint : EndpointId} {thread after : IoThread Name} {action : IoAction}
  {label : LoopLabel Name}

/-- The steps the I/O thread of an endpoint takes at most for what it has received. -/
def workOf (program : LoopProgram Name Code) (endpoint : EndpointId)
    (state : LoopState Name Code) : Nat :=
  state.threads[endpoint]?.elim 0 fun thread =>
    thread.inbox.length * program.messageWork + thread.phase.work state.clock

theorem work_anti {clock later : Rat} (phase : IoPhase) (forward : clock ≤ later) :
    phase.work later ≤ phase.work clock := by
  cases phase with
  | idle | exited => exact le_rfl
  | polling wait | checking wait =>
      have fewer : sleepsLeft wait.deadline later ≤ sleepsLeft wait.deadline clock :=
        sleepsLeft_anti forward
      simp only [IoPhase.work]
      omega
  | sleeping wait wake =>
      have fewer : sleepsLeft wait.deadline (max wake later) ≤
          sleepsLeft wait.deadline (max wake clock) := sleepsLeft_anti (max_le_max_left _ forward)
      simp only [IoPhase.work]
      omega

theorem workOf_of_found (found : state.threads[endpoint]? = some thread) :
    state.workOf program endpoint =
      thread.inbox.length * program.messageWork + thread.phase.work state.clock := by
  rw [workOf, found]
  rfl

theorem workOf_setThread (after : IoThread Name) (bound : endpoint < state.threads.length) :
    (state.setThread endpoint after).workOf program endpoint =
      after.inbox.length * program.messageWork + after.phase.work state.clock := by
  apply workOf_of_found
  rw [setThread, List.getElem?_set_self bound]

/-- What a delivery leaves to do is paid for by the message. -/
theorem workOf_deliver {message : Message Name} {inbox : List (Message Name)}
    (bound : endpoint < state.threads.length) (idle : thread.phase = .idle) :
    (state.deliver program endpoint { thread with inbox } message).workOf program endpoint + 1 ≤
      (inbox.length + 1) * program.messageWork + 1 := by
  obtain ⟨after, threads, inboxes, -, phase⟩ :
      ∃ after, (state.deliver program endpoint { thread with inbox } message).threads =
          state.threads.set endpoint after ∧ after.inbox = inbox ∧ _ ∧ _ :=
    threads_deliver message
  have there : (state.deliver program endpoint { thread with inbox } message).threads[endpoint]? =
      some after := by
    rw [threads, List.getElem?_set_self bound]
  have bounded : after.phase.work state.clock ≤ program.messageWork := by
    rw [LoopProgram.messageWork]
    rcases phase with same | waits | ⟨waits, -⟩
    · rw [same, idle, IoPhase.work]
      omega
    · rw [waits, IoPhase.work]
      omega
    · rw [waits, IoPhase.work, sleepsLeft, sleepsLeft, add_sub_cancel_left, sub_zero]
  rw [workOf_of_found there, clock_deliver, inboxes, Nat.succ_mul]
  omega

/-- A step of an I/O thread uses up some of its work. -/
theorem workOf_lt_of_ioSteps (steps : IoSteps program state endpoint thread action next)
    (found : state.threads[endpoint]? = some thread) :
    next.workOf program endpoint + 1 ≤ state.workOf program endpoint := by
  have bound : endpoint < state.threads.length := (List.getElem?_eq_some_iff.mp found).1
  rw [workOf_of_found found]
  cases steps with
  | @deliver reading message inbox idle queued forward =>
      have work : thread.phase.work state.clock = 1 := by rw [idle, IoPhase.work]
      rw [queued, List.length_cons, work]
      exact workOf_deliver bound idle
  | collect polling =>
      rw [workOf_setThread _ (by exact bound), polling]
      simp only [IoPhase.work]
      omega
  | pending polling =>
      rw [workOf_setThread _ bound, polling]
      simp only [IoPhase.work]
      omega
  | expire checking =>
      rw [workOf_setThread _ (by exact bound), checking]
      simp only [IoPhase.work]
      omega
  | @sleep reading wait checking forward early =>
      have ahead : reading ≤ reading + min callbackPollInterval (wait.deadline - reading) :=
        le_add_of_nonneg_right (le_min callbackPollInterval_pos.le (sub_nonneg.mpr early.le))
      have fewer := (sleepsLeft_sleep early).trans_le (sleepsLeft_anti forward)
      rw [workOf_setThread _ (by exact bound), checking]
      simp only [IoPhase.work, max_eq_left ahead]
      omega
  | @wake reading wake wait sleeping forward due =>
      have fewer : sleepsLeft wait.deadline reading ≤ sleepsLeft wait.deadline
          (max wake state.clock) := sleepsLeft_anti (max_le due forward)
      rw [workOf_setThread _ (by exact bound), sleeping]
      simp only [IoPhase.work]
      omega
  | exit idle =>
      rw [workOf_setThread _ bound, idle]
      simp only [IoPhase.work]
      omega

/-- A step of the I/O thread uses up its work, a message adds to it, and nothing else
does. -/
theorem workOf_of_step (found : state.threads[endpoint]? = some thread)
    (taken : (loopThread program).step state label = some next) :
    next.workOf program endpoint + (label.isIoOf endpoint).toNat ≤
      state.workOf program endpoint +
        program.messageWork * (label.isReceiveOf endpoint).toNat := by
  obtain ⟨after, there, steps⟩ := threadSteps_of_step taken found
  rw [workOf_of_found found, workOf_of_found there]
  cases steps with
  | keeps _ apart forward =>
      have fewer := work_anti thread.phase forward
      have other : label.isIoOf endpoint = false := by
        cases label with
        | io actor action =>
            rw [LoopLabel.isIoOf, beq_eq_false_iff_ne]
            rintro rfl
            exact apart action rfl
        | receive | halt | turn | resume | settle | cancel | joined | answered => rfl
      simp only [other, Bool.toNat_false]
      omega
  | receives message same =>
      simp only [LoopLabel.isIoOf, LoopLabel.isReceiveOf, same, List.length_append,
        List.length_singleton, Nat.succ_mul, BEq.rfl, Bool.toNat_true, Bool.toNat_false]
      omega
  | acts steps there =>
      have spent := workOf_lt_of_ioSteps steps found
      rw [workOf_of_found found, workOf_of_found there] at spent
      simp only [LoopLabel.isIoOf, LoopLabel.isReceiveOf, BEq.rfl, Bool.toNat_true,
        Bool.toNat_false]
      omega

/-- Nothing is left to do for the I/O thread. -/
def Rests (endpoint : EndpointId) (state : LoopState Name Code) : Prop :=
  ∃ thread, state.threads[endpoint]? = some thread ∧ (thread.phase = .exited ∨
    thread.phase = .idle ∧ thread.inbox = [] ∧ thread.stopping = false)

/-- An I/O thread that does not rest can take a step. -/
theorem exists_act (found : state.threads[endpoint]? = some thread)
    (busy : ¬ state.Rests endpoint) :
    ∃ action next, (loopThread program).step state (.io endpoint action) = some next := by
  have acts : ∀ action next, state.act program endpoint thread action = some next →
      ∃ action next, (loopThread program).step state (.io endpoint action) = some next := by
    intro action next acted
    refine ⟨action, next, ?_⟩
    simp only [loopThread, step, found, Option.bind_some, acted]
  obtain ⟨inbox, phase, stopping⟩ := thread
  cases phase with
  | idle =>
      cases inbox with
      | cons message inbox =>
          apply acts (.deliver state.clock)
          simp only [act, le_refl, if_true]
          rfl
      | nil =>
          have stops : stopping = true := by
            by_contra goesOn
            exact busy ⟨_, found, .inr ⟨rfl, rfl, Bool.eq_false_of_not_eq_true goesOn⟩⟩
          apply acts .exit
          simp only [act, stops, if_true]
          rfl
  | polling wait =>
      cases result : state.resultOf wait.task with
      | none =>
          apply acts .poll
          simp only [act, result]
          rfl
      | some outcome =>
          apply acts .poll
          simp only [act, result]
          rfl
  | checking wait =>
      by_cases late : wait.deadline - state.clock ≤ 0
      · apply acts (.check state.clock)
        simp only [act, le_refl, late, if_true]
        rfl
      · apply acts (.check state.clock)
        simp only [act, le_refl, late, if_true, if_false]
        rfl
  | sleeping wait wake =>
      apply acts (.wake (max wake state.clock))
      simp only [act, le_max_left, le_max_right, and_self, if_true]
      rfl
  | exited => exact absurd ⟨_, found, .inl rfl⟩ busy

end LoopState

/-- The work of an I/O thread is paid for by the messages of its endpoint. -/
def messageBudget {Name Code : Type} (program : LoopProgram Name Code) (endpoint : EndpointId)
    (allowed : LoopState Name Code → LoopLabel Name → Prop) :
    (loopThread program).Budget allowed
      (fun state => ∃ thread, state.threads[endpoint]? = some thread)
      (LoopLabel.isIoOf endpoint) (LoopLabel.isReceiveOf endpoint) program.messageWork where
  rank := LoopState.workOf program endpoint
  kept _ _ _ there _ taken := by
    obtain ⟨thread, found⟩ := there
    obtain ⟨after, known, -⟩ := LoopState.threadSteps_of_step taken found
    exact ⟨after, known⟩
  charged _ _ _ there _ taken := by
    obtain ⟨thread, found⟩ := there
    exact LoopState.workOf_of_step found taken

/-- A bounded number of steps of the I/O thread brings it to the end of what it has
received, whether the loop runs or stands still, and nothing else is needed for them. -/
theorem ioThread_delivers {Name Code : Type} {program : LoopProgram Name Code}
    {state later : LoopState Name Code} {labels : List (LoopLabel Name)} {endpoint : EndpointId}
    (attached : endpoint < program.endpoints)
    (reached : (loopThread program).Reached System.Free state)
    (ran : (loopThread program).run System.Free state labels = some later) :
    labels.countP (LoopLabel.isIoOf endpoint) ≤ state.workOf program endpoint +
        program.messageWork * labels.countP (LoopLabel.isReceiveOf endpoint) ∧
      (later.Rests endpoint ∨
        ∃ action next, (loopThread program).step later (.io endpoint action) = some next) := by
  let budget := messageBudget program endpoint System.Free
  have known : ∃ thread, state.threads[endpoint]? = some thread :=
    reached.invariant _ ⟨{}, by simp [loopThread, attached]⟩ budget.kept
  have bounded := budget.countP_add_rank_le known ran
  obtain ⟨thread, found⟩ := (System.along_of_run ran).invariant _ known budget.kept
  refine ⟨Nat.le_of_add_right_le bounded, ?_⟩
  by_cases rests : later.Rests endpoint
  · exact .inl rests
  · exact .inr (LoopState.exists_act found rests)

/-- The wait for a handler that awaits the peer runs out while the loop's thread joins the
I/O thread. -/
theorem ioThread_delivers_joined :
    ∃ later labels, (loopThread leavingProgram).run System.Free leavingState labels = some later ∧
      later.results = [(2, .error (callbackTimeout ⟨5, "5.0"⟩))] ∧
      labels.countP (LoopLabel.isIoOf 0) ≤ leavingState.workOf leavingProgram 0 +
          leavingProgram.messageWork * labels.countP (LoopLabel.isReceiveOf 0) ∧
        (later.Rests 0 ∨
          ∃ action next, (loopThread leavingProgram).step later (.io 0 action) = some next) := by
  let labels : List (LoopLabel Unit) := [.io 0 .poll, .io 0 (.check 5), .io 0 .exit]
  have ran : ((loopThread leavingProgram).run System.Free leavingState labels).map (·.results) =
      some [(2, .error (callbackTimeout ⟨5, "5.0"⟩))] := by decide +kernel
  obtain ⟨later, after, results⟩ := Option.map_eq_some_iff.mp ran
  exact ⟨later, labels, after, results,
    ioThread_delivers (by decide) reached_leavingState after⟩

end ObscuraProto
