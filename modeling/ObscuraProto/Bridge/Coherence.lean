import ObscuraProto.Bridge.Process

/-!
# What the futures of a process share

The registry holds addresses, and addresses are given to new objects.  Still a live
future finds itself in it exactly when it was claimed, so that the calls on each future
go on as if it were the only one.
-/

namespace ObscuraProto

open Transition Processes

namespace Acts

variable {state next : AwaitState} {id : CallId} {call after : Call} {action : Action}

/-- A call that is over takes no step. -/
theorem not_idle (acts : Acts state id call action next after) : ¬ call.Idle := by
  rintro ⟨finished, ended⟩
  cases acts with
  | begin working | pollReady working | pollPending working | pollFails working | sleep working
  | giveUp working | claim working | refuse working | get working | getInvalid working
  | post working =>
      rw [finished] at working
      cases working
  | resume waiting | expire waiting | cancel waiting => exact ended waiting

theorem consumed_kept (acts : Acts state id call action next after)
    (used : state.consumed = true) : next.consumed = true := by
  cases acts with
  | claim => rfl
  | begin | pollReady | pollPending | pollFails | sleep | giveUp | refuse | get | getInvalid | post
  | resume | expire | cancel => exact used

end Acts

namespace ProcessState

/-- What the registry and the futures of a process have to do with each other. -/
structure Coherent (state : ProcessState) : Prop where
  started : 0 ≤ state.now
  /-- The calls on each future are those of a future used alone. -/
  reached : ∀ (future : FutureId) (object : FutureObject), state.objects[future]? = some object →
    settlement.Reached System.Free object.requests
  clock : ∀ (future : FutureId) (object : FutureObject), state.objects[future]? = some object →
    object.requests.await.now = state.now
  registered : ∀ (future : FutureId) (object : FutureObject),
    state.objects[future]? = some object → object.live = true →
    (object.address ∈ state.consumed ↔ object.requests.await.consumed = true)
  apart : ∀ (one other : FutureId) (first second : FutureObject),
    state.objects[one]? = some first → state.objects[other]? = some second →
      first.live = true → second.live = true →
      first.address = second.address → one = other
  occupied : ∀ address ∈ state.consumed, ∃ (future : FutureId) (object : FutureObject),
    state.objects[future]? = some object ∧ object.live = true ∧ object.address = address
  idle : ∀ (future : FutureId) (object : FutureObject),
    state.objects[future]? = some object → object.live = false →
    object.Unreferenced

variable {state next : ProcessState} {future : FutureId} {object : FutureObject}
  {requests : SettlementState} {label : SettlementLabel}

theorem occupied_iff {address : Address} :
    state.Occupied address ↔ ∃ (future : FutureId) (object : FutureObject),
      state.objects[future]? = some object ∧ object.live = true ∧ object.address = address := by
  constructor
  · rintro ⟨object, member, live, same⟩
    obtain ⟨future, found⟩ := List.mem_iff_getElem?.mp member
    exact ⟨future, object, found, live, same⟩
  · rintro ⟨future, object, found, live, same⟩
    exact ⟨object, List.mem_of_getElem? found, live, same⟩

/-- A step of the calls on one future. -/
theorem Coherent.advance (coherent : state.Coherent)
    (found : state.objects[future]? = some object)
    (objects : next.objects = state.objects.set future { object with requests })
    (clock : next.now = state.now)
    (taken : settlement.step object.requests label = some requests)
    (now : requests.await.now = object.requests.await.now)
    (own : object.live = true →
      (object.address ∈ next.consumed ↔ requests.await.consumed = true))
    (others : ∀ address, (object.live = true → address ≠ object.address) →
      (address ∈ next.consumed ↔ address ∈ state.consumed))
    (idle : object.live = false → FutureObject.Unreferenced { object with requests }) :
    next.Coherent := by
  have lookup : ∀ (other : FutureId) (current : FutureObject), next.objects[other]? = some current →
      other = future ∧ current = { object with requests } ∨
        other ≠ future ∧ state.objects[other]? = some current := by
    intro other current known
    exact of_getElem?_set (objects ▸ known)
  have origin : ∀ (other : FutureId) (current : FutureObject), next.objects[other]? = some current →
      ∃ before, state.objects[other]? = some before ∧ before.live = current.live ∧
        before.address = current.address := by
    intro other current known
    rcases lookup other current known with ⟨rfl, rfl⟩ | ⟨-, before⟩
    · exact ⟨object, found, rfl, rfl⟩
    · exact ⟨current, before, rfl, rfl⟩
  constructor
  · exact clock ▸ coherent.started
  · intro other current known
    rcases lookup other current known with ⟨rfl, rfl⟩ | ⟨-, before⟩
    · exact (coherent.reached _ _ found).take label trivial taken
    · exact coherent.reached _ _ before
  · intro other current known
    rcases lookup other current known with ⟨rfl, rfl⟩ | ⟨-, before⟩
    · exact now.trans ((coherent.clock _ _ found).trans clock.symm)
    · exact (coherent.clock _ _ before).trans clock.symm
  · intro other current known live
    rcases lookup other current known with ⟨rfl, rfl⟩ | ⟨different, before⟩
    · exact own live
    · rw [others current.address]
      · exact coherent.registered _ _ before live
      · intro objectLive same
        exact different (coherent.apart _ _ _ _ before found live objectLive same)
  · intro one other first second foundFirst foundSecond liveFirst liveSecond same
    obtain ⟨before, knownFirst, liveSame, addressSame⟩ := origin one first foundFirst
    obtain ⟨earlier, knownSecond, live, address⟩ := origin other second foundSecond
    exact coherent.apart _ _ _ _ knownFirst knownSecond (liveSame.trans liveFirst)
      (live.trans liveSecond) (addressSame.trans (same.trans address.symm))
  · intro address member
    have kept : ∀ (other : FutureId) (current : FutureObject),
        state.objects[other]? = some current → current.live = true →
        ∃ (id : FutureId) (later : FutureObject), next.objects[id]? = some later ∧
          later.live = true ∧ later.address = current.address := by
      intro other current known live
      rw [objects]
      by_cases same : other = future
      · subst same
        rw [found] at known
        cases known
        refine ⟨other, { object with requests }, ?_, live, rfl⟩
        rw [getElem?_set_of_found found, if_pos rfl]
      · exact ⟨other, current, by rw [getElem?_set_of_found found, if_neg same, known], live, rfl⟩
    by_cases here : object.live = true ∧ address = object.address
    · obtain ⟨live, rfl⟩ := here
      exact kept future object found live
    · have registered := (others address fun live same => here ⟨live, same⟩).mp member
      obtain ⟨other, current, known, live, rfl⟩ := coherent.occupied address registered
      exact kept other current known live
  · intro other current known dead
    rcases lookup other current known with ⟨rfl, rfl⟩ | ⟨-, before⟩
    · exact idle dead
    · exact coherent.idle _ _ before dead

/-- A step of the calls on one future that leaves the registry alone. -/
theorem Coherent.aside (coherent : state.Coherent)
    (found : state.objects[future]? = some object)
    (objects : next.objects = state.objects.set future { object with requests })
    (clock : next.now = state.now) (registry : next.consumed = state.consumed)
    (taken : settlement.step object.requests label = some requests)
    (now : requests.await.now = object.requests.await.now)
    (consumed : requests.await.consumed = object.requests.await.consumed)
    (idle : object.live = false → FutureObject.Unreferenced { object with requests }) :
    next.Coherent := by
  refine coherent.advance found objects clock taken now ?_ ?_ idle
  · intro live
    rw [registry, consumed]
    exact coherent.registered _ _ found live
  · intro address _
    rw [registry]

/-- The calls on a live future see their own use of it. -/
theorem Coherent.seeing_eq (coherent : state.Coherent)
    (found : state.objects[future]? = some object) (live : object.live = true) :
    object.seeing state.consumed = object.requests := by
  have same : decide (object.address ∈ state.consumed) = object.requests.await.consumed := by
    rw [Bool.eq_iff_iff, decide_eq_true_iff]
    exact coherent.registered _ _ found live
  rw [FutureObject.seeing, same]

/-! ## One step -/

/-- A future made at any time is that of a process that has waited until then. -/
theorem reached_fresh {now : Rat} (started : 0 ≤ now) :
    settlement.Reached System.Free { await := { now } } := by
  rcases started.eq_or_lt with rfl | later
  · exact .refl
  · apply System.Along.refl.take (.await (.tick now)) trivial
    simp [settlement, SettlementState.step, SettlementState.submitted, AwaitState.step, later]
    rfl

theorem Coherent.create (coherent : state.Coherent) {address : Address}
    (free : ¬ state.Occupied address) :
    Coherent { state with objects :=
      state.objects ++ [{ address, requests := { await := { now := state.now } } }] } := by
  have vacant : ∀ (other : FutureId) (current : FutureObject),
      state.objects[other]? = some current → current.live = true → current.address ≠ address := by
    intro other current known live same
    exact free (occupied_iff.mpr ⟨other, current, known, live, same⟩)
  constructor
  · exact coherent.started
  · intro future object found
    rcases of_getElem?_append found with before | ⟨-, rfl⟩
    · exact coherent.reached _ _ before
    · exact reached_fresh coherent.started
  · intro future object found
    rcases of_getElem?_append found with before | ⟨-, rfl⟩
    · exact coherent.clock _ _ before
    · rfl
  · intro future object found live
    rcases of_getElem?_append found with before | ⟨-, rfl⟩
    · exact coherent.registered _ _ before live
    · constructor
      · intro member
        exact absurd (occupied_iff.mpr (coherent.occupied _ member)) free
      · intro used
        cases used
  · intro one other first second foundFirst foundSecond liveFirst liveSecond same
    rcases of_getElem?_append foundFirst with knownFirst | ⟨rfl, rfl⟩
    · rcases of_getElem?_append foundSecond with knownSecond | ⟨-, rfl⟩
      · exact coherent.apart _ _ _ _ knownFirst knownSecond liveFirst liveSecond same
      · exact absurd same (vacant _ _ knownFirst liveFirst)
    · rcases of_getElem?_append foundSecond with knownSecond | ⟨rfl, -⟩
      · exact absurd same.symm (vacant _ _ knownSecond liveSecond)
      · rfl
  · intro other member
    obtain ⟨future, object, found, live, same⟩ := coherent.occupied other member
    refine ⟨future, object, ?_, live, same⟩
    rw [List.getElem?_append_left (List.getElem?_eq_some_iff.mp found).1]
    exact found
  · intro future object found dead
    rcases of_getElem?_append found with before | ⟨-, rfl⟩
    · exact coherent.idle _ _ before dead
    · cases dead

/-- A collected future takes its entry with it. -/
theorem Coherent.collect (coherent : state.Coherent)
    (found : state.objects[future]? = some object) (live : object.live = true)
    (unreferenced : object.Unreferenced) :
    Coherent { state with
      objects := state.objects.set future { object with live := false }
      consumed := state.consumed.erase object.address } := by
  have surviving : ∀ (other : FutureId) (current : FutureObject),
      (state.objects.set future { object with live := false })[other]? = some current →
        current.live = true → other ≠ future ∧ state.objects[other]? = some current ∧
          current.address ≠ object.address := by
    intro other current known alive
    rcases of_getElem?_set known with ⟨-, rfl⟩ | ⟨different, before⟩
    · cases alive
    · exact ⟨different, before, fun same =>
        different (coherent.apart _ _ _ _ before found alive live same)⟩
  constructor
  · exact coherent.started
  · intro other current known
    rcases of_getElem?_set known with ⟨-, rfl⟩ | ⟨-, before⟩
    · exact coherent.reached future object found
    · exact coherent.reached _ _ before
  · intro other current known
    rcases of_getElem?_set known with ⟨-, rfl⟩ | ⟨-, before⟩
    · exact coherent.clock future object found
    · exact coherent.clock _ _ before
  · intro other current known alive
    obtain ⟨-, before, elsewhere⟩ := surviving other current known alive
    rw [Finset.mem_erase, and_iff_right elsewhere]
    exact coherent.registered _ _ before alive
  · intro one other first second foundFirst foundSecond liveFirst liveSecond same
    obtain ⟨-, knownFirst, -⟩ := surviving one first foundFirst liveFirst
    obtain ⟨-, knownSecond, -⟩ := surviving other second foundSecond liveSecond
    exact coherent.apart _ _ _ _ knownFirst knownSecond liveFirst liveSecond same
  · intro address member
    obtain ⟨elsewhere, registered⟩ := Finset.mem_erase.mp member
    obtain ⟨other, current, known, alive, rfl⟩ := coherent.occupied address registered
    refine ⟨other, current, ?_, alive, rfl⟩
    have different : other ≠ future := by
      rintro rfl
      rw [found] at known
      cases known
      exact elsewhere rfl
    rw [getElem?_set_of_found found, if_neg different, known]
  · intro other current known dead
    rcases of_getElem?_set known with ⟨-, rfl⟩ | ⟨-, before⟩
    · exact unreferenced
    · exact coherent.idle _ _ before dead

theorem Coherent.tick (coherent : state.Coherent) {elapsed : Rat} (positive : 0 < elapsed) :
    Coherent { state with
      now := state.now + elapsed
      objects := state.objects.map (·.tick elapsed) } := by
  have origin : ∀ (other : FutureId) (current : FutureObject),
      (state.objects.map (·.tick elapsed))[other]? = some current →
        ∃ before, state.objects[other]? = some before ∧ before.tick elapsed = current := by
    intro other current known
    rw [List.getElem?_map] at known
    exact Option.map_eq_some_iff.mp known
  constructor
  · exact add_nonneg coherent.started positive.le
  · intro other current known
    obtain ⟨before, found, rfl⟩ := origin other current known
    apply (coherent.reached _ _ found).take (.await (.tick elapsed)) trivial
    simp [settlement, SettlementState.step, SettlementState.submitted, AwaitState.step, positive,
      FutureObject.tick]
  · intro other current known
    obtain ⟨before, found, rfl⟩ := origin other current known
    exact congrArg (· + elapsed) (coherent.clock _ _ found)
  · intro other current known live
    obtain ⟨before, found, rfl⟩ := origin other current known
    exact coherent.registered other before found live
  · intro one other first second foundFirst foundSecond liveFirst liveSecond same
    obtain ⟨first, knownFirst, rfl⟩ := origin one first foundFirst
    obtain ⟨second, knownSecond, rfl⟩ := origin other second foundSecond
    exact coherent.apart _ _ _ _ knownFirst knownSecond liveFirst liveSecond same
  · intro address member
    obtain ⟨other, current, known, live, same⟩ := coherent.occupied address member
    exact ⟨other, current.tick elapsed, by rw [List.getElem?_map, known]; rfl, live, same⟩
  · intro other current known dead
    obtain ⟨before, found, rfl⟩ := origin other current known
    exact coherent.idle other before found dead

theorem coherent_initial : requestProcess.initial.Coherent where
  started := le_rfl
  reached future object found := by cases found
  clock future object found := by cases found
  registered future object found := by cases found
  apart one other first second found := by cases found
  occupied address member := absurd member (Finset.notMem_empty address)
  idle future object found := by cases found

theorem schedule_now {fetch : FetchId} {action : Action}
    (scheduled : state.schedule fetch action = some next) : next.now = state.now := by
  simp only [schedule, takeUp] at scheduled
  split at scheduled
  · split at scheduled
    · split at scheduled
      · split at scheduled <;> cases scheduled
        rfl
      · cases scheduled
    · cases scheduled; rfl
  · cases scheduled; rfl
  · cases scheduled; rfl

/-- Only a live future is used. -/
theorem Coherent.live_of_acts (coherent : state.Coherent)
    (found : state.objects[future]? = some object) {id : CallId} {call after : Call}
    {action : Action} {await later : AwaitState}
    (known : object.requests.await.calls[id]? = some call)
    (acts : Acts await id call action later after) : object.live = true := by
  by_contra dead
  have idle := coherent.idle future object found (by simpa using dead)
  exact acts.not_idle (idle call (List.mem_of_getElem? known))

/-- What the registry is after a step of a live future that read it. -/
theorem Coherent.acted (coherent : state.Coherent)
    (found : state.objects[future]? = some object) (live : object.live = true)
    (objects : next.objects = state.objects.set future { object with requests })
    (clock : next.now = state.now)
    (registry : next.consumed =
      if requests.await.consumed then insert object.address state.consumed else state.consumed)
    (taken : settlement.step object.requests label = some requests)
    (now : requests.await.now = object.requests.await.now)
    (kept : object.requests.await.consumed = true → requests.await.consumed = true) :
    next.Coherent := by
  refine coherent.advance found objects clock taken now ?_ ?_ ?_
  · intro _
    rw [registry]
    split
    · next used => simp [used]
    · next unused =>
        have unregistered : object.address ∉ state.consumed := fun member =>
          unused (kept ((coherent.registered future object found live).mp member))
        simp [unused, unregistered]
  · intro address elsewhere
    rw [registry]
    split
    · rw [Finset.mem_insert, or_iff_right (elsewhere live)]
    · rfl
  · intro dead
    rw [live] at dead
    cases dead

/-- A queued `_publish` does not bring a call back. -/
theorem idle_of_mem_modify {calls : List Call} {id : CallId} {outcome : Reply} {current : Call}
    (idle : ∀ call ∈ calls, call.Idle)
    (member : current ∈ calls.modify id (·.publish outcome)) : current.Idle := by
  obtain ⟨index, found⟩ := List.mem_iff_getElem?.mp member
  rw [List.getElem?_modify] at found
  cases known : calls[index]? with
  | none => simp [known] at found
  | some before =>
      have ended := idle before (List.mem_of_getElem? known)
      simp only [known, Option.map_eq_map, Option.map_some, Option.some.injEq] at found
      rw [← found]
      split
      · exact ⟨(before.worker_publish outcome).trans ended.1, by simpa using ended.2⟩
      · exact ended

/-- A step of a call is one of a call on a future used alone. -/
theorem Coherent.taken (coherent : state.Coherent)
    (found : state.objects[future]? = some object) {id : CallId} {action : Action}
    (seen : settlement.step (object.seeing state.consumed) (.await (.act id action)) =
      some requests) :
    object.live = true ∧
      settlement.step object.requests (.await (.act id action)) = some requests := by
  have live : object.live = true := by
    obtain ⟨after, steps, -⟩ := SettlementState.step_await seen
    cases steps with
    | act known acts => exact coherent.live_of_acts found known acts
  exact ⟨live, coherent.seeing_eq found live ▸ seen⟩

theorem Coherent.step {label : ProcessLabel} (coherent : state.Coherent)
    (stepped : requestProcess.step state label = some next) : next.Coherent := by
  cases processSteps_of_step stepped with
  | create free => exact coherent.create free
  | collect found live unreferenced => exact coherent.collect found live unreferenced
  | tick positive => exact coherent.tick positive
  | call found live taken =>
      obtain ⟨after, steps, rfl⟩ := SettlementState.step_await taken
      cases steps
      exact coherent.aside found rfl rfl rfl taken rfl rfl
        fun dead => absurd (live.symm.trans dead) (by decide)
  | @submit fetch object _ _ found taken =>
      obtain ⟨-, rfl⟩ := SettlementState.step_submit taken
      exact coherent.aside found rfl rfl rfl taken rfl rfl
        fun dead => coherent.idle fetch.1 object found dead
  | @arrive future _ object _ found taken =>
      obtain ⟨after, steps, rfl⟩ := SettlementState.step_await taken
      cases steps
      exact coherent.aside found rfl rfl rfl taken rfl rfl
        fun dead => coherent.idle future object found dead
  | @publish future _ object _ queued found taken =>
      obtain ⟨after, steps, rfl⟩ := SettlementState.step_await taken
      cases steps
      exact coherent.aside found rfl rfl rfl taken rfl rfl fun dead call member =>
        idle_of_mem_modify (coherent.idle future object found dead) member
  | @act fetch action object requests _ found taken scheduled =>
      obtain ⟨live, taken⟩ := coherent.taken found taken
      have clock := schedule_now scheduled
      obtain ⟨after, steps, rfl⟩ := SettlementState.step_await taken
      cases steps with
      | act known acts =>
          exact coherent.acted found live rfl clock rfl taken acts.now_kept acts.consumed_kept

theorem coherent_of_reached (reached : requestProcess.Reached System.Free state) :
    state.Coherent :=
  reached.invariant Coherent coherent_initial
    fun _ _ _ coherent _ stepped => coherent.step stepped

theorem now_le_of_step {label : ProcessLabel}
    (stepped : requestProcess.step state label = some next) : state.now ≤ next.now := by
  cases processSteps_of_step stepped with
  | create | collect | call | submit | publish | arrive => exact le_rfl
  | act found taken scheduled => exact (schedule_now scheduled).ge
  | tick positive => exact le_add_of_nonneg_right positive.le

/-- A step of the process is one of the calls on a future, or leaves them alone. -/
theorem requests_of_step {label : ProcessLabel} (coherent : state.Coherent)
    (stepped : requestProcess.step state label = some next)
    (found : state.objects[future]? = some object) :
    ∃ later, next.objects[future]? = some later ∧ (later.requests = object.requests ∨
      ∃ taken, Projects future label taken ∧
        settlement.step object.requests taken = some later.requests) := by
  have advanced : ∀ (acting : FutureId) (before : FutureObject) (requests : SettlementState)
      (taken : SettlementLabel), state.objects[acting]? = some before →
        settlement.step before.requests taken = some requests → Projects acting label taken →
          ∃ later, (state.objects.set acting { before with requests })[future]? = some later ∧
            (later.requests = object.requests ∨ ∃ taken, Projects future label taken ∧
              settlement.step object.requests taken = some later.requests) := by
    intro acting before requests taken known stepped projects
    rw [getElem?_set_of_found known]
    by_cases same : future = acting
    · subst same
      rw [found] at known
      cases known
      exact ⟨_, if_pos rfl, .inr ⟨taken, projects, stepped⟩⟩
    · exact ⟨object, by rw [if_neg same, found], .inl rfl⟩
  cases processSteps_of_step stepped with
  | create free =>
      refine ⟨object, ?_, .inl rfl⟩
      rw [List.getElem?_append_left (List.getElem?_eq_some_iff.mp found).1, found]
  | @collect collected before known =>
      rw [getElem?_set_of_found known]
      by_cases same : future = collected
      · subst same
        rw [found] at known
        cases known
        exact ⟨_, if_pos rfl, .inl rfl⟩
      · exact ⟨object, by rw [if_neg same, found], .inl rfl⟩
  | call known live taken => exact advanced _ _ _ _ known taken (.call _ _)
  | submit known taken => exact advanced _ _ _ _ known taken (.submit _ _)
  | act known taken => exact advanced _ _ _ _ known (coherent.taken known taken).2 (.act _ _)
  | publish queued known taken => exact advanced _ _ _ _ known taken .publish
  | arrive known taken => exact advanced _ _ _ _ known taken (.arrive _)
  | @tick elapsed positive =>
      refine ⟨object.tick elapsed, by rw [List.getElem?_map, found]; rfl,
        .inr ⟨.await (.tick elapsed), .tick elapsed, ?_⟩⟩
      simp [settlement, SettlementState.step, SettlementState.submitted, AwaitState.step, positive,
        FutureObject.tick]

end ProcessState

end ObscuraProto
