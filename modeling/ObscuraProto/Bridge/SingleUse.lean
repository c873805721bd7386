import Mathlib.Tactic.Linarith
import ObscuraProto.Bridge.Consumption

/-!
# Single use of a `CppPayloadFuture`

Only one call gets past the registry, so `get()` runs at most once.  Polling is
not guarded: the future stays untouched after `get()` in the runs where no call
is left that will poll it.
-/

namespace ObscuraProto

open Transition Processes

def Touch.isGet : Touch → Bool
  | .get _ => true
  | .ready _ => false

@[simp] theorem Touch.isGet_get (id : CallId) : (get id).isGet = true := rfl

@[simp] theorem Touch.isGet_ready (id : CallId) : (ready id).isGet = false := rfl

/-- The worker is going to call `ready()`. -/
def Worker.willPoll : Worker → Bool
  | .queued | .polling _ => true
  | _ => false

theorem Call.isLost_endingOf_timedOut (call : Call) :
    (call.endingOf (.error call.timedOut)).isLost = true := by
  simp only [endingOf]
  split <;> rfl

namespace AwaitState

/-- The deadline of the call has passed. -/
def Expired (state : AwaitState) (id : CallId) : Prop :=
  (state.calls[id]?.bind (·.deadline)).any (· ≤ state.now) = true

instance (state : AwaitState) (id : CallId) : Decidable (state.Expired id) :=
  inferInstanceAs (Decidable (_ = _))

theorem expired_iff {state : AwaitState} {id : CallId} :
    state.Expired id ↔ ∃ call deadline, state.calls[id]? = some call ∧
      call.deadline = some deadline ∧ deadline ≤ state.now := by
  simp only [Expired, Option.any_eq_true, Option.bind_eq_some_iff, decide_eq_true_eq]
  constructor
  · rintro ⟨deadline, ⟨call, found, limited⟩, late⟩
    exact ⟨call, deadline, found, limited, late⟩
  · rintro ⟨call, deadline, found, limited, late⟩
    exact ⟨deadline, ⟨call, found, limited⟩, late⟩

/-- The condition on a step: `get()` begins when no worker is about to poll, and
afterwards no call starts or goes back to polling. -/
def PollsFirst (state : AwaitState) : AwaitLabel → Prop
  | .act _ .get => ∀ call ∈ state.calls, call.worker.willPoll = false
  | .act id .check => state.valid = true ∨ state.Expired id
  | .start .. => state.valid = true
  | _ => True

instance (state : AwaitState) : DecidablePred state.PollsFirst
  | .act _ .get => inferInstanceAs (Decidable (∀ call ∈ state.calls, _))
  | .act _ .check => inferInstanceAs (Decidable (_ ∨ _))
  | .start .. => inferInstanceAs (Decidable (_ = _))
  | .arrive _ | .publish | .tick _ => isTrue trivial
  | .act _ .begin | .act _ (.poll _) | .act _ .claim | .act _ .post | .act _ .resume
  | .act _ .expire | .act _ .cancel => isTrue trivial

/-- What such steps keep: nothing follows a `get()`, and nothing is about to. -/
structure Untouched (state : AwaitState) : Prop where
  last : ∀ before id after, state.touches = before ++ .get id :: after → after = []
  idle : state.valid = false → ∀ call ∈ state.calls, call.worker.willPoll = false

variable {state next : AwaitState} {id : CallId} {call after : Call}

/-! ## `get()` at most once -/

/-- `get()` has run once when the shared state is gone, and not before. -/
def GetsCounted (state : AwaitState) : Prop :=
  state.touches.countP (·.isGet) = (!state.valid).toNat

theorem getsCounted_step {label : AwaitLabel} (owned : state.Ownership)
    (counted : state.GetsCounted) (stepped : awaitFuture.step state label = some next) :
    next.GetsCounted := by
  cases steps_of_step stepped with
  | start | publish | arrive | tick => exact counted
  | act found acts =>
      cases acts with
      | pollReady | pollPending | pollFails => simpa [GetsCounted, touch] using counted
      | get claimed valid arrived =>
          simp only [GetsCounted, valid] at counted
          simp [GetsCounted, touch, counted]
      | getInvalid claimed invalid =>
          have valid := owned.claimed_valid _ ⟨_, found, claimed⟩
          exact absurd (invalid.symm.trans valid) Bool.false_ne_true
      | _ => exact counted

/-- In every run `get()` is called at most once. -/
theorem countP_isGet_le_one {allowed : AwaitState → AwaitLabel → Prop}
    (reached : awaitFuture.Reached allowed state) :
    state.touches.countP (·.isGet) ≤ 1 := by
  have counted : state.GetsCounted :=
    reached.invariant_of GetsCounted (fun _ => ownership_of_reached) rfl
      fun _ _ _ owned counted _ stepped => getsCounted_step owned counted stepped
  rw [counted]
  exact Bool.toNat_le _

/-! ## Nothing after `get()` -/

/-- Touching a future that has its shared state: no `get()` came before. -/
theorem last_of_valid (owned : state.Ownership) (valid : state.valid = true) {touch : Touch}
    (touches : next.touches = state.touches ++ [touch]) :
    ∀ before id after, next.touches = before ++ .get id :: after → after = [] := by
  intro before id after split
  rcases List.eq_nil_or_concat after with empty | ⟨initial, last, rfl⟩
  · exact empty
  · rw [touches, List.concat_eq_append, ← List.cons_append, ← List.append_assoc] at split
    have got : .get id ∈ state.touches := by
      rw [(List.append_inj' split rfl).1]
      simp
    exact absurd got (owned.valid_iff.mp valid id)

theorem worker_of_mem_modify {calls : List Call} {outcome : Reply} {current : Call}
    (member : current ∈ calls.modify id (·.publish outcome)) :
    ∃ before ∈ calls, before.worker = current.worker := by
  obtain ⟨index, found⟩ := List.mem_iff_getElem?.mp member
  rw [List.getElem?_modify] at found
  cases known : calls[index]? with
  | none => simp [known] at found
  | some before =>
      refine ⟨before, List.mem_of_getElem? known, ?_⟩
      simp only [known, Option.map_eq_map, Option.map_some, Option.some.injEq] at found
      rw [← found]
      split
      · exact (before.worker_publish outcome).symm
      · rfl

/-- A step of one call that touches nothing and brings no new poller. -/
theorem Untouched.act (untouched : state.Untouched) (found : state.calls[id]? = some call)
    (touches : next.touches = state.touches) (valid : next.valid = state.valid)
    (calls : next.calls = state.calls.set id after)
    (polls : state.valid = false → after.worker.willPoll = true →
      call.worker.willPoll = true) : next.Untouched := by
  constructor
  · exact touches ▸ untouched.last
  · intro invalid current member
    rw [valid] at invalid
    rw [calls] at member
    rcases List.mem_or_eq_of_mem_set member with before | rfl
    · exact untouched.idle invalid current before
    · by_contra polling
      have polled := polls invalid (by simpa using polling)
      rw [untouched.idle invalid call (List.mem_of_getElem? found)] at polled
      cases polled

/-- A worker polls only while the future has its shared state. -/
theorem Untouched.poll (untouched : state.Untouched) (owned : state.Ownership)
    (found : state.calls[id]? = some call) {notBefore : Rat}
    (polling : call.worker = .polling notBefore)
    (touches : next.touches = state.touches ++ [.ready id]) (valid : next.valid = state.valid) :
    next.Untouched := by
  have shared : state.valid = true := by
    by_contra invalid
    have idle := untouched.idle (by simpa using invalid) call (List.mem_of_getElem? found)
    simp [polling, Worker.willPoll] at idle
  exact ⟨last_of_valid owned shared touches,
    fun invalid => absurd ((valid.trans shared).symm.trans invalid) (by decide)⟩

/-- An allowed step keeps the future untouched after `get()`. -/
theorem Untouched.step {label : AwaitLabel} (untouched : state.Untouched)
    (owned : state.Ownership) (allowed : state.PollsFirst label)
    (stepped : awaitFuture.step state label = some next) : next.Untouched := by
  cases steps_of_step stepped with
  | arrive | tick => exact ⟨untouched.last, untouched.idle⟩
  | start what timeout =>
      exact ⟨untouched.last, fun invalid => absurd (allowed.symm.trans invalid) (by decide)⟩
  | publish queued =>
      constructor
      · exact untouched.last
      · intro invalid current member
        obtain ⟨before, known, worker⟩ := worker_of_mem_modify member
        exact worker ▸ untouched.idle invalid before known
  | @act id _ call after next found acts =>
      cases acts with
      | begin queued =>
          exact untouched.act found rfl rfl rfl fun _ _ => by simp [queued, Worker.willPoll]
      | pollReady polling | pollPending polling | pollFails polling =>
          exact untouched.poll owned found polling rfl rfl
      | @sleep wake checking early =>
          refine untouched.act found rfl rfl rfl ?_
          intro invalid polls
          rcases allowed with valid | expired
          · rw [invalid] at valid; cases valid
          · obtain ⟨other, deadline, known, limited, late⟩ := expired_iff.mp expired
            rw [found] at known
            cases known
            exact absurd (early deadline limited) (not_lt.mpr late)
      | get claimed valid arrived =>
          constructor
          · exact last_of_valid owned valid rfl
          · intro invalid current member
            rcases List.mem_or_eq_of_mem_set member with before | rfl
            · exact allowed current before
            · rfl
      | getInvalid claimed invalid =>
          have valid := owned.claimed_valid id ⟨call, found, claimed⟩
          exact absurd (invalid.symm.trans valid) Bool.false_ne_true
      | resume | expire | cancel => exact untouched.act found rfl rfl rfl fun _ => (·)
      | _ => exact untouched.act found rfl rfl rfl fun _ polls => nomatch polls

theorem untouched_of_reached (reached : awaitFuture.Reached PollsFirst state) :
    state.Untouched :=
  reached.invariant_of Untouched (fun _ => ownership_of_reached)
    ⟨fun before id after split => by simp [awaitFuture] at split,
      fun invalid => by cases invalid⟩
    fun _ _ _ owned untouched allowed stepped => untouched.step owned allowed stepped

/-! ## Runs that break the condition -/

/-- The future is touched after `get()`. -/
def TouchedAfterGet (state : AwaitState) : Prop :=
  ∃ before id after, state.touches = before ++ .get id :: after ∧ after ≠ []

/-- A worker that is about to poll a future without shared state can do so. -/
theorem touchedAfterGet_of_willPoll (owned : state.Ownership) (invalid : state.valid = false)
    (found : state.calls[id]? = some call) (polls : call.worker.willPoll = true) :
    ∃ later, awaitFuture.Along System.Free state later ∧ later.TouchedAfterGet := by
  have polled : ∀ (origin : AwaitState) (call : Call) (notBefore : Rat),
      origin.touches = state.touches → origin.calls[id]? = some call →
        call.worker = .polling notBefore → notBefore ≤ origin.now →
          ∃ later, awaitFuture.Along System.Free origin later ∧ later.TouchedAfterGet := by
    intro origin call notBefore touches found polling due
    refine ⟨_, .take .refl (.act id (.poll (.ok false))) trivial
      (by simp only [awaitFuture, step, found, act, polling, if_pos due]; rfl), ?_⟩
    obtain ⟨before, other, after, split⟩ := owned.exists_get_of_invalid invalid
    exact ⟨before, other, after ++ [.ready id], by simp [touch, touches, split], by simp⟩
  cases worker : call.worker with
  | queued =>
      obtain ⟨later, along, touched⟩ := polled
        { state with calls := state.calls.set id { call with worker := .polling state.now } }
        _ state.now rfl (getElem?_set_of_found found _ id |>.trans (if_pos rfl)) rfl le_rfl
      refine ⟨later, System.Along.trans (.take .refl (.act id .begin) trivial ?_) along,
        touched⟩
      simp only [awaitFuture, step, found, act, worker]
  | polling notBefore =>
      obtain ⟨later, along, touched⟩ := polled
        { state with now := state.now + max 1 (notBefore - state.now) } call notBefore rfl found
        worker (by linarith [le_max_right 1 (notBefore - state.now)])
      refine ⟨later, System.Along.trans
        (.take .refl (.tick (max 1 (notBefore - state.now))) trivial ?_) along, touched⟩
      exact if_pos (lt_of_lt_of_le one_pos (le_max_left 1 _))
  | _ => rw [worker] at polls; cases polls

/-- The condition is not too strong: after any other step the run can go on to touch
the future after `get()`. -/
theorem touchedAfterGet_of_not_pollsFirst {allowed : AwaitState → AwaitLabel → Prop}
    {label : AwaitLabel} (reached : awaitFuture.Reached allowed state)
    (broken : ¬ state.PollsFirst label)
    (stepped : awaitFuture.step state label = some next) :
    ∃ later, awaitFuture.Along System.Free next later ∧ later.TouchedAfterGet := by
  have owned := (ownership_of_reached reached).step stepped
  cases steps_of_step stepped with
  | arrive | tick | publish => exact absurd trivial broken
  | start what timeout =>
      exact touchedAfterGet_of_willPoll owned (by simpa [PollsFirst] using broken)
        List.getElem?_concat_length rfl
  | @act id _ call after next found acts =>
      cases acts with
      | sleep checking early =>
          simp only [PollsFirst, not_or, Bool.not_eq_true] at broken
          exact touchedAfterGet_of_willPoll owned broken.1
            ((getElem?_set_of_found found _ id).trans (if_pos rfl)) rfl
      | giveUp checking limited late =>
          exact absurd (.inr (expired_iff.mpr ⟨call, _, found, limited, late⟩)) broken
      | get claimed valid arrived =>
          simp only [PollsFirst, not_forall, Bool.not_eq_false] at broken
          obtain ⟨poller, member, polls⟩ := broken
          obtain ⟨other, known⟩ := List.mem_iff_getElem?.mp member
          have apart : other ≠ id := by
            intro same
            subst same
            rw [found] at known
            cases known
            simp [claimed, Worker.willPoll] at polls
          exact touchedAfterGet_of_willPoll owned rfl
            ((getElem?_set_of_found found _ other).trans (by rw [if_neg apart, known])) polls
      | getInvalid claimed invalid =>
          have valid := (ownership_of_reached reached).claimed_valid id ⟨call, found, claimed⟩
          exact absurd (invalid.symm.trans valid) Bool.false_ne_true
      | _ => exact absurd trivial broken

/-! ## Who gets the response -/

/-- Without stale polls a call that is not lost got the reply by its own `get()`
or was refused by the single-use check. -/
theorem reply_or_refused (traced : state.Provenance) (fresh : ¬ state.Stale id)
    (found : state.calls[id]? = some call) {ending : Ending} (ended : call.ending = some ending)
    (kept : ending.isLost = false) :
    (.get id ∈ state.touches ∧ ∃ reply, state.reply = some reply ∧ ending = call.endingOf reply) ∨
      (ending = .raised singleUse ∧ state.consumed = true) := by
  rcases traced.ended id call ending found ended with ⟨outcome, done, rfl⟩ | rfl | rfl
  · rcases traced.sourced id call outcome found (.inr (.inr done)) with
      ⟨got, replied⟩ | ⟨-, ⟨rfl, used⟩ | rfl | stale⟩
    · exact .inl ⟨got, outcome, replied, rfl⟩
    · exact .inr ⟨by simp [Call.endingOf, singleUse, PyExc.isTimeout], used⟩
    · rw [call.isLost_endingOf_timedOut] at kept
      cases kept
    · exact absurd stale fresh
  · cases kept
  · cases kept

/-- A call that ran `get()` and is not lost ends with the reply. -/
theorem reply_of_get (traced : state.Provenance) (got : .get id ∈ state.touches)
    (found : state.calls[id]? = some call) {ending : Ending} (ended : call.ending = some ending)
    (kept : ending.isLost = false) :
    ∃ reply, state.reply = some reply ∧ ending = call.endingOf reply := by
  rcases traced.ended id call ending found ended with ⟨outcome, done, rfl⟩ | rfl | rfl
  · rcases traced.sourced id call outcome found (.inr (.inr done)) with ⟨-, replied⟩ | ⟨notGot, -⟩
    · exact ⟨outcome, replied, rfl⟩
    · exact absurd got notGot
  · cases kept
  · cases kept

theorem Untouched.not_stale (untouched : state.Untouched) (id : CallId) : ¬ state.Stale id := by
  intro stale
  rcases stale with ⟨before, after, other, split, polled⟩
  rw [untouched.last before other after split] at polled
  cases polled

/-- Once every call has its outcome, none is left between the single-use check and
`get()`. -/
theorem exists_get_of_used (owned : state.Ownership) (traced : state.Provenance)
    (ended : ∀ call ∈ state.calls, ∃ ending, call.ending = some ending ∧ ending.isLost = false)
    (used : state.consumed = true) : ∃ id, .get id ∈ state.touches := by
  obtain ⟨owner, owns⟩ := owned.used used
  rcases owns with got | ⟨claimer, found, claimed⟩
  · exact ⟨owner, got⟩
  · obtain ⟨ending, isEnding, kept⟩ := ended claimer (List.mem_of_getElem? found)
    have idle := traced.unpublished owner claimer found (by simp [claimed])
    rcases traced.ended owner claimer ending found isEnding with ⟨outcome, done, -⟩ | rfl | rfl
    · exact absurd done (idle.2 outcome)
    · cases kept
    · cases kept

/-- When every call has ended without timeout or cancellation, one of them called
`get()`. -/
theorem exists_get (owned : state.Ownership) (traced : state.Provenance)
    (fresh : ∀ id, ¬ state.Stale id) (nonempty : state.calls ≠ [])
    (ended : ∀ call ∈ state.calls, ∃ ending, call.ending = some ending ∧ ending.isLost = false) :
    ∃ id, .get id ∈ state.touches := by
  obtain ⟨first, rest, calls⟩ := List.exists_cons_of_ne_nil nonempty
  have found : state.calls[0]? = some first := by simp [calls]
  obtain ⟨ending, isEnding, kept⟩ := ended first (List.mem_of_getElem? found)
  rcases reply_or_refused traced (fresh 0) found isEnding kept with ⟨got, -⟩ | ⟨-, used⟩
  · exact ⟨0, got⟩
  · exact exists_get_of_used owned traced ended used

end AwaitState

open AwaitState in
/-- In a run where polling comes before `get()`, the future is used once and left
alone afterwards, and when every call has ended without timeout or cancellation
one got the reply and the others were refused. -/
theorem singleUse_of_pollsFirst {state : AwaitState}
    (reached : awaitFuture.Reached PollsFirst state) :
    state.touches.countP (·.isGet) ≤ 1 ∧
      (∀ before id after, state.touches = before ++ .get id :: after → after = []) ∧
      (state.calls ≠ [] →
        (∀ call ∈ state.calls, ∃ ending, call.ending = some ending ∧ ending.isLost = false) →
          ∃ id call reply, state.calls[id]? = some call ∧ .get id ∈ state.touches ∧
            state.reply = some reply ∧ call.ending = some (call.endingOf reply) ∧
            ∀ (other : CallId) (current : Call), other ≠ id →
              state.calls[other]? = some current → current.ending = some (.raised singleUse)) := by
  have untouched := untouched_of_reached reached
  have owned := ownership_of_reached reached
  have traced := provenance_of_reached reached
  refine ⟨countP_isGet_le_one reached, untouched.last, ?_⟩
  intro nonempty ended
  obtain ⟨id, got⟩ := exists_get owned traced untouched.not_stale nonempty ended
  obtain ⟨call, found⟩ : ∃ call, state.calls[id]? = some call :=
    ⟨_, List.getElem?_eq_getElem (owned.known id got)⟩
  have others : ∀ (other : CallId) (current : Call), other ≠ id →
      state.calls[other]? = some current → current.ending = some (.raised singleUse) := by
    intro other current apart foundOther
    obtain ⟨ending, isEnding, kept⟩ := ended current (List.mem_of_getElem? foundOther)
    rcases reply_or_refused traced (untouched.not_stale other) foundOther isEnding kept with
      ⟨gotOther, -⟩ | ⟨rfl, -⟩
    · exact absurd (owned.unique other id (.inl gotOther) (.inl got)) apart
    · exact isEnding
  obtain ⟨ending, isEnding, kept⟩ := ended call (List.mem_of_getElem? found)
  obtain ⟨reply, replied, rfl⟩ := reply_of_get traced got found isEnding kept
  exact ⟨id, call, reply, found, got, replied, isEnding, others⟩

open AwaitState in
/-- Two overlapping calls that both see the response before the first `get()`. -/
theorem singleUse_of_pollsFirst_overlapping :
    ∃ state : AwaitState, state.calls.length = 2 ∧ state.touches.countP (·.isGet) ≤ 1 ∧
      ∃ id call reply, state.calls[id]? = some call ∧ .get id ∈ state.touches ∧
        state.reply = some reply ∧ call.ending = some (call.endingOf reply) ∧
        ∀ (other : CallId) (current : Call), other ≠ id →
          state.calls[other]? = some current → current.ending = some (.raised singleUse) := by
  let reply : Reply := .ok ⟨0x4302, []⟩
  let answered (outcome : Reply) (ending : Ending) : Call :=
    { what := "async_request", timeout := none, deadline := none, worker := .finished
      result := .done outcome, ending := some ending }
  let final : AwaitState :=
    { reply := some reply, valid := false, consumed := true
      touches := [.ready 0, .ready 1, .get 0]
      calls := [answered reply (.returned ⟨0x4302, []⟩),
        answered (.error singleUse) (.raised singleUse)] }
  have ran : awaitFuture.run PollsFirst awaitFuture.initial
      [.start "async_request" none, .start "async_request" none, .act 0 .begin, .act 1 .begin,
        .arrive reply, .act 0 (.poll (.ok true)), .act 1 (.poll (.ok true)), .act 0 .claim,
        .act 0 .get, .act 1 .claim, .act 0 .post, .act 1 .post, .publish, .publish,
        .act 0 .resume, .act 1 .resume] = some final := by decide +kernel
  have used := singleUse_of_pollsFirst (System.along_of_run ran)
  exact ⟨final, rfl, used.1, used.2.2 (by decide) (by decide)⟩

open AwaitState in
/-- A second wait that starts after the first one got the response polls the
consumed future. -/
theorem polled_after_get :
    ¬ ∀ state, awaitFuture.Reached System.Free state →
      ∀ before id after, state.touches = before ++ .get id :: after → after = [] := by
  intro never
  let reply : Reply := .ok ⟨0x4302, []⟩
  let first : Call :=
    { what := "async_request", timeout := none, deadline := none
      worker := .publishing reply }
  let second : Call :=
    { what := "async_request", timeout := none, deadline := none
      worker := .publishing (.error noState) }
  have ran : awaitFuture.run System.Free awaitFuture.initial
      [.start "async_request" none, .act 0 .begin, .arrive reply, .act 0 (.poll (.ok true)),
        .act 0 .claim, .act 0 .get, .start "async_request" none, .act 1 .begin,
        .act 1 (.poll (.error noState))] =
      some
        { reply := some reply, valid := false, consumed := true
          touches := [.ready 0, .get 0, .ready 1], calls := [first, second] } := by
    decide +kernel
  have nothing := never _ (System.along_of_run ran) [.ready 0] 0 [.ready 1] rfl
  cases nothing

end ObscuraProto
