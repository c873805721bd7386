import ObscuraProto.Bridge.AwaitFuture
import ObscuraProto.Library.Processes

/-!
# Who uses the native future

The registry lets one call through to `get()`.  A call owns the future once it
has passed the single-use check; at most one call ever does.
-/

namespace ObscuraProto

open Transition Processes

@[simp] theorem Call.worker_publish (call : Call) (outcome : Reply) :
    (call.publish outcome).worker = call.worker := by
  rw [publish_eq]
  split <;> rfl

namespace AwaitState

/-- The worker of the call has passed the single-use check and is about to call
`get()`. -/
def Claimed (state : AwaitState) (id : CallId) : Prop :=
  ∃ call, state.calls[id]? = some call ∧ call.worker = .claimed

instance (state : AwaitState) (id : CallId) : Decidable (state.Claimed id) :=
  decidable_of_iff (state.calls[id]?.map (·.worker) = some .claimed) (by simp [Claimed])

/-- `get()` has been called, or is about to be, on behalf of the call. -/
def Owns (state : AwaitState) (id : CallId) : Prop :=
  .get id ∈ state.touches ∨ state.Claimed id

instance (state : AwaitState) (id : CallId) : Decidable (state.Owns id) :=
  inferInstanceAs (Decidable (_ ∨ _))

/-- At most one call owns the future, and only with the registry entry made. -/
structure Ownership (state : AwaitState) : Prop where
  unused : state.consumed = false → ∀ id, ¬ state.Owns id
  used : state.consumed = true → ∃ id, state.Owns id
  unique : ∀ id other, state.Owns id → state.Owns other → id = other
  valid_iff : state.valid = true ↔ ∀ id, .get id ∉ state.touches
  claimed_valid : ∀ id, state.Claimed id → state.valid = true
  known : ∀ id, .get id ∈ state.touches → id < state.calls.length

variable {state next : AwaitState} {id : CallId} {call after : Call}

/-- Without shared state a `get()` has been among the touches. -/
theorem Ownership.exists_get_of_invalid (owned : state.Ownership) (invalid : state.valid = false) :
    ∃ before other after, state.touches = before ++ .get other :: after := by
  have used : ¬ ∀ other, .get other ∉ state.touches := by
    rw [← owned.valid_iff, invalid]
    exact Bool.false_ne_true
  obtain ⟨other, got⟩ := not_forall_not.mp used
  obtain ⟨before, after, split⟩ := List.append_of_mem got
  exact ⟨before, other, after, split⟩

/-- A step that keeps the uses of `get()` and the claims keeps the ownership. -/
theorem Ownership.of_same (owned : state.Ownership)
    (gets : ∀ id, .get id ∈ next.touches ↔ .get id ∈ state.touches)
    (claims : ∀ id, next.Claimed id ↔ state.Claimed id)
    (consumed : next.consumed = state.consumed) (valid : next.valid = state.valid)
    (length : state.calls.length ≤ next.calls.length) : next.Ownership where
  unused unused id := by
    rw [Owns, gets, claims]
    exact owned.unused (consumed ▸ unused) id
  used used := by
    simp only [Owns, gets, claims]
    exact owned.used (consumed ▸ used)
  unique id other := by
    simp only [Owns, gets, claims]
    exact owned.unique id other
  valid_iff := by simp only [valid, gets, owned.valid_iff]
  claimed_valid id claimed := valid ▸ owned.claimed_valid id ((claims id).mp claimed)
  known id got := lt_of_lt_of_le (owned.known id ((gets id).mp got)) length

theorem claimed_set_iff (found : state.calls[id]? = some call)
    (calls : next.calls = state.calls.set id after) (other : CallId) :
    next.Claimed other ↔ if other = id then after.worker = .claimed else state.Claimed other := by
  rw [Claimed, calls]
  simp only [getElem?_set_of_found found]
  by_cases same : other = id
  · simp [same]
  · simp [same, Claimed]

theorem claimed_set_of_same (found : state.calls[id]? = some call)
    (calls : next.calls = state.calls.set id after)
    (worker : after.worker = .claimed ↔ call.worker = .claimed) (other : CallId) :
    next.Claimed other ↔ state.Claimed other := by
  rw [claimed_set_iff found calls]
  split
  · next same => simp [same, Claimed, found, worker]
  · rfl

theorem claimed_append_iff (fresh : Call) (queued : fresh.worker = .queued)
    (calls : next.calls = state.calls ++ [fresh]) (other : CallId) :
    next.Claimed other ↔ state.Claimed other := by
  constructor
  · intro claims
    rcases claims with ⟨call, found, claimed⟩
    rcases of_getElem?_append (calls ▸ found) with before | ⟨-, rfl⟩
    · exact ⟨call, before, claimed⟩
    · rw [queued] at claimed
      cases claimed
  · intro claims
    rcases claims with ⟨call, found, claimed⟩
    have bound := (List.getElem?_eq_some_iff.mp found).1
    exact ⟨call, by rw [calls, List.getElem?_append_left bound, found], claimed⟩

theorem claimed_modify_iff {outcome : Reply}
    (calls : next.calls = state.calls.modify id (·.publish outcome)) (other : CallId) :
    next.Claimed other ↔ state.Claimed other := by
  simp only [Claimed, calls, List.getElem?_modify]
  cases state.calls[other]? with
  | none => simp
  | some call => by_cases same : id = other <;> simp [same]

/-- The single-use check lets a call through while no call owns the future. -/
theorem Ownership.claim (owned : state.Ownership) (found : state.calls[id]? = some call)
    (unused : state.consumed = false) (consumed : next.consumed = true)
    (valid : next.valid = state.valid) (touches : next.touches = state.touches)
    (calls : next.calls = state.calls.set id after) (claimed : after.worker = .claimed) :
    next.Ownership := by
  have noOwner := owned.unused unused
  have noGet : ∀ other, .get other ∉ state.touches := fun other got => noOwner other (.inl got)
  have noClaim : ∀ other, ¬ state.Claimed other :=
    fun other claims => noOwner other (.inr claims)
  have owner : ∀ other, next.Owns other ↔ other = id := by
    intro other
    simp [Owns, touches, noGet, claimed_set_iff found calls, claimed, noClaim]
  constructor
  · intro still
    rw [consumed] at still
    cases still
  · intro used
    exact ⟨id, (owner id).mpr rfl⟩
  · intro one other ownsOne ownsOther
    exact ((owner one).mp ownsOne).trans ((owner other).mp ownsOther).symm
  · rw [valid, touches, owned.valid_iff]
  · intro other _
    exact valid ▸ owned.valid_iff.mpr noGet
  · intro other got
    exact absurd (touches ▸ got) (noGet other)

/-- Calling `get()` ends the claim and leaves its call the owner. -/
theorem Ownership.get (owned : state.Ownership) (found : state.calls[id]? = some call)
    (claimed : call.worker = .claimed) (consumed : next.consumed = state.consumed)
    (valid : next.valid = false) (touches : next.touches = state.touches ++ [.get id])
    (calls : next.calls = state.calls.set id after) (left : after.worker ≠ .claimed) :
    next.Ownership := by
  have owner : state.Owns id := .inr ⟨call, found, claimed⟩
  have noClaim : ∀ other, ¬ next.Claimed other := by
    intro other claims
    rw [claimed_set_iff found calls] at claims
    split at claims
    · exact left claims
    · next apart => exact apart (owned.unique other id (.inr claims) owner)
  have alone : ∀ other, next.Owns other → other = id := by
    intro other owns
    cases owns with
    | inl got =>
        simp only [touches, List.mem_append, List.mem_singleton, Touch.get.injEq] at got
        exact got.elim (fun before => owned.unique other id (.inl before) owner) (·)
    | inr claims => exact absurd claims (noClaim other)
  constructor
  · intro unused
    exact absurd owner (owned.unused (consumed ▸ unused) id)
  · intro used
    exact ⟨id, .inl (by simp [touches])⟩
  · intro one other ownsOne ownsOther
    exact (alone one ownsOne).trans (alone other ownsOther).symm
  · simp only [valid, touches, Bool.false_eq_true, false_iff]
    exact fun none => none id (by simp)
  · exact fun other claims => absurd claims (noClaim other)
  · intro other got
    simp only [touches, List.mem_append, List.mem_singleton, Touch.get.injEq] at got
    rw [calls, List.length_set]
    rcases got with before | rfl
    · exact owned.known other before
    · exact (List.getElem?_eq_some_iff.mp found).1

theorem get_mem_touch_ready (other : CallId) :
    .get other ∈ (state.touch (.ready id)).touches ↔ .get other ∈ state.touches := by
  simp [touch]

/-- Every step keeps the ownership. -/
theorem Ownership.step {label : AwaitLabel} (owned : state.Ownership)
    (stepped : awaitFuture.step state label = some next) : next.Ownership := by
  cases steps_of_step stepped with
  | start what timeout =>
      exact owned.of_same (fun _ => .rfl) (claimed_append_iff (state.newCall what timeout) rfl rfl)
        rfl rfl (by simp)
  | publish queued =>
      exact owned.of_same (fun _ => .rfl) (claimed_modify_iff rfl) rfl rfl (by simp)
  | arrive waiting => exact owned.of_same (fun _ => .rfl) (fun _ => .rfl) rfl rfl le_rfl
  | tick positive => exact owned.of_same (fun _ => .rfl) (fun _ => .rfl) rfl rfl le_rfl
  | act found acts =>
      cases acts with
      | begin queued =>
          exact owned.of_same (fun _ => .rfl)
            (claimed_set_of_same found rfl (by simp [queued])) rfl rfl (by simp)
      | pollReady polling answer | pollPending polling answer | pollFails polling answer =>
          exact owned.of_same get_mem_touch_ready
            (claimed_set_of_same found rfl (by simp [polling])) rfl rfl (by simp)
      | sleep checking early =>
          exact owned.of_same (fun _ => .rfl)
            (claimed_set_of_same found rfl (by simp [checking])) rfl rfl (by simp)
      | giveUp checking limited late =>
          exact owned.of_same (fun _ => .rfl)
            (claimed_set_of_same found rfl (by simp [checking])) rfl rfl (by simp)
      | claim consuming unused => exact owned.claim found unused rfl rfl rfl rfl rfl
      | refuse consuming used =>
          exact owned.of_same (fun _ => .rfl)
            (claimed_set_of_same found rfl (by simp [consuming])) rfl rfl (by simp)
      | get claimed valid arrived =>
          exact owned.get found claimed rfl rfl rfl rfl (fun absurdly => nomatch absurdly)
      | getInvalid claimed invalid =>
          have valid := owned.claimed_valid _ ⟨_, found, claimed⟩
          exact absurd (invalid.symm.trans valid) Bool.false_ne_true
      | post publishing =>
          exact owned.of_same (fun _ => .rfl)
            (claimed_set_of_same found rfl (by simp [publishing])) rfl rfl (by simp)
      | resume waiting done =>
          exact owned.of_same (fun _ => .rfl)
            (claimed_set_of_same found rfl .rfl) rfl rfl (by simp)
      | expire waiting limited late =>
          exact owned.of_same (fun _ => .rfl)
            (claimed_set_of_same found rfl .rfl) rfl rfl (by simp)
      | cancel waiting =>
          exact owned.of_same (fun _ => .rfl)
            (claimed_set_of_same found rfl .rfl) rfl rfl (by simp)

theorem ownership_initial : awaitFuture.initial.Ownership where
  unused _ id owns := by simp [awaitFuture, Owns, Claimed] at owns
  used used := by cases used
  unique id other owns := by simp [awaitFuture, Owns, Claimed] at owns
  valid_iff := by simp [awaitFuture]
  claimed_valid id claimed := rfl
  known id got := by simp [awaitFuture] at got

/-- In every state of every run at most one call owns the future. -/
theorem ownership_of_reached {allowed : AwaitState → AwaitLabel → Prop}
    (reached : awaitFuture.Reached allowed state) : state.Ownership :=
  reached.invariant Ownership ownership_initial fun _ _ _ owned _ stepped => owned.step stepped

end AwaitState

end ObscuraProto
