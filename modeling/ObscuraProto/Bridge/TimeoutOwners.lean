import Mathlib.Data.Rat.Floor
import Mathlib.Tactic.Linarith
import ObscuraProto.Bridge.AwaitFuture
import ObscuraProto.Payload.Builder

/-!
# The two owners of a request timeout

A timeout in seconds is handed to the C++ layer as whole milliseconds and guards
the Python-side wait as it is.  The C++ layer reads a bound of zero like an
omitted one.
-/

namespace ObscuraProto

/-- `int(x)` of a number with a fraction. -/
def truncate (x : Rat) : Int := x.num.tdiv x.den

theorem truncate_of_nonneg {x : Rat} (nonneg : 0 ≤ x) : truncate x = ⌊x⌋ := by
  rw [truncate, Rat.floor_def', Int.tdiv_eq_ediv_of_nonneg (Rat.num_nonneg.mpr nonneg)]

/-- The native call of a request and the wait for its response. -/
structure Issued where
  /-- The `timeout_ms` argument; the overload without it leaves it out. -/
  timeoutMs : Option Nat
  wait : Call

namespace Issued

/-- The bound the C++ layer applies on behalf of this call. -/
def bound (issued : Issued) : Option Nat :=
  issued.timeoutMs.filter fun ms => 0 < ms

end Issued

/-- The `uint32_t` parameter of the overloads with a timeout. -/
def loadTimeoutMs (value : Int) : Except PyExc Nat :=
  if IntType.uint32.inRange value then .ok value.toNat
  else .error (.typeError "async_request(): incompatible function arguments.")

/-- The value of `timeout_ms` in `async_request`. -/
def timeoutMs : Option Seconds → Option Int
  | none => none
  | some timeout =>
      if timeout.value ≤ 0 then none else some (truncate (timeout.value * 1000))

/-- `async_request` at time `now`, up to its `await`. -/
def asyncRequest (now : Rat) (timeout : Option Seconds) : Except PyExc Issued := do
  let wait := AwaitState.newCall { now } "async_request" timeout
  match timeoutMs timeout with
  | none => return ⟨none, wait⟩
  | some ms => return ⟨some (← loadTimeoutMs ms), wait⟩

/-- `Client.async_request`. -/
def clientAsyncRequest (now : Rat) (timeout : Option Seconds) : Except PyExc Issued :=
  asyncRequest now timeout

/-- `Server.async_request`. -/
def serverAsyncRequest (now : Rat) (timeout : Option Seconds) : Except PyExc Issued :=
  asyncRequest now timeout

/-- `Server.async_request_to_identity`: its native call has no timeout argument. -/
def serverAsyncRequestToIdentity (now : Rat) (timeout : Option Seconds) :
    Except PyExc Issued :=
  .ok ⟨none, AwaitState.newCall { now } "async_request_to_identity" timeout⟩

inductive RequestApi where
  | clientAsyncRequest
  | serverAsyncRequest
  | serverAsyncRequestToIdentity
  deriving DecidableEq

def RequestApi.issue : RequestApi → Rat → Option Seconds → Except PyExc Issued
  | clientAsyncRequest => ObscuraProto.clientAsyncRequest
  | serverAsyncRequest => ObscuraProto.serverAsyncRequest
  | serverAsyncRequestToIdentity => ObscuraProto.serverAsyncRequestToIdentity

/-- The two layers agree on the timeout of a request: both apply none, or the C++
layer has an explicit bound that differs from it by less than a millisecond. -/
def OwnersAgree (now : Rat) (timeout : Option Seconds) (outcome : Except PyExc Issued) : Prop :=
  ∃ issued, outcome = .ok issued ∧
    match timeout.filter fun timeout => 0 < timeout.value with
    | none => issued.bound = none ∧ issued.wait.deadline = none
    | some limit =>
        issued.wait.deadline = some (now + limit.value) ∧
          ∃ ms, issued.bound = some ms ∧ 1 ≤ ms ∧ ms < 2 ^ 32 ∧
            (1000 * limit.value < 2 ^ 32 → |(ms : Rat) - 1000 * limit.value| < 1)

/-! ## One timeout at a time -/

section Issue

variable {now : Rat} {limit : Seconds}

theorem newCall_deadline (what : String) (positive : 0 < limit.value) :
    (AwaitState.newCall { now } what (some limit)).deadline = some (now + limit.value) := by
  simp [AwaitState.newCall, Option.filter, positive]

theorem newCall_deadline_none (what : String) {timeout : Option Seconds}
    (unlimited : timeout.filter (fun timeout => 0 < timeout.value) = none) :
    (AwaitState.newCall { now } what timeout).deadline = none := by
  simp [AwaitState.newCall, unlimited]

/-- The milliseconds of a positive timeout, when they fit. -/
theorem asyncRequest_of_positive (positive : 0 < limit.value) :
    asyncRequest now (some limit) =
      if 1000 * limit.value < 2 ^ 32 then
        .ok ⟨some ⌊1000 * limit.value⌋.toNat,
          AwaitState.newCall { now } "async_request" (some limit)⟩
      else .error (.typeError "async_request(): incompatible function arguments.") := by
  have product : (0 : Rat) ≤ 1000 * limit.value := by linarith
  have nonneg : 0 ≤ ⌊1000 * limit.value⌋ := Int.floor_nonneg.mpr product
  have fits : IntType.uint32.inRange ⌊1000 * limit.value⌋ = true ↔
      1000 * limit.value < 2 ^ 32 := by
    rw [IntType.inRange_iff]
    simp only [nonneg, true_and, Int.floor_lt]
    norm_num
  have given : timeoutMs (some limit) = some ⌊1000 * limit.value⌋ := by
    rw [timeoutMs, if_neg (not_le.mpr positive), mul_comm, truncate_of_nonneg product]
  simp only [asyncRequest, given, loadTimeoutMs, fits]
  split <;> rfl

theorem asyncRequest_of_unlimited {timeout : Option Seconds}
    (unlimited : timeout.filter (fun timeout => 0 < timeout.value) = none) :
    asyncRequest now timeout =
      .ok ⟨none, AwaitState.newCall { now } "async_request" timeout⟩ := by
  have omitted : timeoutMs timeout = none := by
    cases timeout with
    | none => rfl
    | some limit =>
        have notPositive : limit.value ≤ 0 := by simpa [Option.filter] using unlimited
        rw [timeoutMs, if_pos notPositive]
  simp only [asyncRequest, omitted]
  rfl

/-- A floor below one is zero, which the C++ layer takes for no bound. -/
theorem asyncRequest_agrees_iff (positive : 0 < limit.value) :
    OwnersAgree now (some limit) (asyncRequest now (some limit)) ↔
      1 ≤ 1000 * limit.value ∧ 1000 * limit.value < 2 ^ 32 := by
  have limited : (some limit).filter (fun timeout : Seconds => 0 < timeout.value) =
      some limit := by simp [Option.filter, positive]
  have nonneg : 0 ≤ ⌊1000 * limit.value⌋ := Int.floor_nonneg.mpr (by linarith)
  have floored : ((⌊1000 * limit.value⌋.toNat : Nat) : Rat) = ⌊1000 * limit.value⌋ := by
    exact_mod_cast Int.toNat_of_nonneg nonneg
  simp only [OwnersAgree, limited, asyncRequest_of_positive positive]
  constructor
  · intro agree
    obtain ⟨issued, given, -, ms, bound, one, -⟩ := agree
    split at given
    · next small =>
        cases given
        refine ⟨?_, small⟩
        obtain ⟨rfl, -⟩ : ⌊1000 * limit.value⌋.toNat = ms ∧ _ := by
          simpa [Issued.bound, Option.filter_eq_some_iff] using bound
        have whole : 1 ≤ ⌊1000 * limit.value⌋ := by omega
        exact_mod_cast Int.le_floor.mp whole
    · cases given
  · intro bounds
    obtain ⟨one, small⟩ := bounds
    rw [if_pos small]
    have whole : 1 ≤ ⌊1000 * limit.value⌋ := Int.le_floor.mpr (by exact_mod_cast one)
    refine ⟨_, rfl, newCall_deadline _ positive, ⌊1000 * limit.value⌋.toNat, ?_, by omega, ?_, ?_⟩
    · have explicit : 0 < ⌊1000 * limit.value⌋.toNat := by omega
      simp [Issued.bound, Option.filter, explicit]
    · have below : ⌊1000 * limit.value⌋ < 2 ^ 32 := Int.floor_lt.mpr (by exact_mod_cast small)
      omega
    · intro _
      rw [floored, abs_lt]
      constructor
      · linarith [Int.lt_floor_add_one (1000 * limit.value)]
      · linarith [Int.floor_le (1000 * limit.value)]

/-- The wait for an identity request has no explicit bound on the other side. -/
theorem toIdentity_disagrees (positive : 0 < limit.value) :
    ¬ OwnersAgree now (some limit) (serverAsyncRequestToIdentity now (some limit)) := by
  intro agree
  have limited : (some limit).filter (fun timeout : Seconds => 0 < timeout.value) =
      some limit := by simp [Option.filter, positive]
  simp only [OwnersAgree, limited, serverAsyncRequestToIdentity] at agree
  obtain ⟨issued, given, -, ms, bound, -⟩ := agree
  cases given
  cases bound

end Issue

/-- The layers agree on a timeout exactly when it is unlimited, or is given to
`async_request` and comes to at least one millisecond and fewer than `2 ^ 32`. -/
theorem timeoutOwners_agree_iff (api : RequestApi) (now : Rat) (timeout : Option Seconds) :
    OwnersAgree now timeout (api.issue now timeout) ↔
      ∀ limit, timeout = some limit → 0 < limit.value →
        api ≠ .serverAsyncRequestToIdentity ∧ 1 ≤ 1000 * limit.value ∧
          1000 * limit.value < 2 ^ 32 := by
  by_cases limited : ∃ limit, timeout = some limit ∧ 0 < limit.value
  · obtain ⟨limit, rfl, positive⟩ := limited
    have only : (∀ other, some limit = some other → 0 < other.value →
        api ≠ .serverAsyncRequestToIdentity ∧ 1 ≤ 1000 * other.value ∧
          1000 * other.value < 2 ^ 32) ↔
        api ≠ .serverAsyncRequestToIdentity ∧ 1 ≤ 1000 * limit.value ∧
          1000 * limit.value < 2 ^ 32 := by
      constructor
      · intro every
        exact every limit rfl positive
      · intro holds other same _
        cases same
        exact holds
    rw [only]
    cases api with
    | clientAsyncRequest | serverAsyncRequest =>
        simp only [ne_eq, reduceCtorEq, not_false_eq_true, true_and]
        exact asyncRequest_agrees_iff positive
    | serverAsyncRequestToIdentity =>
        simp only [ne_eq, not_true_eq_false, false_and, iff_false]
        exact toIdentity_disagrees positive
  · have unlimited : timeout.filter (fun timeout => 0 < timeout.value) = none := by
      cases timeout with
      | none => rfl
      | some limit => simpa [Option.filter] using limited
    have vacuous : ∀ limit, timeout = some limit → 0 < limit.value →
        api ≠ .serverAsyncRequestToIdentity ∧ 1 ≤ 1000 * limit.value ∧
          1000 * limit.value < 2 ^ 32 :=
      fun limit same positive => absurd ⟨limit, same, positive⟩ limited
    apply iff_of_true _ vacuous
    simp only [OwnersAgree, unlimited]
    cases api with
    | clientAsyncRequest | serverAsyncRequest =>
        exact ⟨_, asyncRequest_of_unlimited unlimited, rfl, newCall_deadline_none _ unlimited⟩
    | serverAsyncRequestToIdentity =>
        exact ⟨_, rfl, rfl, newCall_deadline_none _ unlimited⟩

/-- Half a millisecond is handed over as zero, which is no bound. -/
theorem timeoutOwners_disagree_half :
    ¬ ∀ (api : RequestApi) (now : Rat) (timeout : Option Seconds),
      OwnersAgree now timeout (api.issue now timeout) := by
  intro every
  have agree := every .clientAsyncRequest 0 (some ⟨1 / 2000, "0.0005"⟩)
  have bounds := (asyncRequest_agrees_iff (by norm_num)).mp agree
  norm_num at bounds

end ObscuraProto
