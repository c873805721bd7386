import Mathlib.Tactic.Common
import ObscuraProto.Python.Value

/-!
# The state a wrapped callback runs in

A callback runs on a native I/O thread.  It may raise, change the dispatcher,
call the error handler and hand coroutines to the event loop; all of this is a
state transformer over `World` that keeps its state when it raises.
-/

namespace ObscuraProto

abbrev HandlerId := Nat
abbrev LoopId := Nat

/-- A coroutine object: what it ends with when a loop runs it, and whether a
poll of the waiting thread sees it done before the result timeout. -/
structure Coroutine where
  id : Nat
  outcome : Except PyExc PyValue
  inTime : Bool
  deriving DecidableEq

/-- What calling a callback returns. -/
inductive Returned where
  | value (value : PyValue)
  | coroutine (coroutine : Coroutine)
  deriving DecidableEq

/-- The fields of `_CallbackDispatcher`. -/
structure Dispatcher where
  loop : Option LoopId := none
  /-- A handler that fails `if error_handler:` counts as none. -/
  errorHandler : Option HandlerId := none
  /-- `_CALLBACK_RESULT_TIMEOUT`, unless the caller sets it. -/
  resultTimeout : Seconds := ⟨5, "5.0"⟩
  deriving DecidableEq

/-- Dispatcher, thread-local flag, and the record of what callbacks did: calls
of error handlers, coroutines given to a loop, coroutines abandoned after a
timeout, and done-callbacks that forward a coroutine's failure. -/
structure World where
  dispatcher : Dispatcher := {}
  inCallback : Bool := false
  reports : List (HandlerId × PyExc) := []
  scheduled : List (LoopId × Coroutine) := []
  abandoned : List Coroutine := []
  doneCallbacks : List (Coroutine × HandlerId) := []
  deriving DecidableEq

/-- Code running on the calling thread. -/
abbrev Py := ExceptT PyExc (StateM World)

namespace Py

/-- Result and final state of a piece of code. -/
def exec {α : Type} (code : Py α) (world : World) : Except PyExc α × World :=
  code.run world

/-- Code that only returns or raises. -/
def ofExcept {α : Type} (result : Except PyExc α) : Py α :=
  match result with
  | .ok value => pure value
  | .error e => throw e

variable {α β : Type} (code : Py α) (world : World)

@[simp] theorem exec_pure (value : α) : (pure value : Py α).exec world = (.ok value, world) :=
  rfl

@[simp] theorem exec_throw (e : PyExc) : (throw e : Py α).exec world = (.error e, world) :=
  rfl

@[simp] theorem exec_modify (change : World → World) :
    (modify change : Py PUnit).exec world = (.ok ⟨⟩, change world) :=
  rfl

@[simp] theorem exec_get : (get : Py World).exec world = (.ok world, world) :=
  rfl

@[simp] theorem exec_bind (next : α → Py β) :
    (code >>= next).exec world =
      match code.exec world with
      | (.ok value, world) => (next value).exec world
      | (.error e, world) => (.error e, world) := by
  simp only [exec, bind, ExceptT.bind, ExceptT.run, ExceptT.mk, StateT.bind]
  rcases code world with ⟨_ | _, _⟩ <;> rfl

@[simp] theorem exec_map (image : α → β) :
    (image <$> code).exec world =
      match code.exec world with
      | (result, world) => (result.map image, world) := by
  rw [map_eq_pure_bind, exec_bind]
  rcases code.exec world with ⟨_ | _, _⟩ <;> rfl

@[simp] theorem exec_tryCatch (handle : PyExc → Py α) :
    (tryCatch code handle).exec world =
      match code.exec world with
      | (.ok value, world) => (.ok value, world)
      | (.error e, world) => (handle e).exec world := by
  simp only [exec, tryCatch, tryCatchThe, MonadExceptOf.tryCatch, ExceptT.tryCatch,
    ExceptT.run, ExceptT.mk, bind, StateT.bind]
  rcases code world with ⟨_ | _, _⟩ <;> rfl

@[simp] theorem exec_ofExcept (result : Except PyExc α) :
    (ofExcept result).exec world = (result, world) := by
  cases result <;> rfl

end Py

/-! ## The thread-local callback flag -/

/-- `_set_callback_thread_flag`. -/
def setCallbackThreadFlag (value : Bool) : Py PUnit :=
  modify fun world => { world with inCallback := value }

/-- `_set_callback_thread_flag(True)`, then `body`, with the flag cleared in a
`finally` block. -/
def withCallbackFlag {α : Type} (body : Py α) : Py α := do
  setCallbackThreadFlag true
  let result ← tryCatch (Except.ok <$> body) fun e => pure (Except.error e)
  setCallbackThreadFlag false
  Py.ofExcept result

@[simp] theorem exec_withCallbackFlag {α : Type} (body : Py α) (world : World) :
    (withCallbackFlag body).exec world =
      match body.exec { world with inCallback := true } with
      | (result, world) => (result, { world with inCallback := false }) := by
  simp only [withCallbackFlag, setCallbackThreadFlag, Py.exec_bind, Py.exec_modify,
    Py.exec_tryCatch, Py.exec_map]
  rcases body.exec { world with inCallback := true } with ⟨_ | _, _⟩ <;> simp [Except.map]

end ObscuraProto
