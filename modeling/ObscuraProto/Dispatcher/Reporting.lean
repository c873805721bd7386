import ObscuraProto.Dispatcher.Invocation

/-!
# Where callback failures go

A callback that returns, raises or hands back a coroutine fails in a way that
depends on the wrapper around it.  With an error handler set, the failure should
reach that handler once; without one it should be raised to the native caller.
-/

namespace ObscuraProto

/-- The failure of a callback under a wrapper.  A coroutine fails with its own
exception, with the timeout of a wrapper that waits for it, or with the refusal
of an identity wrapper that has no loop for it. -/
def Wrapper.failure : Wrapper → Behaviour → Option PyExc
  | _, .returns _ => none
  | _, .raises e => some e
  | .sync, .returnsCoroutine coroutine => coroutine.failure
  | .fireAndForget _, .returnsCoroutine coroutine => coroutine.failure
  | .withResult _ resultTimeout, .returnsCoroutine coroutine =>
      coroutine.waitFailure resultTimeout
  | .identity (some _) resultTimeout, .returnsCoroutine coroutine =>
      coroutine.waitFailure resultTimeout
  | .identity none _, .returnsCoroutine _ => some noLoopAttached

/-- The reporting law for one invocation: a failure goes to the error handler
exactly once, and is raised when there is none.  What is raised past an error
handler is what that handler raised itself. -/
def ReportedOnce (react : Reactions) (wrapper : Wrapper) (behaviour : Behaviour)
    (world : World) : Prop :=
  match invokeAndSettle react.handlers wrapper behaviour.callback world with
  | (result, after) =>
      match wrapper.failure behaviour, world.dispatcher.errorHandler with
      | none, _ => after.reports = world.reports ∧ ∃ value, result = .ok value
      | some e, some handler =>
          after.reports = world.reports ++ [(handler, e)] ∧
            ∀ raised, result = .error raised → react handler e = .error raised
      | some e, none => after.reports = world.reports ∧ result = .error e

/-- Condition under which an invocation obeys the reporting law. -/
def Reportable (react : Reactions) (wrapper : Wrapper) (behaviour : Behaviour)
    (world : World) : Prop :=
  match wrapper, behaviour with
  -- Nothing runs a coroutine returned through the loop-less wrapper.
  | .sync, .returnsCoroutine coroutine => coroutine.failure = none
  | .fireAndForget _, .returnsCoroutine coroutine =>
      coroutine.failure = none ∨ world.dispatcher.errorHandler ≠ none
  | .withResult _ resultTimeout, .returnsCoroutine coroutine =>
      ∀ e handler, coroutine.waitFailure resultTimeout = some e →
        world.dispatcher.errorHandler = some handler → react handler e = .ok ⟨⟩
  | _, _ => True

/-! ## Behaviour by behaviour -/

section Settled

variable {react : Reactions} {world before after : World} {wrapper : Wrapper}
  {behaviour : Behaviour} {value absorbed : Returned} {e : PyExc}

/-- A call that succeeds reports nothing. -/
theorem reportedOnce_of_ok
    (settled : invokeAndSettle react.handlers wrapper behaviour.callback world =
      (.ok value, after))
    (noFailure : wrapper.failure behaviour = none) (reports : after.reports = world.reports) :
    ReportedOnce react wrapper behaviour world := by
  rw [ReportedOnce, settled, noFailure]
  exact ⟨reports, value, rfl⟩

/-- A failure that passes one `except` clause obeys the law. -/
theorem reportedOnce_of_forwarded
    (settled : invokeAndSettle react.handlers wrapper behaviour.callback world =
      forwarded react absorbed e before)
    (failure : wrapper.failure behaviour = some e)
    (dispatcher : before.dispatcher = world.dispatcher)
    (reports : before.reports = world.reports) :
    ReportedOnce react wrapper behaviour world := by
  rw [ReportedOnce, settled, failure, forwarded, dispatcher]
  cases world.dispatcher.errorHandler with
  | none => exact ⟨reports, rfl⟩
  | some handler =>
      constructor
      · rw [reports]
      · intro raised raises
        cases reaction : react handler e with
        | ok done => simp [reaction, Except.map] at raises
        | error other =>
            rw [reaction] at raises
            cases raises
            rfl

variable (react world) (coroutine : Coroutine)

/-- The law for a callback that fails before handing back a coroutine. -/
theorem reportedOnce_raises (wrapper : Wrapper) (e : PyExc) :
    ReportedOnce react wrapper (.raises e) world :=
  reportedOnce_of_forwarded (settle_raises react world wrapper e) (by cases wrapper <;> rfl)
    rfl rfl

theorem reportedOnce_returns (wrapper : Wrapper) (value : PyValue) :
    ReportedOnce react wrapper (.returns value) world :=
  reportedOnce_of_ok (settle_returns react world wrapper value) (by cases wrapper <;> rfl) rfl

/-- The loop-less wrapper hands the coroutine back, so none of its failures is
seen. -/
theorem reportedOnce_sync_coroutine :
    ReportedOnce react .sync (.returnsCoroutine coroutine) world ↔
      coroutine.failure = none := by
  rw [ReportedOnce, settle_sync_coroutine]
  cases failed : coroutine.failure <;> cases world.dispatcher.errorHandler <;>
    simp [Wrapper.failure, failed]

theorem reportedOnce_fireAndForget_coroutine (loop : LoopId) :
    ReportedOnce react (.fireAndForget loop) (.returnsCoroutine coroutine) world ↔
      coroutine.failure = none ∨ world.dispatcher.errorHandler ≠ none := by
  rw [ReportedOnce, settle_fireAndForget_coroutine]
  cases world.dispatcher.errorHandler <;> cases failed : coroutine.failure <;>
    simp [Wrapper.failure, failed]

/-- The waiting wrapper forwards a failure from its inner `except`; what the
error handler raises there is caught and forwarded again. -/
theorem reportedOnce_withResult_coroutine (loop : LoopId) (resultTimeout : Seconds) :
    ReportedOnce react (.withResult loop resultTimeout) (.returnsCoroutine coroutine) world ↔
      ∀ e handler, coroutine.waitFailure resultTimeout = some e →
        world.dispatcher.errorHandler = some handler → react handler e = .ok ⟨⟩ := by
  rw [ReportedOnce, settle_withResult_coroutine]
  cases waited : coroutine.waitOutcome resultTimeout with
  | ok value => simp [Wrapper.failure, Coroutine.waitFailure, World.waited, waited]
  | error e =>
      cases set : world.dispatcher.errorHandler with
      | none => simp [Wrapper.failure, Coroutine.waitFailure, World.waited, forwarded, waited, set]
      | some handler =>
          cases reaction : react handler e <;>
            simp [Wrapper.failure, Coroutine.waitFailure, World.waited, forwarded, Except.map,
              waited, set, reaction]

theorem reportedOnce_identity_coroutine (loop : Option LoopId) (resultTimeout : Seconds) :
    ReportedOnce react (.identity loop resultTimeout) (.returnsCoroutine coroutine) world := by
  cases loop with
  | none =>
      exact reportedOnce_of_forwarded
        (settle_identity_none_coroutine react world coroutine resultTimeout) rfl rfl rfl
  | some loop =>
      have settled := settle_identity_some_coroutine react world coroutine loop resultTimeout
      cases waited : coroutine.waitOutcome resultTimeout with
      | ok value =>
          rw [waited] at settled
          exact reportedOnce_of_ok settled
            (by simp [Wrapper.failure, Coroutine.waitFailure, waited]) rfl
      | error e =>
          rw [waited] at settled
          exact reportedOnce_of_forwarded settled
            (by simp [Wrapper.failure, Coroutine.waitFailure, waited]) rfl rfl

end Settled

/-- An invocation obeys the reporting law exactly when it is reportable. -/
theorem reportedOnce_iff (react : Reactions) (wrapper : Wrapper) (behaviour : Behaviour)
    (world : World) :
    ReportedOnce react wrapper behaviour world ↔
      Reportable react wrapper behaviour world := by
  cases behaviour with
  | returns value =>
      have holds := reportedOnce_returns react world wrapper value
      cases wrapper <;> simpa [Reportable] using holds
  | raises e =>
      have holds := reportedOnce_raises react world wrapper e
      cases wrapper <;> simpa [Reportable] using holds
  | returnsCoroutine coroutine =>
      cases wrapper with
      | sync => exact reportedOnce_sync_coroutine react world coroutine
      | fireAndForget loop =>
          exact reportedOnce_fireAndForget_coroutine react world coroutine loop
      | withResult loop resultTimeout =>
          exact reportedOnce_withResult_coroutine react world coroutine loop resultTimeout
      | identity loop resultTimeout =>
          exact iff_of_true
            (reportedOnce_identity_coroutine react world coroutine loop resultTimeout) trivial

/-- An error handler that raises is called again, with its own exception, when a
coroutine awaited by the waiting wrapper fails. -/
theorem reportedOnce_not_always :
    ¬ ∀ (react : Reactions) (wrapper : Wrapper) (behaviour : Behaviour) (world : World),
      ReportedOnce react wrapper behaviour world := by
  intro every
  have law := every (fun _ e => .error (.user "HandlerError" e.str)) (.withResult 0 ⟨5, "5.0"⟩)
    (.returnsCoroutine ⟨1, .error (.user "ValueError" "boom"), true⟩)
    { dispatcher := { errorHandler := some 3 } }
  have reports : (invokeAndSettle
      (Reactions.handlers fun _ e => .error (.user "HandlerError" e.str))
      (.withResult 0 ⟨5, "5.0"⟩)
      (Behaviour.returnsCoroutine ⟨1, .error (.user "ValueError" "boom"), true⟩).callback
      { dispatcher := { errorHandler := some 3 } }).2.reports =
        [(3, .user "ValueError" "boom"), (3, .user "HandlerError" "boom")] := rfl
  exact absurd (reports.symm.trans law.1) (by decide)

end ObscuraProto
