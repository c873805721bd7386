import Mathlib.Algebra.Order.Floor.Semiring
import Mathlib.Tactic.Linarith

/-!
# Polling until a deadline

A thread polls; after each poll that answers no it reads a clock and sleeps for an
interval, or for what is left until its deadline.  It controls neither the answers nor
the clock: whatever a sleep asks for, the next reading may be later by any amount.
-/

namespace Library.Polling

universe u v

/-- What a waiting thread meets.  The polls are numbered. -/
structure Surroundings (Time : Type u) (Failure : Type v) [Zero Time] [LE Time] where
  /-- What a poll answers or raises. -/
  answer : Nat → Except Failure Bool
  /-- How much later than the last sleep asks for the clock is read after a poll. -/
  delay : Nat → Time
  delay_nonneg : ∀ poll, 0 ≤ delay poll

inductive Event (Time : Type u) (Failure : Type v) where
  | poll (answer : Except Failure Bool)
  | clock (reading : Time)
  | sleep (duration : Time)

inductive Ending (Failure : Type v) where
  /-- A poll answered yes. -/
  | completed (poll : Nat)
  | failed (e : Failure)
  /-- After a poll that answered no the deadline had passed. -/
  | expired (poll : Nat)

/-- What the thread does, in order, and how it leaves the loop. -/
structure Run (Time : Type u) (Failure : Type v) where
  events : List (Event Time Failure)
  /-- `none` when the fuel has run out. -/
  ending : Option (Ending Failure)

variable {Time : Type u} {Failure : Type v}

def Event.isPoll : Event Time Failure → Bool
  | .poll _ => true
  | _ => false

def Event.answered : Event Time Failure → Option (Except Failure Bool)
  | .poll answer => some answer
  | _ => none

def Event.read : Event Time Failure → Option Time
  | .clock reading => some reading
  | _ => none

def Event.requested : Event Time Failure → Option Time
  | .sleep duration => some duration
  | _ => none

namespace Run

def after (events : List (Event Time Failure)) (run : Run Time Failure) : Run Time Failure :=
  { run with events := events ++ run.events }

def polls (run : Run Time Failure) : Nat :=
  run.events.countP Event.isPoll

/-- What the polls answered or raised. -/
def answers (run : Run Time Failure) : List (Except Failure Bool) :=
  run.events.filterMap Event.answered

/-- What the clock showed. -/
def readings (run : Run Time Failure) : List Time :=
  run.events.filterMap Event.read

/-- The arguments of the sleeps. -/
def sleeps (run : Run Time Failure) : List Time :=
  run.events.filterMap Event.requested

end Run

section Loop

variable [Field Time] [LinearOrder Time]

/-- The loop from a poll on; `clock` is what the clock shows at least.  `fuel` bounds
the number of polls. -/
def loop (interval deadline : Time) (around : Surroundings Time Failure) :
    (fuel poll : Nat) → (clock : Time) → Run Time Failure
  | 0, _, _ => ⟨[], none⟩
  | fuel + 1, poll, clock =>
      match around.answer poll with
      | .error e => ⟨[.poll (.error e)], some (.failed e)⟩
      | .ok true => ⟨[.poll (.ok true)], some (.completed poll)⟩
      | .ok false =>
          let reading := clock + around.delay poll
          let remaining := deadline - reading
          if remaining ≤ 0 then
            ⟨[.poll (.ok false), .clock reading], some (.expired poll)⟩
          else
            let duration := min interval remaining
            (loop interval deadline around fuel (poll + 1) (reading + duration)).after
              [.poll (.ok false), .clock reading, .sleep duration]

end Loop

/-- A wait for at most `limit`: it ends after a bounded number of polls, asks for no
empty sleep and for no more than the limit in all, completes if a poll answers yes, and
expires only when the clock is read at or past the deadline after a last no. -/
structure Run.Bounded [Field Time] [LinearOrder Time] [IsStrictOrderedRing Time]
    [FloorSemiring Time] (interval limit deadline : Time) (run : Run Time Failure) : Prop where
  ends : run.ending.isSome = true
  polls_le : run.polls ≤ ⌈max limit 0 / interval⌉₊ + 2
  sleeps_pos : ∀ duration ∈ run.sleeps, 0 < duration
  sum_sleeps_le : run.sleeps.sum ≤ max limit 0
  completes : .poll (.ok true) ∈ run.events → ∃ poll, run.ending = some (.completed poll)
  expires : ∀ poll, run.ending = some (.expired poll) → ∃ earlier reading,
    run.events = earlier ++ [.poll (.ok false), .clock reading] ∧ deadline ≤ reading

/-- The run is what the thread met from the poll `first` on: its polls are the answers in
order, and it stops at the one that is not no.  The clock is read after each no, as late
after `start` or the end of the last sleep as given; before the deadline a sleep follows,
for the interval or for what is left. -/
structure Run.Follows [Field Time] [LinearOrder Time] (interval deadline start : Time)
    (around : Surroundings Time Failure) (first : Nat) (run : Run Time Failure) : Prop where
  answered : ∀ poll answer, run.answers[poll]? = some answer →
    answer = around.answer (first + poll)
  no_before : ∀ poll, poll + 1 < run.polls → around.answer (first + poll) = .ok false
  completed_iff : ∀ last, run.ending = some (.completed last) ↔
    ∃ poll, poll + 1 = run.polls ∧ last = first + poll ∧
      around.answer (first + poll) = .ok true
  failed_iff : ∀ e, run.ending = some (.failed e) ↔
    ∃ poll, poll + 1 = run.polls ∧ around.answer (first + poll) = .error e
  expired_iff : ∀ last, run.ending = some (.expired last) ↔
    ∃ poll, poll + 1 = run.polls ∧ last = first + poll ∧
      ∃ reading, run.readings[poll]? = some reading ∧ deadline ≤ reading
  read_iff : ∀ poll, (∃ reading, run.readings[poll]? = some reading) ↔
    poll < run.polls ∧ around.answer (first + poll) = .ok false
  slept_iff : ∀ (poll : Nat) (duration : Time), run.sleeps[poll]? = some duration ↔
    ∃ reading, run.readings[poll]? = some reading ∧ reading < deadline ∧
      duration = min interval (deadline - reading)
  first_reading : ∀ reading, run.readings[0]? = some reading →
    reading = start + around.delay first
  next_reading : ∀ (poll : Nat) (before duration reading : Time),
    run.readings[poll]? = some before → run.sleeps[poll]? = some duration →
    run.readings[poll + 1]? = some reading →
    reading = before + duration + around.delay (first + (poll + 1))

@[simp] theorem Run.polls_after (events : List (Event Time Failure)) (run : Run Time Failure) :
    (run.after events).polls = events.countP Event.isPoll + run.polls :=
  List.countP_append

@[simp] theorem Run.answers_after (events : List (Event Time Failure))
    (run : Run Time Failure) :
    (run.after events).answers = events.filterMap Event.answered ++ run.answers :=
  List.filterMap_append

@[simp] theorem Run.readings_after (events : List (Event Time Failure))
    (run : Run Time Failure) :
    (run.after events).readings = events.filterMap Event.read ++ run.readings :=
  List.filterMap_append

@[simp] theorem Run.sleeps_after (events : List (Event Time Failure)) (run : Run Time Failure) :
    (run.after events).sleeps = events.filterMap Event.requested ++ run.sleeps :=
  List.filterMap_append

variable [Field Time] [LinearOrder Time]
variable {interval deadline clock : Time} {around : Surroundings Time Failure}
  {fuel poll last : Nat} {run : Run Time Failure}

/-! ## The turns of the loop -/

/-- What each turn of the loop can do. -/
inductive Turns (interval deadline : Time) (around : Surroundings Time Failure) :
    (fuel poll : Nat) → (clock : Time) → Run Time Failure → Prop
  | exhausted {poll : Nat} {clock : Time} :
      Turns interval deadline around 0 poll clock ⟨[], none⟩
  | fails {fuel poll : Nat} {clock : Time} {e : Failure} (raised : around.answer poll = .error e) :
      Turns interval deadline around (fuel + 1) poll clock
        ⟨[.poll (.error e)], some (.failed e)⟩
  | completes {fuel poll : Nat} {clock : Time} (yes : around.answer poll = .ok true) :
      Turns interval deadline around (fuel + 1) poll clock
        ⟨[.poll (.ok true)], some (.completed poll)⟩
  | expires {fuel poll : Nat} {clock reading : Time} (no : around.answer poll = .ok false)
      (read : reading = clock + around.delay poll) (late : deadline ≤ reading) :
      Turns interval deadline around (fuel + 1) poll clock
        ⟨[.poll (.ok false), .clock reading], some (.expired poll)⟩
  | sleeps {fuel poll : Nat} {clock reading duration : Time} {run : Run Time Failure}
      (no : around.answer poll = .ok false) (read : reading = clock + around.delay poll)
      (early : reading < deadline) (asked : duration = min interval (deadline - reading))
      (rest : Turns interval deadline around fuel (poll + 1) (reading + duration) run) :
      Turns interval deadline around (fuel + 1) poll clock
        (run.after [.poll (.ok false), .clock reading, .sleep duration])

theorem Surroundings.forward [IsStrictOrderedRing Time] {reading : Time}
    (around : Surroundings Time Failure) (read : reading = clock + around.delay poll) :
    clock ≤ reading :=
  read ▸ le_add_of_nonneg_right (around.delay_nonneg poll)

namespace Turns

/-! ## How the loop ends -/

theorem completed_of_yes (turns : Turns interval deadline around fuel poll clock run)
    (yes : .poll (.ok true) ∈ run.events) : ∃ last, run.ending = some (.completed last) := by
  induction turns with
  | exhausted => cases yes
  | fails | expires => simp at yes
  | @completes _ poll => exact ⟨poll, rfl⟩
  | sleeps no read early asked rest ih =>
      apply ih
      simpa [Run.after] using yes

theorem answer_of_completed (turns : Turns interval deadline around fuel poll clock run)
    (completed : run.ending = some (.completed last)) : around.answer last = .ok true := by
  induction turns with
  | completes yes =>
      cases completed
      exact yes
  | sleeps no read early asked rest ih => exact ih completed
  | exhausted | fails | expires => cases completed

theorem late_of_expired (turns : Turns interval deadline around fuel poll clock run)
    (expired : run.ending = some (.expired last)) :
    ∃ earlier reading, run.events = earlier ++ [.poll (.ok false), .clock reading] ∧
      deadline ≤ reading := by
  induction turns with
  | @expires _ _ _ reading no read late => exact ⟨[], reading, rfl, late⟩
  | sleeps no read early asked rest ih =>
      obtain ⟨earlier, reading, same, late⟩ := ih expired
      exact ⟨_ ++ earlier, reading, by rw [Run.after, same, List.append_assoc], late⟩
  | exhausted | fails | completes => cases expired

/-! ## What the run records -/

theorem exists_last_succ {count : Nat} {holds : Nat → Prop} (first : ¬ holds 0) :
    (∃ poll, poll + 1 = count + 1 ∧ holds poll) ↔
      ∃ later, later + 1 = count ∧ holds (later + 1) := by
  constructor
  · rintro ⟨- | later, last, held⟩
    · exact absurd held first
    · exact ⟨later, Nat.succ.inj last, held⟩
  · rintro ⟨later, last, held⟩
    exact ⟨later + 1, congrArg Nat.succ last, held⟩

/-- A turn that goes on, before a run that follows. -/
theorem follows_after {reading duration : Time} (no : around.answer poll = .ok false)
    (read : reading = clock + around.delay poll) (early : reading < deadline)
    (asked : duration = min interval (deadline - reading))
    (rest : run.Follows interval deadline (reading + duration) around (poll + 1)) :
    (run.after [.poll (.ok false), .clock reading, .sleep duration]).Follows
      interval deadline clock around poll := by
  have shift (later : Nat) : poll + (later + 1) = poll + 1 + later := by omega
  have polls : (run.after [.poll (.ok false), .clock reading, .sleep duration]).polls =
      run.polls + 1 := (Run.polls_after _ _).trans (Nat.add_comm 1 _)
  have answers : (run.after [.poll (.ok false), .clock reading, .sleep duration]).answers =
      .ok false :: run.answers := Run.answers_after _ _
  have readings : (run.after [.poll (.ok false), .clock reading, .sleep duration]).readings =
      reading :: run.readings := Run.readings_after _ _
  have sleeps : (run.after [.poll (.ok false), .clock reading, .sleep duration]).sleeps =
      duration :: run.sleeps := Run.sleeps_after _ _
  constructor
  · rw [answers]
    rintro (- | later) answer recorded
    · exact (Option.some.inj recorded).symm.trans no.symm
    · rw [shift]
      exact rest.answered later answer recorded
  · rw [polls]
    rintro (- | later) more
    · exact no
    · rw [shift]
      exact rest.no_before later (Nat.lt_of_succ_lt_succ more)
  · intro last
    have first : ¬ (last = poll + 0 ∧ around.answer (poll + 0) = .ok true) := by
      simp [no]
    rw [polls, exists_last_succ first]
    refine (rest.completed_iff last).trans (exists_congr fun later => ?_)
    rw [shift later]
  · intro e
    have first : ¬ around.answer (poll + 0) = .error e := by simp [no]
    rw [polls, exists_last_succ first]
    refine (rest.failed_iff e).trans (exists_congr fun later => ?_)
    rw [shift later]
  · intro last
    have first : ¬ (last = poll + 0 ∧ ∃ shown : Time,
        (reading :: run.readings)[0]? = some shown ∧ deadline ≤ shown) := by
      simp [early]
    rw [polls, readings, exists_last_succ first]
    refine (rest.expired_iff last).trans (exists_congr fun later => ?_)
    rw [shift later, List.getElem?_cons_succ]
  · rw [polls, readings]
    rintro (- | later)
    · simp [no]
    · rw [shift, Nat.succ_lt_succ_iff]
      exact rest.read_iff later
  · rw [readings, sleeps]
    rintro (- | later) slept
    · simp [early, asked, eq_comm]
    · exact rest.slept_iff later slept
  · rw [readings]
    intro shown recorded
    exact (Option.some.inj recorded).symm.trans read
  · rw [readings, sleeps]
    rintro (- | later) before slept shown earlier taken later
    · cases earlier
      cases taken
      exact rest.first_reading shown later
    · rw [shift]
      exact rest.next_reading _ before slept shown earlier taken later

/-- A poll that ends the loop at once. -/
theorem follows_of_poll {ending : Ending Failure} (other : around.answer poll ≠ .ok false)
    (completed : ∀ last, ending = .completed last ↔
      last = poll ∧ around.answer poll = .ok true)
    (failed : ∀ e, ending = .failed e ↔ around.answer poll = .error e)
    (expired : ∀ last, ending ≠ .expired last) :
    (⟨[.poll (around.answer poll)], some ending⟩ : Run Time Failure).Follows interval deadline
      clock around poll := by
  have polls : (⟨[.poll (around.answer poll)], some ending⟩ : Run Time Failure).polls = 1 := rfl
  have readings : (⟨[.poll (around.answer poll)], some ending⟩ : Run Time Failure).readings = [] :=
    rfl
  have sleeps : (⟨[.poll (around.answer poll)], some ending⟩ : Run Time Failure).sleeps = [] :=
    rfl
  constructor
  · rintro (- | later) answer recorded
    · exact (Option.some.inj recorded).symm
    · cases recorded
  · intro later more
    rw [polls] at more
    omega
  · simp [polls, completed]
  · simp [polls, failed]
  · simp [polls, readings, expired]
  · rw [polls, readings]
    rintro (- | later)
    · simp [other]
    · simp
  · simp [readings, sleeps]
  · simp [readings]
  · simp [readings]

/-- The loop's run is what the thread met. -/
theorem follows (turns : Turns interval deadline around fuel poll clock run) :
    run.Follows interval deadline clock around poll := by
  induction turns with
  | exhausted => constructor <;> simp [Run.answers, Run.readings, Run.sleeps, Run.polls]
  | @fails _ poll _ e raised =>
      rw [← raised]
      apply follows_of_poll <;> simp [raised, eq_comm]
  | completes yes =>
      rw [← yes]
      apply follows_of_poll <;> simp [yes, eq_comm]
  | @expires _ poll clock reading no read late =>
      have readings : (⟨[.poll (.ok false), .clock reading], some (.expired poll)⟩ :
        Run Time Failure).readings = [reading] := rfl
      have sleeps : (⟨[.poll (.ok false), .clock reading], some (.expired poll)⟩ :
        Run Time Failure).sleeps = [] := rfl
      have polls : (⟨[.poll (.ok false), .clock reading], some (.expired poll)⟩ :
        Run Time Failure).polls = 1 := rfl
      constructor
      · rintro (- | later) answer recorded
        · exact (Option.some.inj recorded).symm.trans no.symm
        · cases recorded
      · intro later more
        rw [polls] at more
        omega
      · simp [polls, no]
      · simp [polls, no]
      · simp [polls, readings, late, eq_comm]
      · rw [polls, readings]
        rintro (- | later)
        · simp [no]
        · simp
      · rw [readings, sleeps]
        rintro (- | later) slept
        · simp [late]
        · simp
      · rw [readings]
        intro shown recorded
        exact (Option.some.inj recorded).symm.trans read
      · simp [sleeps]
  | sleeps no read early asked rest ih => exact follows_after no read early asked ih

variable [IsStrictOrderedRing Time]

theorem of_loop (interval deadline : Time) (around : Surroundings Time Failure)
    (fuel poll : Nat) (clock : Time) :
    Turns interval deadline around fuel poll clock
      (loop interval deadline around fuel poll clock) := by
  induction fuel generalizing poll clock with
  | zero => exact .exhausted
  | succ fuel ih =>
      rw [loop]
      split
      · next raised => exact .fails raised
      · next yes => exact .completes yes
      · next no =>
          simp only []
          split
          · next late => exact .expires no rfl (sub_nonpos.mp late)
          · next early =>
              rw [not_le, sub_pos] at early
              exact .sleeps no rfl early rfl (ih (poll + 1) _)

/-! ## Sleeps -/

theorem sleeps_pos (turns : Turns interval deadline around fuel poll clock run)
    (positive : 0 < interval) : ∀ duration ∈ run.sleeps, 0 < duration := by
  induction turns with
  | exhausted | fails | completes | expires => exact fun duration asked => nomatch asked
  | sleeps no read early asked rest ih =>
      intro duration member
      rw [Run.sleeps_after] at member
      rcases List.mem_cons.mp member with rfl | later
      · exact asked ▸ lt_min positive (sub_pos.mpr early)
      · exact ih duration later

/-- The sleeps asked for end at the deadline at the latest. -/
theorem sum_sleeps_le (turns : Turns interval deadline around fuel poll clock run) :
    run.sleeps.sum ≤ max (deadline - clock) 0 := by
  induction turns with
  | exhausted | fails | completes | expires => exact le_max_right _ _
  | @sleeps _ _ clock reading duration run no read early asked rest ih =>
      have forward := around.forward read
      have fits : duration ≤ deadline - reading := asked ▸ min_le_right _ _
      rw [max_eq_left (by linarith)] at ih
      calc
        _ = duration + run.sleeps.sum := by rw [Run.sleeps_after]; rfl
        _ ≤ deadline - reading := by linarith
        _ ≤ max (deadline - clock) 0 := le_max_of_le_left (by linarith)

/-! ## Polls -/

section Polls

variable [FloorSemiring Time]

/-- A sleep uses up one interval of what remains, or all of it. -/
theorem ceil_lt_of_sleep {remaining : Time} (positive : 0 < interval) (left : 0 < remaining) :
    ⌈(remaining - min interval remaining) / interval⌉₊ < ⌈remaining / interval⌉₊ := by
  have some : 0 < ⌈remaining / interval⌉₊ := Nat.ceil_pos.mpr (div_pos left positive)
  have covered : remaining ≤ ⌈remaining / interval⌉₊ * interval :=
    (div_le_iff₀ positive).mp (Nat.le_ceil _)
  obtain ⟨intervals, same⟩ := Nat.exists_eq_succ_of_ne_zero some.ne'
  rw [same, Nat.succ_eq_add_one, Nat.cast_add, Nat.cast_one] at covered
  rw [same, Nat.lt_succ_iff, Nat.ceil_le, div_le_iff₀ positive]
  rcases min_choice interval remaining with isInterval | isRemaining
  · rw [isInterval]
    linarith
  · rw [isRemaining, sub_self]
    exact mul_nonneg (Nat.cast_nonneg intervals) positive.le

theorem ceil_lt_of_turn {reading duration : Time} (positive : 0 < interval)
    (forward : clock ≤ reading) (early : reading < deadline)
    (asked : duration = min interval (deadline - reading)) :
    ⌈(deadline - (reading + duration)) / interval⌉₊ < ⌈(deadline - clock) / interval⌉₊ := by
  rw [← sub_sub, asked]
  apply (ceil_lt_of_sleep positive (sub_pos.mpr early)).trans_le
  exact Nat.ceil_mono (div_le_div_of_nonneg_right (by linarith) positive.le)

theorem polls_le (turns : Turns interval deadline around fuel poll clock run)
    (positive : 0 < interval) : run.polls ≤ ⌈(deadline - clock) / interval⌉₊ + 1 := by
  induction turns with
  | exhausted => exact Nat.zero_le _
  | fails | completes | expires => exact Nat.le_add_left 1 _
  | @sleeps _ _ clock reading duration run no read early asked rest ih =>
      have fewer := ceil_lt_of_turn positive (around.forward read) early asked
      have onePoll : (run.after
          [.poll (.ok false), .clock reading, .sleep duration]).polls = 1 + run.polls :=
        Run.polls_after _ _
      omega

/-- With enough fuel the loop ends. -/
theorem ending_isSome (turns : Turns interval deadline around fuel poll clock run)
    (positive : 0 < interval) (enough : ⌈(deadline - clock) / interval⌉₊ < fuel) :
    run.ending.isSome = true := by
  induction turns with
  | exhausted => cases enough
  | fails | completes | expires => rfl
  | sleeps no read early asked rest ih =>
      have fewer := ceil_lt_of_turn positive (around.forward read) early asked
      exact ih (fewer.trans_le (Nat.le_of_lt_succ enough))

end Polls

/-! ## Bounds -/

/-- Polling until a deadline is bounded. -/
theorem bounded [FloorSemiring Time] {limit : Time}
    (turns : Turns interval (clock + limit) around fuel poll clock run) (positive : 0 < interval)
    (enough : ⌈max limit 0 / interval⌉₊ + 2 ≤ fuel) :
    run.Bounded interval limit (clock + limit) := by
  have remaining : clock + limit - clock = limit := add_sub_cancel_left clock limit
  have within : ⌈(clock + limit - clock) / interval⌉₊ ≤ ⌈max limit 0 / interval⌉₊ := by
    rw [remaining]
    exact Nat.ceil_mono (div_le_div_of_nonneg_right (le_max_left _ _) positive.le)
  constructor
  · exact turns.ending_isSome positive (by omega)
  · exact (turns.polls_le positive).trans (by omega)
  · exact turns.sleeps_pos positive
  · exact remaining ▸ turns.sum_sleeps_le
  · exact turns.completed_of_yes
  · exact fun last => turns.late_of_expired

end Turns

end Library.Polling
