import Straightline.Proofs.Operations

/-!
# What the events of a machine record

The events of a run tell the run step by step. An instruction is announced before it runs, with its
number and the depth of the stack that it finds, and a trap is reported behind the announcement of
the instruction that trapped (`Machine.recorded_run`).

Over any sequence of operations, the events are those of the steps that were tried, in order
(`Operation.events_performAll`). So there are as many announcements as there are tries with an
instruction left, and as many reports of traps as there are steps and runs that answer with a trap.
-/

namespace Straightline

/-- What a log shows of an event: its level and its text. -/
def Event.entry (e : Event) : Level × String := (e.level, e.text)

namespace Machine

/-! ## Announcements -/

/-- The announcements of the first `n` instructions that are left, as `Event.step` events: each has
the number of its instruction, the instruction there, and the depth of the stack just before it
runs. -/
def announcements (m : Machine) (n : Nat) : List Event :=
  ((m.program.toList.drop m.counter).take n).mapIdx fun k i =>
    .step (m.counter + k) i (m.steps k).machine.stack.size

/-- The log entries of the first `n` instructions that are left, written out. -/
def announcementEntries (m : Machine) (n : Nat) : List (Level × String) :=
  ((m.program.toList.drop m.counter).take n).mapIdx fun k i =>
    (.trace, "step pc=" ++ toString (m.counter + k) ++ " instr=" ++ i.text ++
      " depth=" ++ toString (m.steps k).machine.stack.size)

private theorem map_entry_announcements (m : Machine) (n : Nat) :
    (m.announcements n).map Event.entry = m.announcementEntries n := by
  unfold announcements announcementEntries
  rw [List.mapIdx_eq_zipIdx_map, List.mapIdx_eq_zipIdx_map, List.map_map]
  rfl

private theorem length_announcements (m : Machine) (n : Nat) :
    (m.announcements n).length = min n m.remaining := by
  simp [announcements, remaining]

/-- The instructions up to one of the program are all there to be announced. -/
private theorem length_announcements_of_get? {m : Machine} {k : Nat} {i : Instruction}
    (fetched : m.program.get? (m.counter + k) = some i) :
    (m.announcements (k + 1)).length = k + 1 := by
  have inside : ¬ m.program.size ≤ m.counter + k :=
    mt (Program.get?_eq_none_iff m.program (m.counter + k)).mpr (by simp [fetched])
  rw [length_announcements, remaining]
  omega

private theorem drop_of_current? {m : Machine} {i : Instruction} (fetched : m.current? = some i) :
    m.program.toList.drop m.counter = i :: m.program.toList.drop (m.counter + 1) := by
  rw [current?, Program.get?_eq] at fetched
  obtain ⟨below, rfl⟩ := List.getElem?_eq_some_iff.mp fetched
  exact List.drop_eq_getElem_cons below

/-- The next instruction is announced with the stack as it is. -/
private theorem announcements_one {m : Machine} {i : Instruction} (fetched : m.current? = some i) :
    m.announcements 1 = [.step m.counter i m.stack.size] := by
  unfold announcements
  rw [drop_of_current? fetched]
  rfl

/-- After a successful step, the later announcements are those from the machine it leaves. -/
private theorem announcements_succ {m : Machine} {i : Instruction} {s : OperandStack}
    (fetched : m.current? = some i) (outcome : i.eval.outcome m.stack = (.ok (), s)) (n : Nat) :
    m.announcements (n + 1) = .step m.counter i m.stack.size ::
      announcements { m with stack := s, counter := m.counter + 1 } n := by
  -- The depths are found along the steps from `m`, one ahead of those from the next machine.
  have later : ∀ k, (m.steps (k + 1)).machine =
      (steps k { m with stack := s, counter := m.counter + 1 }).machine := by
    intro k
    rw [steps, step_of_ok fetched outcome, Report.andThen_of_ok rfl]
  unfold announcements
  rw [drop_of_current? fetched, List.take_succ_cons, List.mapIdx_cons]
  simp only [later, Nat.add_assoc, Nat.add_comm 1]
  rfl

/-! ## Runs -/

/-- A successful step leaves one instruction less (`Machine.remaining`). -/
theorem remaining_of_current? {m : Machine} {i : Instruction} (fetched : m.current? = some i)
    (s : OperandStack) :
    m.remaining = remaining { m with stack := s, counter := m.counter + 1 } + 1 := by
  have unfinished := unfinished_of_current? fetched
  simp only [isFinished, decide_eq_false_iff_not] at unfinished
  simp only [remaining]
  omega

/-- The events that go with the end of a run from `m`. A run that finishes has made the
`announcements` of all that was left. A run that traps has announced the instructions up to the one
that trapped, and then reports the trap. -/
inductive Recorded (m : Machine) : Except Fault Unit → List Event → Prop where
  | finished : Recorded m (.ok ()) (m.announcements m.remaining)
  | trapped {k : Nat} {i : Instruction} {cause : Trap}
      (fetched : m.program.get? (m.counter + k) = some i) :
      Recorded m (.error (.trap (m.counter + k) i.opcode cause))
        (m.announcements (k + 1) ++ [.trap (m.counter + k) i cause])

/-- The events of the rest of a run behind the announcement of a step that succeeds. -/
theorem Recorded.cons {m : Machine} {i : Instruction} {s : OperandStack}
    {result : Except Fault Unit} {events : List Event} (fetched : m.current? = some i)
    (outcome : i.eval.outcome m.stack = (.ok (), s))
    (h : Recorded { m with stack := s, counter := m.counter + 1 } result events) :
    Recorded m result (.step m.counter i m.stack.size :: events) := by
  cases h with
  | finished =>
    rw [← announcements_succ fetched outcome, ← remaining_of_current? fetched]
    exact .finished
  | @trapped k j cause found =>
    -- The number of the trap stays the same; it is one further from where this run starts.
    have shifted : m.counter + 1 + k = m.counter + (k + 1) := by omega
    rw [← List.cons_append, ← announcements_succ fetched outcome]
    simp only [shifted] at found ⊢
    exact .trapped found

/-- Every run is `Recorded` by its events, by induction on the number of instructions left. -/
theorem recorded_run (m : Machine) : m.Recorded m.run.result m.run.events := by
  -- By the number of instructions left, which a successful step makes one less.
  induction left : m.remaining generalizing m with
  | zero =>
    have finished : m.isFinished = true := by
      simp only [remaining] at left
      simp only [isFinished, decide_eq_true_eq]
      omega
    have none : m.announcements m.remaining = [] := by simp [left, announcements]
    rw [run_of_finished finished, ← none]
    exact .finished
  | succ n ih =>
    rcases m.step_cases with ⟨finished, _⟩ | ⟨i, s, fetched, outcome, stepped⟩ |
      ⟨i, cause, s, fetched, outcome, stepped⟩
    · simp only [remaining] at left
      simp only [isFinished, decide_eq_true_eq] at finished
      omega
    · rw [remaining_of_current? fetched s] at left
      rw [run_of_unfinished (unfinished_of_current? fetched), stepped, Report.andThen_of_ok rfl]
      exact (ih _ (Nat.succ.inj left)).cons fetched outcome
    · rw [run_of_unfinished (unfinished_of_current? fetched), stepped, Report.andThen_of_error rfl]
      -- The trap is at the first instruction that was left.
      have recorded : m.Recorded (.error (.trap (m.counter + 0) i.opcode cause))
          (m.announcements (0 + 1) ++ [.trap (m.counter + 0) i cause]) := .trapped fetched
      rwa [announcements_one fetched] at recorded

end Machine

/-! ## Sequences of operations -/

/-- Whether a step or a run answered that it trapped. -/
def Reply.isTrap : Reply → Bool
  | .fault (.trap ..) => true
  | _ => false

namespace Machine

/-- The events of a series of steps are those of the steps that were tried (`Machine.attempts`). -/
theorem events_steps (m : Machine) (n : Nat) :
    (m.steps n).events = (m.attempts n).flatMap (·.step.events) := by
  induction n generalizing m with
  | zero => rfl
  | succ n ih =>
    rw [steps]
    cases result : m.step.result with
    | error f => simp [Report.andThen_of_error result, attempts_succ_of_error result]
    | ok => simp [Report.andThen_of_ok result, attempts_succ_of_ok result, ih]

/-- A step announces an instruction if there is one. -/
private theorem countP_trace_step (m : Machine) :
    m.step.events.countP (·.level == .trace) = (!m.isFinished).toNat := by
  rcases m.step_cases with ⟨finished, stepped⟩ | ⟨i, s, fetched, _, stepped⟩ |
    ⟨i, cause, s, fetched, _, stepped⟩
  · simp [stepped, finished]
  · simp [stepped, unfinished_of_current? fetched, Event.level]
  · simp [stepped, unfinished_of_current? fetched, Event.level]

/-- A step reports a trap if it answers with one. -/
private theorem countP_debug_step (m : Machine) :
    m.step.events.countP (·.level == .debug) = (Reply.ofRun m.step.result).isTrap.toNat := by
  rcases m.step_cases with ⟨_, stepped⟩ | ⟨i, s, _, _, stepped⟩ | ⟨i, cause, s, _, _, stepped⟩
  · simp [stepped, Reply.ofRun, Reply.isTrap]
  · simp [stepped, Reply.ofRun, Reply.isTrap, Event.level]
  · simp [stepped, Reply.ofRun, Reply.isTrap, Event.level]

/-- A series of steps ends with its first trap, so it reports one at most. -/
private theorem countP_debug_steps (m : Machine) (n : Nat) :
    (m.steps n).events.countP (·.level == .debug) =
      (Reply.ofRun (m.steps n).result).isTrap.toNat := by
  induction n generalizing m with
  | zero => rfl
  | succ n ih =>
    rw [steps]
    cases result : m.step.result with
    | error f =>
      rw [Report.andThen_of_error result]
      exact m.countP_debug_step
    | ok =>
      -- A step that succeeds reports no trap, so all is up to the steps behind it.
      have quiet : m.step.events.countP (·.level == .debug) = 0 := by
        rw [countP_debug_step, result]
        rfl
      rw [Report.andThen_of_ok result, List.countP_append, quiet, Nat.zero_add]
      exact ih _

end Machine

namespace Operation

/-- Whether an operation is a step or a run, and its answer is a trap. -/
def traps : Operation → Response → Bool
  | .call _, _ => false
  | .step, response => response.reply.isTrap
  | .run, response => response.reply.isTrap

theorem events_perform (op : Operation) (m : Machine) :
    (op.perform m).events = (op.attempts m).flatMap (·.step.events) := by
  cases op with
  | call c => rfl
  | step =>
    rw [attempts, List.flatMap_singleton]
    rfl
  | run => exact m.events_steps m.remaining

/-- The events of a sequence are those of the steps that were tried in it (`attemptsAll`), in
order. -/
theorem events_performAll (ops : List Operation) (m : Machine) :
    (performAll ops m).flatMap (·.events) = (attemptsAll ops m).flatMap (·.step.events) := by
  induction ops generalizing m with
  | nil => rfl
  | cons op ops ih =>
    rw [performAll, attemptsAll, List.flatMap_cons, List.flatMap_append, events_perform, ih]

private theorem countP_debug_perform (op : Operation) (m : Machine) :
    (op.perform m).events.countP (·.level == .debug) = (op.traps (op.perform m)).toNat := by
  cases op with
  | call c => rfl
  | step => exact m.countP_debug_step
  | run => exact m.countP_debug_steps m.remaining

/-- In the events of a sequence there is an announcement for each try with an instruction left. -/
theorem countP_trace_performAll (ops : List Operation) (m : Machine) :
    ((performAll ops m).flatMap (·.events)).countP (·.level == .trace) =
      (attemptsAll ops m).countP (!·.isFinished) := by
  rw [events_performAll]
  -- From here on only the tries matter, and not which operations made them.
  generalize attemptsAll ops m = tried
  induction tried with
  | nil => rfl
  | cons first tried ih =>
    rw [List.flatMap_cons, List.countP_append, Machine.countP_trace_step, ih]
    cases finished : first.isFinished with
    | true => simp [finished]
    | false => simp [finished, Nat.add_comm 1]

/-- In the events of a sequence there is a report of a trap for each step and each run that answers
with one (`traps`). -/
theorem countP_debug_performAll (ops : List Operation) (m : Machine) :
    ((performAll ops m).flatMap (·.events)).countP (·.level == .debug) =
      (ops.zip (performAll ops m)).countP fun (op, response) => op.traps response := by
  induction ops generalizing m with
  | nil => rfl
  | cons op ops ih =>
    rw [performAll, List.flatMap_cons, List.countP_append, countP_debug_perform, ih,
      List.zip_cons_cons]
    cases trapped : op.traps (op.perform m) with
    | true => simp [trapped, Nat.add_comm 1]
    | false => simp [trapped]

end Operation

/-! ## The log is exact -/

namespace Machine

/-- The events of a machine record what it does, neither more nor less.

- A run that succeeds has announced the instructions from the counter to the end, in order, each at
  level `trace` with its number, its text and the depth of the stack just before it; nothing else.
- A run that traps has announced the instructions from the counter to the one that trapped. One
  event follows, at level `debug`, with the number and the text of that instruction and the wording
  of the trap that the run returns.
- A run ends in no other way.
- A step with no instruction left and calls on the machine as an operand store have no event.
- So over a sequence of operations (`Operation.performAll`) there is an announcement for each step
  that was tried with an instruction left, and a report of a trap for each trap that a step or a run
  returned. -/
theorem events_record_execution (m : Machine) (ops : List Operation) :
    let events := (Operation.performAll ops m).flatMap (·.events)
    (m.run.result = .ok () →
      m.run.events = m.announcements (m.program.size - m.counter) ∧
      m.run.events.map Event.entry = m.announcementEntries (m.program.size - m.counter) ∧
      m.run.events.length = m.program.size - m.counter) ∧
    (∀ index opcode cause, m.run.result = .error (.trap index opcode cause) →
      ∃ i, m.program.get? index = some i ∧ i.opcode = opcode ∧ m.counter ≤ index ∧
        m.run.events = m.announcements (index - m.counter + 1) ++ [.trap index i cause] ∧
        m.run.events.map Event.entry = m.announcementEntries (index - m.counter + 1) ++
          [(.debug, "trap pc=" ++ toString index ++ " instr=" ++ i.text ++
            " error=" ++ cause.message)] ∧
        m.run.events.length = (index - m.counter + 1) + 1) ∧
    (∀ counter size, m.run.result ≠ .error (.outOfRange counter size)) ∧
    (m.isFinished = true → m.step.events = []) ∧
    (∀ c, ((Operation.call c).perform m).events = []) ∧
    events.countP (·.level == .trace) = (Operation.attemptsAll ops m).countP (!·.isFinished) ∧
    events.countP (·.level == .debug) =
      (ops.zip (Operation.performAll ops m)).countP fun (op, response) => op.traps response := by
  intro events
  have recorded := m.recorded_run
  refine ⟨?_, ?_, ?_, ?_, fun c => rfl, Operation.countP_trace_performAll ops m,
    Operation.countP_debug_performAll ops m⟩
  · intro ok
    rw [ok] at recorded
    generalize m.run.events = events at recorded ⊢
    cases recorded
    refine ⟨rfl, m.map_entry_announcements _, ?_⟩
    simp [length_announcements, remaining]
  · intro index opcode cause failed
    rw [failed] at recorded
    generalize m.run.events = events at recorded ⊢
    cases recorded with
    | @trapped k i cause fetched =>
      have steps : m.counter + k - m.counter = k := Nat.add_sub_cancel_left ..
      refine ⟨i, fetched, rfl, Nat.le_add_right .., ?_⟩
      rw [steps]
      refine ⟨rfl, ?_, ?_⟩
      · rw [List.map_append, map_entry_announcements]
        rfl
      · rw [List.length_append, length_announcements_of_get? fetched]
        rfl
  · intro counter size outside
    rw [outside] at recorded
    cases recorded
  · intro finished
    rw [step_of_none ((current?_eq_none_iff m).mpr finished)]

/-- A run in the middle of a program that divides by zero. The batch of instructions that follows
traps as well but is no step of the machine; the last step tries the division again. -/
theorem events_record_execution_division :
    let m : Machine :=
      ⟨.ofList [.nop, .const 0, .operator .div, .drop], .ofList [.i32 5, .i32 7], 1⟩
    let ops : List Operation := [.run, .call (.runAll [.drop, .drop]), .step]
    m.run.result = .error (.trap 2 (.operator .div) .divisionByZero) ∧
      m.run.events = [.step 1 (.const 0) 2, .step 2 (.operator .div) 3,
        .trap 2 (.operator .div) .divisionByZero] ∧
      ((Operation.performAll ops m).flatMap (·.events)).countP (·.level == .trace) = 3 ∧
      ((Operation.performAll ops m).flatMap (·.events)).countP (·.level == .debug) = 2 := by
  intro m ops
  obtain ⟨_, trapped, _, _, _, announced, reported⟩ := events_record_execution m ops
  have failed : m.run.result = .error (.trap 2 (.operator .div) .divisionByZero) := by rfl
  obtain ⟨i, fetched, _, _, events, _⟩ := trapped _ _ _ failed
  cases fetched
  have first : m.announcements 2 = [.step 1 (.const 0) 2, .step 2 (.operator .div) 3] := by decide
  have tries : (Operation.attemptsAll ops m).countP (!·.isFinished) = 3 := by decide
  have traps : ((ops.zip (Operation.performAll ops m)).countP
      fun (op, response) => op.traps response) = 2 := by decide
  refine ⟨failed, ?_, announced.trans tries, reported.trans traps⟩
  rw [events]
  exact congrArg (· ++ [Event.trap 2 (.operator .div) .divisionByZero]) first

end Machine

end Straightline
