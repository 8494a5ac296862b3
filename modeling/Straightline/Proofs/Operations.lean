import Straightline.Machine.Operation
import Straightline.Proofs.Refinement

/-!
# Sequences of operations

A machine can be used in any order: as an operand store, step by step, or by whole runs, and any of
these may fail. Whatever is done, the counter is the number of steps that succeeded so far, those
inside runs included. The steps are counted apart from the counter: `Machine.attempts` and
`Operation.attemptsAll` list the machines on which a step was tried.

`Counts p n m` is the invariant: `m` runs `p` and stands behind its first `n` instructions. One
operation keeps it (`Counts.perform`), and so does a sequence (`Counts.after`).
-/

namespace Straightline

/-! ## Steps that are tried -/

namespace Machine

/-- The machines on which a step is tried when `n` steps are taken: `m` itself, and then each
machine that a successful step leaves. -/
def attempts : Nat → Machine → List Machine
  | 0, _ => []
  | n + 1, m =>
    match m.step.result with
    | .ok () => m :: attempts n m.step.machine
    | .error _ => [m]

/-- Whether a `step` from here succeeds. -/
def advances (m : Machine) : Bool := m.step.result.isOk

theorem attempts_succ_of_ok {m : Machine} (h : m.step.result = .ok ()) (n : Nat) :
    m.attempts (n + 1) = m :: m.step.machine.attempts n := by
  rw [attempts, h]

theorem attempts_succ_of_error {m : Machine} {f : Fault} (h : m.step.result = .error f) (n : Nat) :
    m.attempts (n + 1) = [m] := by
  rw [attempts, h]

private theorem advances_of_ok {m : Machine} (h : m.step.result = .ok ()) : m.advances = true := by
  rw [advances, h]
  rfl

private theorem advances_of_error {m : Machine} {f : Fault} (h : m.step.result = .error f) :
    m.advances = false := by
  rw [advances, h]
  rfl

private theorem ok_of_advances {m : Machine} (h : m.advances = true) : m.step.result = .ok () := by
  cases result : m.step.result with
  | ok => rfl
  | error f =>
    rw [advances_of_error result] at h
    cases h

end Machine

namespace Operation

/-- The machines on which an operation tries a step. A run tries one as long as an instruction is
left and none has failed. -/
def attempts : Operation → Machine → List Machine
  | .call _, _ => []
  | .step, m => [m]
  | .run, m => m.attempts m.remaining

/-- The machines on which a sequence of operations tries a step, each operation starting from the
machine that the one before it leaves. -/
def attemptsAll : List Operation → Machine → List Machine
  | [], _ => []
  | op :: ops, m => op.attempts m ++ attemptsAll ops (op.perform m).machine

/-- The machine after a sequence of operations, whatever each of them answers. -/
def after (ops : List Operation) (m : Machine) : Machine :=
  ops.foldl (fun m op => (op.perform m).machine) m

@[simp]
theorem after_nil (m : Machine) : after [] m = m := rfl

@[simp]
theorem after_cons (op : Operation) (ops : List Operation) (m : Machine) :
    after (op :: ops) m = after ops (op.perform m).machine := rfl

/-- The answers to a sequence of operations can be collected in two parts. -/
theorem performAll_append (ops later : List Operation) (m : Machine) :
    performAll (ops ++ later) m = performAll ops m ++ performAll later (after ops m) := by
  induction ops generalizing m with
  | nil => rfl
  | cons op ops ih => simp [performAll, ih]

end Operation

/-! ## The machine as an operand store -/

/-- A call on the machine as an operand store changes nothing but the stack. -/
theorem Call.perform_machine (c : Call) (m : Machine) :
    ∃ s, (c.perform m).2 = { m with stack := s } := by
  cases c with
  | push v => exact ⟨m.stack.push v, rfl⟩
  | peek => exact ⟨m.stack, rfl⟩
  | pop =>
    refine ⟨(OperandStack.pop.outcome m.stack).2, ?_⟩
    simp [perform, OperandStore.pop, Machine.onStack]
  | popTyped t =>
    refine ⟨((OperandStack.popTyped t).outcome m.stack).2, ?_⟩
    simp [perform, OperandStore.popTyped, Machine.onStack]
  | eval i =>
    refine ⟨(i.eval.outcome m.stack).2, ?_⟩
    simp only [perform, Machine.outcome_eval]
    rfl
  | runAll is =>
    refine ⟨(Straightline.runAll is m.stack).2, ?_⟩
    simp only [perform, Machine.runAll_eq]
    rfl

/-! ## The invariant -/

/-- The invariant of a machine in use: it runs `p` and stands behind its first `n` instructions. -/
structure Counts (p : Program) (n : Nat) (m : Machine) : Prop where
  program : m.program = p
  counter : m.counter = n
  inside : n ≤ p.size

namespace Counts

variable {p : Program} {n : Nat} {m : Machine}

theorem load (p : Program) : Counts p 0 (Machine.load p) :=
  ⟨rfl, rfl, Nat.zero_le _⟩

/-- Under the invariant, the machine is finished exactly at the end of the program. -/
theorem isFinished_iff (h : Counts p n m) : m.isFinished = true ↔ n = p.size := by
  have inside := h.inside
  simp only [Machine.isFinished, h.program, h.counter, decide_eq_true_eq]
  omega

private theorem withStack (h : Counts p n m) (s : OperandStack) :
    Counts p n { m with stack := s } :=
  ⟨h.program, h.counter, h.inside⟩

/-- A successful step starts inside the program. -/
private theorem lt_of_ok (h : Counts p n m) (ok : m.step.result = .ok ()) : n < p.size := by
  obtain ⟨i, _, fetched, _, _⟩ := Machine.of_step_ok ok
  have unfinished : m.isFinished = false := Machine.unfinished_of_current? fetched
  simpa [Machine.isFinished, h.program, h.counter] using unfinished

/-- A successful step is counted. -/
theorem step_of_ok (h : Counts p n m) (ok : m.step.result = .ok ()) :
    Counts p (n + 1) m.step.machine := by
  have below := h.lt_of_ok ok
  obtain ⟨i, s, _, _, stepped⟩ := Machine.of_step_ok ok
  rw [stepped]
  exact ⟨h.program, congrArg (· + 1) h.counter, below⟩

/-- A step that fails is not counted. -/
private theorem step_of_error (h : Counts p n m) {f : Fault} (failed : m.step.result = .error f) :
    Counts p n m.step.machine := by
  rcases m.step_cases with ⟨_, stepped⟩ | ⟨i, s, _, _, stepped⟩ | ⟨i, cause, s, _, _, stepped⟩
  · rw [stepped]
    exact h
  · rw [stepped] at failed
    cases failed
  · rw [stepped]
    exact h.withStack s

/-- Several steps count those that succeed: the machines among the `attempts` that advance. -/
theorem steps (h : Counts p n m) (k : Nat) :
    Counts p (n + (m.attempts k).countP (·.advances)) (m.steps k).machine := by
  induction k generalizing n m with
  | zero => exact h
  | succ k ih =>
    rw [Machine.steps]
    cases result : m.step.result with
    | error f =>
      -- The first step fails and ends the series.
      rw [Report.andThen_of_error result, Machine.attempts_succ_of_error result]
      have uncounted : [m].countP (·.advances) = 0 := by
        simp [Machine.advances_of_error result]
      rw [uncounted]
      exact h.step_of_error result
    | ok =>
      have rest := ih (h.step_of_ok result)
      rw [Report.andThen_of_ok result, Machine.attempts_succ_of_ok result,
        List.countP_cons_of_pos (Machine.advances_of_ok result), Nat.add_comm _ 1, ← Nat.add_assoc]
      exact rest

/-- Wherever a series of steps tries one, the machine is one that the invariant holds of. -/
private theorem of_mem_attempts (h : Counts p n m) {k : Nat} {tried : Machine}
    (inside : tried ∈ m.attempts k) : ∃ n', Counts p n' tried := by
  induction k generalizing n m with
  | zero => cases inside
  | succ k ih =>
    cases result : m.step.result with
    | error f =>
      rw [Machine.attempts_succ_of_error result, List.mem_singleton] at inside
      exact ⟨n, inside ▸ h⟩
    | ok =>
      rw [Machine.attempts_succ_of_ok result, List.mem_cons] at inside
      rcases inside with rfl | later
      · exact ⟨n, h⟩
      · exact ih (h.step_of_ok result) later

/-! ### Operations -/

/-- An operation counts the steps in it that succeed. A call makes none, a run makes as many as it
can. -/
theorem perform (h : Counts p n m) (op : Operation) :
    Counts p (n + (op.attempts m).countP (·.advances)) (op.perform m).machine := by
  cases op with
  | call c =>
    obtain ⟨s, changed⟩ := c.perform_machine m
    have after : ((Operation.call c).perform m).machine = { m with stack := s } := changed
    rw [after]
    exact h.withStack s
  | step =>
    -- A single step is a series of one.
    have single := h.steps 1
    cases result : m.step.result with
    | error f =>
      rw [Machine.attempts_succ_of_error result, Machine.steps, Report.andThen_of_error result]
        at single
      exact single
    | ok =>
      rw [Machine.attempts_succ_of_ok result, Machine.steps, Report.andThen_of_ok result] at single
      exact single
  | run => exact h.steps m.remaining

/-- A sequence of operations counts the steps in it that succeed, by induction over the sequence. -/
theorem after (h : Counts p n m) (ops : List Operation) :
    Counts p (n + (Operation.attemptsAll ops m).countP (·.advances)) (Operation.after ops m) := by
  induction ops generalizing n m with
  | nil => exact h
  | cons op ops ih =>
    have rest := ih (h.perform op)
    rw [Operation.attemptsAll, List.countP_append, ← Nat.add_assoc]
    exact rest

private theorem of_mem_attemptsAll (h : Counts p n m) {ops : List Operation} {tried : Machine}
    (inside : tried ∈ Operation.attemptsAll ops m) : ∃ n', Counts p n' tried := by
  induction ops generalizing n m with
  | nil => cases inside
  | cons op ops ih =>
    rw [Operation.attemptsAll, List.mem_append] at inside
    rcases inside with here | later
    · cases op with
      | call c => cases here
      | step =>
        rw [Operation.attempts, List.mem_singleton] at here
        exact ⟨n, here ▸ h⟩
      | run => exact h.of_mem_attempts here
    · exact ih (h.perform op) later

end Counts

/-! ## What the counter says -/

namespace Operation

/-- A step answers `outOfRange` exactly when no instruction is left, with the size of the program
for both of its numbers. -/
theorem step_reply_eq_outOfRange_iff {p : Program} {n : Nat} {m : Machine} (h : Counts p n m)
    (counter size : Nat) :
    (step.perform m).reply = .fault (.outOfRange counter size) ↔
      n = p.size ∧ counter = p.size ∧ size = p.size := by
  rw [← h.isFinished_iff]
  -- Of the three ways that a step can go, only the first has this answer.
  rcases m.step_cases with ⟨finished, stepped⟩ | ⟨i, s, fetched, _, stepped⟩ |
    ⟨i, cause, s, fetched, _, stepped⟩
  · have atEnd : n = p.size := h.isFinished_iff.mp finished
    simp [perform, Response.ofReport, Reply.ofRun, stepped, finished, h.counter, h.program, atEnd,
      eq_comm]
  · simp [perform, Response.ofReport, Reply.ofRun, stepped, Machine.unfinished_of_current? fetched]
  · simp [perform, Response.ofReport, Reply.ofRun, stepped, Machine.unfinished_of_current? fetched]

/-- A step that answers `outOfRange` leaves the machine as it is. -/
theorem step_machine_of_outOfRange {m : Machine} {counter size : Nat}
    (outside : (step.perform m).reply = .fault (.outOfRange counter size)) :
    (step.perform m).machine = m := by
  rcases m.step_cases with ⟨_, stepped⟩ | ⟨i, s, _, _, stepped⟩ | ⟨i, cause, s, _, _, stepped⟩
  · show m.step.machine = m
    rw [stepped]
  · simp [perform, Response.ofReport, Reply.ofRun, stepped] at outside
  · simp [perform, Response.ofReport, Reply.ofRun, stepped] at outside

/-- A step moves the counter by one if it answers `done`, and not at all otherwise. -/
theorem step_counter (m : Machine) :
    ((step.perform m).reply = .done ∧ (step.perform m).machine.counter = m.counter + 1) ∨
      ((step.perform m).reply ≠ .done ∧ (step.perform m).machine.counter = m.counter) := by
  rcases m.step_cases with ⟨_, stepped⟩ | ⟨i, s, _, _, stepped⟩ | ⟨i, cause, s, _, _, stepped⟩
  · simp [perform, Response.ofReport, Reply.ofRun, stepped]
  · simp [perform, Response.ofReport, Reply.ofRun, stepped]
  · simp [perform, Response.ofReport, Reply.ofRun, stepped]

/-- The counter of a machine counts its successful steps, whatever is done with the machine. Take
any sequence of operations on a fresh machine (`Machine.load`) and one more behind it, where any of
them may fail.

- After that operation the machine still has its program, the counter is not beyond the end, the
  machine is finished exactly if the counter is at the end, and the counter is the number of steps
  that succeeded so far (`attemptsAll`), those inside runs included. No successful step led beyond
  the end.
- Calls on the machine as an operand store leave the counter as it is.
- A step moves the counter by exactly one if it succeeds, and leaves it if not.
- A step finds the counter out of range exactly when the counter is at the end. It says so with the
  size of the program, and leaves the machine as it is. -/
theorem counter_eq_successful_steps (p : Program) (ops : List Operation) (op : Operation) :
    let before := after ops (Machine.load p)
    let response := op.perform before
    let tried := attemptsAll (ops ++ [op]) (Machine.load p)
    performAll (ops ++ [op]) (Machine.load p) = performAll ops (Machine.load p) ++ [response] ∧
    (response.machine.program = p ∧
      response.machine.counter ≤ p.size ∧
      (response.machine.isFinished = true ↔ response.machine.counter = p.size) ∧
      response.machine.counter = tried.countP (·.advances) ∧
      ∀ m ∈ tried, m.advances = true → m.counter + 1 ≤ p.size) ∧
    (∀ c, op = .call c → response.machine.counter = before.counter) ∧
    (op = .step →
      (response.reply = .done ↔ response.machine.counter = before.counter + 1) ∧
      (response.reply ≠ .done → response.machine.counter = before.counter) ∧
      ((∃ counter size, response.reply = .fault (.outOfRange counter size)) ↔
        before.counter = p.size) ∧
      ∀ counter size, response.reply = .fault (.outOfRange counter size) →
        counter = p.size ∧ size = p.size ∧ response.machine = before) := by
  intro before response tried
  -- The invariant, before the last operation and after it.
  have found : Counts p _ before := (Counts.load p).after ops
  have left : Counts p (tried.countP (·.advances)) response.machine := by
    have counted := (Counts.load p).after (ops ++ [op])
    rw [Nat.zero_add] at counted
    simpa [after, response, before] using counted
  refine ⟨?_, ⟨left.program, ?_, ?_, left.counter, ?_⟩, ?_, ?_⟩
  · rw [performAll_append]
    rfl
  · rw [left.counter]
    exact left.inside
  · rw [left.isFinished_iff, left.counter]
  · intro m inside advances
    obtain ⟨n, counts⟩ := (Counts.load p).of_mem_attemptsAll inside
    rw [counts.counter]
    exact counts.lt_of_ok (Machine.ok_of_advances advances)
  · rintro c rfl
    obtain ⟨s, changed⟩ := c.perform_machine before
    show (c.perform before).2.counter = before.counter
    rw [changed]
  · rintro rfl
    have range := step_reply_eq_outOfRange_iff found
    refine ⟨?_, ?_, ?_, ?_⟩
    · rcases step_counter before with ⟨done, moved⟩ | ⟨failed, kept⟩
      · simp [response, done, moved]
      · simp [response, failed, kept]
    · intro failed
      rcases step_counter before with ⟨done, _⟩ | ⟨_, kept⟩
      · exact absurd done failed
      · exact kept
    · rw [found.counter]
      simp [response, range]
    · intro counter size outside
      obtain ⟨_, atCounter, atSize⟩ := (range counter size).mp outside
      exact ⟨atCounter, atSize, step_machine_of_outOfRange outside⟩

/-- A run that traps, an operand that mends it, the step that failed before, and a step too many: of
the five steps that are tried three succeed. -/
theorem counter_eq_successful_steps_mended :
    let p : Program := .ofList [.const 7, .drop, .drop]
    let ops : List Operation := [.run, .call (.push (.i32 5)), .step]
    let final := after (ops ++ [.step]) (Machine.load p)
    (performAll (ops ++ [.step]) (Machine.load p)).map (·.reply) =
        [.fault (.trap 2 .drop .stackUnderflow), .done, .done, .fault (.outOfRange 3 3)] ∧
      (attemptsAll (ops ++ [.step]) (Machine.load p)).length = 5 ∧
      (attemptsAll (ops ++ [.step]) (Machine.load p)).countP (·.advances) = 3 ∧
      final.isFinished = true ∧ final = after ops (Machine.load p) := by
  intro p ops final
  obtain ⟨_, ⟨_, _, finished, counted, _⟩, _, stepped⟩ := counter_eq_successful_steps p ops .step
  obtain ⟨_, _, _, outside⟩ := stepped rfl
  have counter : (step.perform (after ops (Machine.load p))).machine.counter = 3 := by decide
  have reply : (step.perform (after ops (Machine.load p))).reply = .fault (.outOfRange 3 3) := by
    decide
  refine ⟨by decide, by decide, ?_, ?_, ?_⟩
  · rw [← counted, counter]
  · exact finished.mpr counter
  · exact (outside 3 3 reply).2.2

end Operation

end Straightline
