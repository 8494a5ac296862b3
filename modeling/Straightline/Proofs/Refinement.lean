import Straightline.Proofs.Evaluation

/-!
# Stepping and batch runs

A machine runs its program by a counter, one step at a time; a batch run goes through a list. The
run of a machine from any counter and any stack is the batch run of the instructions that are left
(`Machine.agrees_run_of_drop`), and stepping first changes nothing about how a run ends
(`Machine.run_after_steps`).
-/

namespace Straightline

/-! ## Batch runs -/

namespace Fault

/-- The fault as seen `offset` instructions earlier: its index is counted from there. -/
def shift (offset : Nat) : Fault → Fault
  | .trap index opcode cause => .trap (offset + index) opcode cause
  | .outOfRange counter size => .outOfRange counter size

end Fault

section Batch

variable {σ : Type} [OperandStore σ]

/-- Where the numbering of the instructions starts shows in the index of a fault only. -/
private theorem runFrom_add (offset index : Nat) (is : List Instruction) (s : σ) :
    runFrom (offset + index) is s =
      ((runFrom index is s).1.mapError (·.shift offset), (runFrom index is s).2) := by
  induction is generalizing index s with
  | nil => rfl
  | cons i is ih =>
    simp only [runFrom]
    split
    · exact ih (index + 1) _
    · rfl

private theorem runFrom_eq_runAll (offset : Nat) (is : List Instruction) (s : σ) :
    runFrom offset is s =
      ((runAll is s).1.mapError (·.shift offset), (runAll is s).2) :=
  runFrom_add offset 0 is s

/-- Behind an instruction that succeeds, a run goes on with the stack it leaves, and the index of a
fault counts one more. -/
theorem runAll_cons_ok {i : Instruction} {s t : σ} (h : i.eval.outcome s = (.ok (), t))
    (is : List Instruction) :
    runAll (i :: is) s = ((runAll is t).1.mapError (·.shift 1), (runAll is t).2) := by
  rw [← runFrom_eq_runAll, runAll, runFrom, h]

/-- An instruction that traps ends the run, at index zero and with the stack it leaves. -/
theorem runAll_cons_trap {i : Instruction} {cause : Trap} {s t : σ}
    (h : i.eval.outcome s = (.error cause, t)) (is : List Instruction) :
    runAll (i :: is) s = (.error (.trap 0 i.opcode cause), t) := by
  rw [runAll, runFrom, h]

/-- A concatenation runs its second part from where the first one ends, unless that is a fault. -/
private theorem runFrom_append (index : Nat) (is js : List Instruction) (s : σ) :
    runFrom index (is ++ js) s =
      match runFrom index is s with
      | (.ok (), t) => runFrom (index + is.length) js t
      | (.error f, t) => (.error f, t) := by
  induction is generalizing index s with
  | nil => rfl
  | cons i is ih =>
    simp only [List.cons_append, runFrom]
    rcases i.eval.outcome s with ⟨cause | _, t⟩
    · rfl
    · simp only [ih, List.length_cons, Nat.add_assoc, Nat.add_comm 1]

/-- Behind a part that succeeds, a run goes on with the stack it leaves, and the index of a fault
counts the instructions of that part too. -/
theorem runAll_append_of_ok {is : List Instruction} {s t : σ} (h : runAll is s = (.ok (), t))
    (js : List Instruction) :
    runAll (is ++ js) s =
      ((runAll js t).1.mapError (·.shift is.length), (runAll js t).2) := by
  rw [runAll] at h
  rw [runAll, runFrom_append, h, ← runFrom_eq_runAll, Nat.zero_add]

/-- A part that ends in a fault ends the run, whatever is behind it. -/
theorem runAll_append_of_error {is : List Instruction} {s t : σ} {f : Fault}
    (h : runAll is s = (.error f, t)) (js : List Instruction) :
    runAll (is ++ js) s = (.error f, t) := by
  rw [runAll] at h
  rw [runAll, runFrom_append, h]

end Batch

/-! ## Steps -/

namespace Report

theorem andThen_of_ok {r : Report} (h : r.result = .ok ()) (next : Machine → Report) :
    r.andThen next =
      { next r.machine with events := r.events ++ (next r.machine).events } := by
  simp [andThen, h]

theorem andThen_of_error {r : Report} {f : Fault} (h : r.result = .error f)
    (next : Machine → Report) : r.andThen next = r := by
  simp [andThen, h]

end Report

namespace Machine

/-- A step whose instruction succeeds moves on by one, with the stack the instruction leaves. -/
theorem step_of_ok {m : Machine} {i : Instruction} {s : OperandStack}
    (fetched : m.current? = some i) (h : i.eval.outcome m.stack = (.ok (), s)) :
    m.step = ⟨.ok (), { m with stack := s, counter := m.counter + 1 },
      [.step m.counter i m.stack.size]⟩ := by
  simp only [step, fetched, outcome_eval, h]

/-- A step whose instruction traps stays where it is, with the stack the instruction leaves. The
fault has the counter for its index. -/
theorem step_of_trap {m : Machine} {i : Instruction} {cause : Trap} {s : OperandStack}
    (fetched : m.current? = some i) (h : i.eval.outcome m.stack = (.error cause, s)) :
    m.step = ⟨.error (.trap m.counter i.opcode cause), { m with stack := s },
      [.step m.counter i m.stack.size, .trap m.counter i cause]⟩ := by
  simp only [step, fetched, outcome_eval, h]

/-- A step with no instruction left is `outOfRange`, and the machine stays as it is. -/
theorem step_of_none {m : Machine} (h : m.current? = none) :
    m.step = ⟨.error (.outOfRange m.counter m.program.size), m, []⟩ := by
  simp only [step, h]

theorem current?_eq_none_iff (m : Machine) : m.current? = none ↔ m.isFinished = true := by
  simp [current?, isFinished, Program.get?_eq_none_iff]

theorem unfinished_of_current? {m : Machine} {i : Instruction} (h : m.current? = some i) :
    m.isFinished = false := by
  rw [← Bool.not_eq_true, ← current?_eq_none_iff, h]
  simp

/-- All that `step` can do: no instruction is left, or the next one succeeds, or it traps. -/
theorem step_cases (m : Machine) :
    (m.isFinished = true ∧ m.step = ⟨.error (.outOfRange m.counter m.program.size), m, []⟩) ∨
    (∃ i s, m.current? = some i ∧ i.eval.outcome m.stack = (.ok (), s) ∧
      m.step = ⟨.ok (), { m with stack := s, counter := m.counter + 1 },
        [.step m.counter i m.stack.size]⟩) ∨
    (∃ i cause s, m.current? = some i ∧ i.eval.outcome m.stack = (.error cause, s) ∧
      m.step = ⟨.error (.trap m.counter i.opcode cause), { m with stack := s },
        [.step m.counter i m.stack.size, .trap m.counter i cause]⟩) := by
  cases fetched : m.current? with
  | none => exact .inl ⟨(current?_eq_none_iff m).mp fetched, step_of_none fetched⟩
  | some i =>
    rcases outcome : i.eval.outcome m.stack with ⟨cause | _, s⟩
    · exact .inr (.inr ⟨i, cause, s, rfl, outcome, step_of_trap fetched outcome⟩)
    · exact .inr (.inl ⟨i, s, rfl, outcome, step_of_ok fetched outcome⟩)

/-- All that a successful `step` can be. -/
theorem of_step_ok {m : Machine} (h : m.step.result = .ok ()) :
    ∃ i s, m.current? = some i ∧ i.eval.outcome m.stack = (.ok (), s) ∧
      m.step = ⟨.ok (), { m with stack := s, counter := m.counter + 1 },
        [.step m.counter i m.stack.size]⟩ := by
  rcases m.step_cases with ⟨_, stepped⟩ | moved | ⟨i, cause, s, _, _, stepped⟩
  · rw [stepped] at h
    cases h
  · exact moved
  · rw [stepped] at h
    cases h

/-! ## The loop of a run -/

theorem run_of_finished {m : Machine} (h : m.isFinished = true) : m.run = ⟨.ok (), m, []⟩ := by
  have none : m.remaining = 0 := by
    simp only [isFinished, decide_eq_true_eq] at h
    simp [remaining, h]
  rw [run, none]
  rfl

/-- `run` on a machine that is not finished takes a `step` and goes on from there. -/
theorem run_of_unfinished {m : Machine} (h : m.isFinished = false) :
    m.run = m.step.andThen run := by
  have left : m.remaining = (m.program.size - (m.counter + 1)) + 1 := by
    simp only [isFinished, decide_eq_false_iff_not] at h
    simp only [remaining]
    omega
  rw [run, left, steps]
  cases result : m.step.result with
  | error f => rw [Report.andThen_of_error result, Report.andThen_of_error result]
  | ok =>
    -- After the step, the steps still to take are those the new counter leaves.
    obtain ⟨i, s, _, _, stepped⟩ := of_step_ok result
    rw [Report.andThen_of_ok result, Report.andThen_of_ok result, stepped]
    rfl

/-! ## A run is the batch run of the rest -/

/-- How a batch run and a report from `m` go together. Both succeed, and the counter is at the end;
or both trap for the same cause, the report counts from the start of the program, and the counter is
on the instruction that trapped. The stacks are the same, and the program is untouched. -/
inductive Agrees (m : Machine) : Except Fault Unit × OperandStack → Report → Prop where
  | finished {s : OperandStack} {events : List Event} :
      Agrees m (.ok (), s)
        ⟨.ok (), { m with stack := s, counter := m.program.size }, events⟩
  | trapped {index : Nat} {opcode : Opcode} {cause : Trap} {s : OperandStack}
      {events : List Event} :
      Agrees m (.error (.trap index opcode cause), s)
        ⟨.error (.trap (m.counter + index) opcode cause),
          { m with stack := s, counter := m.counter + index }, events⟩

/-- The first instruction that is left is the current one, and the others are left behind it. -/
theorem current?_of_drop {m : Machine} {i : Instruction} {is : List Instruction}
    (rest : m.program.toList.drop m.counter = i :: is) :
    m.current? = some i ∧ m.program.toList.drop (m.counter + 1) = is := by
  constructor
  · rw [current?, Program.get?_eq, ← List.head?_drop, rest]
    rfl
  · rw [← List.tail_drop, rest]
    rfl

/-- What is known of the rest of a run after a successful step carries over to the whole. -/
theorem Agrees.cons {m : Machine} {s : OperandStack} {batch : Except Fault Unit × OperandStack}
    {r : Report}
    (h : Agrees { m with stack := s, counter := m.counter + 1 } batch r)
    (events : List Event) :
    Agrees m (batch.1.mapError (·.shift 1), batch.2) { r with events } := by
  cases h with
  | finished => exact .finished
  | @trapped index opcode cause t _ =>
    show Agrees m (.error (.trap (1 + index) opcode cause), t)
      ⟨.error (.trap (m.counter + 1 + index) opcode cause),
        { m with stack := t, counter := m.counter + 1 + index }, events⟩
    rw [Nat.add_assoc]
    exact .trapped

/-- `run` agrees with `runAll` on the instructions that are left. The induction is on these, for
every counter and stack. -/
theorem agrees_run_of_drop {m : Machine} {is : List Instruction}
    (rest : m.program.toList.drop m.counter = is) (inside : m.counter ≤ m.program.size) :
    m.Agrees (runAll is m.stack) m.run := by
  induction is generalizing m with
  | nil =>
    -- Nothing is left, so the counter is at the end already.
    have atEnd : m.program.size ≤ m.counter := List.drop_eq_nil_iff.mp rest
    have final : m.Agrees (.ok (), m.stack)
        ⟨.ok (), { m with counter := m.program.size }, []⟩ := .finished
    rw [← Nat.le_antisymm inside atEnd] at final
    rw [run_of_finished (by simpa [isFinished] using atEnd)]
    exact final
  | cons i is ih =>
    obtain ⟨fetched, tail⟩ := current?_of_drop rest
    have unfinished : m.isFinished = false := unfinished_of_current? fetched
    have below : m.counter < m.program.size := by simpa [isFinished] using unfinished
    rw [run_of_unfinished unfinished]
    rcases outcome : i.eval.outcome m.stack with ⟨cause | _, s⟩
    · -- The instruction traps: this is where both runs end.
      rw [runAll_cons_trap outcome, step_of_trap fetched outcome, Report.andThen_of_error rfl]
      exact .trapped
    · -- The instruction succeeds: the rest of the run starts one further.
      let next : Machine := { m with stack := s, counter := m.counter + 1 }
      have after : next.Agrees (runAll is s) next.run := ih tail below
      rw [runAll_cons_ok outcome, step_of_ok fetched outcome, Report.andThen_of_ok rfl]
      exact after.cons _

/-- Steps that succeed are the beginning of the run: it ends the same from where they lead. -/
theorem run_after_steps {m : Machine} {k : Nat} (h : (m.steps k).result = .ok ()) :
    (m.steps k).machine.run.result = m.run.result ∧
      (m.steps k).machine.run.machine = m.run.machine := by
  induction k generalizing m with
  | zero => exact ⟨rfl, rfl⟩
  | succ k ih =>
    rw [steps] at h ⊢
    cases first : m.step.result with
    | error f =>
      rw [Report.andThen_of_error first, first] at h
      cases h
    | ok =>
      -- The run from `m` starts with the same step, and the induction takes over after it.
      obtain ⟨i, s, fetched, _, _⟩ := of_step_ok first
      rw [Report.andThen_of_ok first] at h ⊢
      rw [run_of_unfinished (unfinished_of_current? fetched), Report.andThen_of_ok first]
      exact ih h

/-- Running a machine refines the batch run of the instructions it has left (`Agrees`): it succeeds
or traps as `runAll` does, with the index counted from the start of the program and the counter left
there, and with the same stack. Stepping first and then running comes to the same. -/
theorem run_refines_runAll (m : Machine) (inside : m.counter ≤ m.program.size) :
    m.Agrees (runAll (m.program.toList.drop m.counter) m.stack) m.run ∧
      ∀ k, (m.steps k).result = .ok () →
        (m.steps k).machine.run.result = m.run.result ∧
          (m.steps k).machine.run.machine = m.run.machine := by
  refine ⟨agrees_run_of_drop rfl inside, ?_⟩
  intro k succeeded
  exact run_after_steps succeeded

/-- A machine in the middle of a program, with an operand on its stack. -/
theorem run_refines_runAll_midway :
    let m : Machine :=
      ⟨.ofList [.nop, .const 0, .operator .div, .drop], .ofList [.i32 5, .i32 7], 1⟩
    m.counter ≤ m.program.size ∧ (m.steps 1).result = .ok () ∧
      m.Agrees (.error (.trap 1 (.operator .div) .divisionByZero), .ofList [.i32 5]) m.run ∧
      (m.steps 1).machine.run.machine = m.run.machine := by
  intro m
  have refined := run_refines_runAll m (by decide)
  exact ⟨by decide, rfl, refined.1, (refined.2 1 rfl).2⟩

end Machine

/-! ## Whole programs -/

/-- `Program.run` is the batch run of its instructions on an empty stack. -/
theorem Program.run_eq_runAll (p : Program) :
    p.run = (runAll p.toList ({} : OperandStack)).1.map
      fun _ => (runAll p.toList ({} : OperandStack)).2 := by
  have agrees : (Machine.load p).Agrees (runAll p.toList {}) (Machine.load p).run :=
    Machine.agrees_run_of_drop rfl (Nat.zero_le _)
  unfold run
  generalize runAll p.toList ({} : OperandStack) = batch at agrees ⊢
  generalize (Machine.load p).run = report at agrees ⊢
  cases agrees with
  | finished => rfl
  | @trapped index opcode cause s events =>
    show Except.error (Fault.trap (0 + index) opcode cause) =
      Except.error (Fault.trap index opcode cause)
    rw [Nat.zero_add]

end Straightline
