import Mathlib.Data.List.Forall2
import Straightline.Proofs.Depth
import Straightline.Proofs.Operations

/-!
# Machines that stay as they are

Two kinds of machines do not change any more, however often they are tried.

- A machine on which an instruction underflowed has lost all its operands, and its counter is still
  on that instruction (`Machine.Stuck`). Unless somebody puts an operand on the stack, the
  instruction underflows again, whether it is stepped or run.
- A machine with no instruction left has nothing to step.

Other traps are not like this: a division that is undefined takes its operands away and leaves what
is below them, so the next try works on another stack.
-/

namespace Straightline

/-- An instruction with a positive `Opcode.need` underflows on the empty stack, and leaves it
empty. -/
private theorem Instruction.outcome_empty_of_need {i : Instruction} (needs : 0 < i.opcode.need) :
    i.eval.outcome ({} : OperandStack) = (.error .stackUnderflow, {}) := by
  rcases i.outcome_cases {} with ⟨t, _, enough, _⟩ | ⟨underflow, _⟩ | ⟨_, t, _, _, _, size⟩
  · exact absurd needs (Nat.not_lt.mpr enough)
  · exact underflow
  · -- A division would have had two operands.
    rw [OperandStack.size_empty] at size
    omega

/-- An instruction that underflows needs operands, and it has taken all there were: the stack it
leaves is empty. -/
private theorem Instruction.of_underflow {i : Instruction} {s t : OperandStack}
    (underflow : i.eval.outcome s = (.error .stackUnderflow, t)) :
    t = {} ∧ 0 < i.opcode.need := by
  rcases i.outcome_cases s with ⟨u, succeeds, _⟩ | ⟨same, short⟩ | ⟨cause, u, traps, _, known, _⟩
  · cases succeeds.symm.trans underflow
  · cases same.symm.trans underflow
    exact ⟨rfl, Nat.zero_lt_of_lt short⟩
  · cases traps.symm.trans underflow
    simp at known

namespace Machine

/-! ## Stuck machines -/

/-- The machine has no operands, and its next instruction needs some (`Opcode.need`). A step from
here underflows, so the fault `f` is the one that `Machine.step` reports. -/
inductive Stuck (m : Machine) : Fault → Prop where
  | underflow {i : Instruction} (empty : m.stack = {}) (fetched : m.current? = some i)
      (needs : 0 < i.opcode.need) : Stuck m (.trap m.counter i.opcode .stackUnderflow)

namespace Stuck

variable {m : Machine} {f : Fault}

private theorem stack_eq (h : m.Stuck f) : m.stack = {} := by
  cases h with
  | underflow empty _ _ => exact empty

private theorem step_eq (h : m.Stuck f) : m.step.result = .error f ∧ m.step.machine = m := by
  cases h with
  | @underflow i empty fetched needs =>
    have again : i.eval.outcome m.stack = (.error .stackUnderflow, m.stack) := by
      rw [empty]
      exact i.outcome_empty_of_need needs
    rw [step_of_trap fetched again]
    exact ⟨rfl, rfl⟩

/-- `Machine.run` fails in its first step already. -/
private theorem run_eq (h : m.Stuck f) : m.run = m.step := by
  have failed := h.step_eq.1
  cases h with
  | underflow _ fetched _ =>
    rw [run_of_unfinished (unfinished_of_current? fetched)]
    exact Report.andThen_of_error failed run

end Stuck

/-- A step that underflows leaves a machine that is `Stuck` with the fault of the step. -/
private theorem stuck_of_step {m : Machine} {k : Nat} {op : Opcode}
    (failed : m.step.result = .error (.trap k op .stackUnderflow)) :
    m.step.machine.Stuck (.trap k op .stackUnderflow) := by
  rcases m.step_cases with ⟨_, stepped⟩ | ⟨i, s, _, _, stepped⟩ |
    ⟨i, cause, s, fetched, outcome, stepped⟩
  · rw [stepped] at failed
    cases failed
  · rw [stepped] at failed
    cases failed
  · rw [stepped] at failed ⊢
    cases failed
    -- The operands that were there are gone, and the counter has not moved.
    obtain ⟨empty, needs⟩ := i.of_underflow outcome
    exact .underflow empty fetched needs

/-- So does a series of steps (`Machine.steps`) that ends with an underflow, since the last of them
is the one that fails. -/
private theorem stuck_of_steps {m : Machine} {n k : Nat} {op : Opcode}
    (failed : (m.steps n).result = .error (.trap k op .stackUnderflow)) :
    (m.steps n).machine.Stuck (.trap k op .stackUnderflow) := by
  -- Only the last step of a series can fail, and it leaves the machine that the series leaves.
  induction n generalizing m with
  | zero => cases failed
  | succ n ih =>
    rw [steps] at failed ⊢
    cases result : m.step.result with
    | error f =>
      rw [Report.andThen_of_error result] at failed ⊢
      exact stuck_of_step failed
    | ok =>
      rw [Report.andThen_of_ok result] at failed ⊢
      exact ih failed

end Machine

/-! ## Operations on a stuck machine -/

private theorem Reply.ofRun_eq_fault_iff {r : Except Fault Unit} {f : Fault} :
    Reply.ofRun r = .fault f ↔ r = .error f := by
  cases r with
  | ok => simp [ofRun]
  | error g => simp [ofRun]

namespace Operation

/-- Steps, runs, and calls that look at an operand or take one: whatever they do, they bring no
operand from outside. Pushes do, and evaluating instructions may. -/
def bringsNothing : Operation → Bool
  | .step => true
  | .run => true
  | .call .pop => true
  | .call .peek => true
  | .call (.popTyped _) => true
  | .call (.push _) => false
  | .call (.eval _) => false
  | .call (.runAll _) => false

/-- What a machine answers that is `Machine.Stuck` with the fault `f`: steps and runs report the
fault, and calls underflow. -/
def stuckReply (f : Fault) : Operation → Reply
  | .step => .fault f
  | .run => .fault f
  | .call _ => .trap .stackUnderflow

/-- A step or a run that underflows leaves a `Machine.Stuck` machine, as an operation whose reply is
the fault. -/
theorem stuck_of_perform {op : Operation} {m : Machine} {k : Nat} {opcode : Opcode}
    (tries : op = .step ∨ op = .run)
    (failed : (op.perform m).reply = .fault (.trap k opcode .stackUnderflow)) :
    (op.perform m).machine.Stuck (.trap k opcode .stackUnderflow) := by
  rcases tries with rfl | rfl
  · apply Machine.stuck_of_step
    exact Reply.ofRun_eq_fault_iff.mp failed
  · apply Machine.stuck_of_steps
    exact Reply.ofRun_eq_fault_iff.mp failed

/-- A `Machine.Stuck` machine stays as it is under every operation that `bringsNothing`, and the
reply is the `stuckReply`. -/
theorem perform_of_stuck {m : Machine} {f : Fault} (stuck : m.Stuck f) {op : Operation}
    (idle : op.bringsNothing = true) :
    (op.perform m).machine = m ∧ (op.perform m).reply = op.stuckReply f := by
  obtain ⟨failed, unmoved⟩ := stuck.step_eq
  have empty := stuck.stack_eq
  obtain ⟨program, stack, counter⟩ := m
  cases empty
  cases op with
  | step =>
    refine ⟨unmoved, ?_⟩
    show Reply.ofRun (Machine.step _).result = .fault f
    rw [failed]
    rfl
  | run =>
    -- A run comes to no more than the step.
    have same := stuck.run_eq
    refine ⟨?_, ?_⟩
    · show (Machine.run _).machine = _
      rw [same, unmoved]
    · show Reply.ofRun (Machine.run _).result = .fault f
      rw [same, failed]
      rfl
  | call c =>
    -- There is no operand to look at or to take.
    cases c with
    | pop => exact ⟨rfl, rfl⟩
    | peek => exact ⟨rfl, rfl⟩
    | popTyped t => exact ⟨rfl, rfl⟩
    | push v => cases idle
    | eval i => cases idle
    | runAll is => cases idle

/-! ## Operations on a finished machine -/

/-- A finished machine stays as it is: a step finds no instruction and reports the counter as out of
range, and a run has nothing to do and succeeds. The counter is at the end of the program because it
only ever counts successful steps (`Counts`). -/
theorem perform_of_finished {p : Program} {n : Nat} {m : Machine} (counts : Counts p n m)
    (finished : m.isFinished = true) :
    ((step.perform m).machine = m ∧ (step.perform m).reply = .fault (.outOfRange p.size p.size)) ∧
      (run.perform m).machine = m ∧ (run.perform m).reply = .done := by
  have atEnd : n = p.size := counts.isFinished_iff.mp finished
  have outside : (step.perform m).reply = .fault (.outOfRange p.size p.size) :=
    (step_reply_eq_outOfRange_iff counts _ _).mpr ⟨atEnd, rfl, rfl⟩
  have ran : run.perform m = .ofReport ⟨.ok (), m, []⟩ :=
    congrArg Response.ofReport (Machine.run_of_finished finished)
  refine ⟨⟨step_machine_of_outOfRange outside, outside⟩, ?_⟩
  rw [ran]
  exact ⟨rfl, rfl⟩

/-! ## Sequences -/

/-- If each of some operations leaves the machine as it is, then so does the whole sequence, and
`performAll` gives what each of them answers alone. -/
private theorem performAll_of_unchanged {m : Machine} {ops : List Operation}
    (unchanged : ∀ op ∈ ops, (op.perform m).machine = m) :
    performAll ops m = ops.map (·.perform m) ∧ after ops m = m := by
  induction ops with
  | nil => exact ⟨rfl, rfl⟩
  | cons op ops ih =>
    have rest : ∀ later ∈ ops, (later.perform m).machine = m := by
      intro later inside
      exact unchanged later (List.mem_cons_of_mem op inside)
    obtain ⟨responses, final⟩ := ih rest
    rw [performAll, after_cons, unchanged op List.mem_cons_self, responses]
    exact ⟨rfl, final⟩

/-- What each operation does alone to a machine that it does not change, it does in sequence. -/
private theorem forall₂_performAll {m : Machine} {ops : List Operation}
    {answers : Operation → Response → Prop}
    (each : ∀ op ∈ ops, (op.perform m).machine = m ∧ answers op (op.perform m)) :
    after ops m = m ∧
      List.Forall₂ (fun op response => response.machine = m ∧ answers op response)
        ops (performAll ops m) := by
  obtain ⟨responses, final⟩ := performAll_of_unchanged fun op inside => (each op inside).1
  refine ⟨final, ?_⟩
  rw [responses, List.forall₂_map_right_iff, List.forall₂_same]
  exact each

/-- Underflow and completion are for good, whatever was done with the machine before.

- After a step or a run that underflows, the stack is empty and the counter is on the instruction
  that underflowed. Every later sequence of steps, runs, pops, peeks and typed pops leaves the
  machine as it is. Each step and each run in it has the same fault again, and every other operation
  underflows.
- Once no instruction is left, every later sequence of steps and runs leaves the machine as it is.
  Each step finds the counter at the end of the program, out of range, and each run succeeds. -/
theorem underflow_and_completion_absorb (p : Program) (ops : List Operation) :
    let m := after ops (Machine.load p)
    (∀ (op : Operation) (k : Nat) (opcode : Opcode), op = .step ∨ op = .run →
      (op.perform m).reply = .fault (.trap k opcode .stackUnderflow) →
      let stuck := (op.perform m).machine
      (stuck.stack.toList = [] ∧ stuck.counter = k ∧ stuck.program = p) ∧
      ∀ later, (∀ o ∈ later, o.bringsNothing = true) →
        after later stuck = stuck ∧
        List.Forall₂ (fun o response => response.machine = stuck ∧
            (o = .step ∨ o = .run →
              response.reply = .fault (.trap k opcode .stackUnderflow)) ∧
            ∀ c, o = .call c → response.reply = .trap .stackUnderflow)
          later (performAll later stuck)) ∧
    (m.isFinished = true →
      ∀ later, (∀ o ∈ later, o = .step ∨ o = .run) →
        after later m = m ∧
        List.Forall₂ (fun o response => response.machine = m ∧
            (o = .step → response.reply = .fault (.outOfRange p.size p.size)) ∧
            (o = .run → response.reply = .done))
          later (performAll later m)) := by
  intro m
  have counts : Counts p _ m := (Counts.load p).after ops
  refine ⟨?_, ?_⟩
  · intro op k opcode tries failed stuck
    have h : stuck.Stuck (.trap k opcode .stackUnderflow) := stuck_of_perform tries failed
    have program : stuck.program = p := (counts.perform op).program
    refine ⟨⟨?_, ?_, program⟩, ?_⟩
    · rw [h.stack_eq]
      rfl
    · cases h
      rfl
    · intro later idle
      apply forall₂_performAll
      intro o inside
      obtain ⟨unchanged, answered⟩ := perform_of_stuck h (idle o inside)
      refine ⟨unchanged, ?_, ?_⟩
      · intro tried
        rw [answered]
        rcases tried with rfl | rfl
        · rfl
        · rfl
      · intro c called
        rw [answered, called]
        rfl
  · intro finished later only
    obtain ⟨⟨stepUnchanged, outside⟩, runUnchanged, done⟩ := perform_of_finished counts finished
    apply forall₂_performAll
    intro o inside
    rcases only o inside with rfl | rfl
    · exact ⟨stepUnchanged, fun _ => outside, nofun⟩
    · exact ⟨runUnchanged, nofun, fun _ => done⟩

/-- A sum that finds one operand and loses it, and a machine at the end of its program. The last
machine is not stuck: its division traps for another cause when it is tried again. -/
theorem underflow_and_completion_absorb_examples :
    let starved := after [.step] (Machine.load (.ofList [.const 7, .operator .add]))
    let stuck := (run.perform starved).machine
    let later : List Operation := [.call .peek, .run, .call (.popTyped .i32), .step, .call .pop]
    let finished := after [.run] (Machine.load (.ofList [.nop]))
    let division := Machine.load (.ofList [.const 1, .const 0, .operator .div])
    let underflow : Reply := .fault (.trap 1 (.operator .add) .stackUnderflow)
    (starved.stack.size = 1 ∧ (run.perform starved).reply = underflow ∧ after later stuck = stuck ∧
      (performAll later stuck).map (·.reply) =
        [.trap .stackUnderflow, underflow, .trap .stackUnderflow, underflow,
          .trap .stackUnderflow]) ∧
    (finished.isFinished = true ∧ after [.step, .run, .step] finished = finished ∧
      (performAll [.step, .run] finished).map (·.reply) = [.fault (.outOfRange 1 1), .done]) ∧
    (performAll [.run, .run] division).map (·.reply) =
      [.fault (.trap 2 (.operator .div) .divisionByZero),
        .fault (.trap 2 (.operator .div) .stackUnderflow)] := by
  intro starved stuck later finished division underflow
  have failed : (run.perform starved).reply = underflow := by decide
  have atEnd : finished.isFinished = true := by decide
  obtain ⟨absorbed, _⟩ :=
    underflow_and_completion_absorb (.ofList [.const 7, .operator .add]) [.step]
  obtain ⟨_, completed⟩ := underflow_and_completion_absorb (.ofList [.nop]) [.run]
  have stays := ((absorbed .run 1 _ (.inr rfl) failed).2 later (by decide)).1
  refine ⟨⟨rfl, failed, stays, by decide⟩, ⟨atEnd, ?_, by decide⟩, by decide⟩
  exact (completed atEnd [.step, .run, .step] (by decide)).1

end Operation

end Straightline
