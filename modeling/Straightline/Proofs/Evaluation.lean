import Straightline.Machine
import Straightline.MeteredStack

/-!
# Evaluation on stacks and on related stores

First, what each instruction does to an operand stack, one equation for each state the stack can be
in. A stack is empty or an operand on top of a stack (`OperandStack.eq_empty_or_push`), so these
equations cover every case. Later modules cite them and do not open the evaluator again.

Then, stores in general. Instructions see their store only through its operations. If two stores are
related in a way that the operations keep, with the same answers on both sides (`Simulation`), then
evaluation keeps the relation and gives the same results (`Simulation.eval`, `Simulation.runFrom`).
A failing execution counts as well: it fails on both sides, with the same trap, and the states it
leaves are still related.

The case used most is a machine and the stack inside it (`Machine.outcome_eval`,
`Machine.runAll_eq`). A stack that has no pop left to refuse is another
(`RefusingStack.simulation`).
-/

namespace Straightline

/-! ## Evaluation on a plain stack -/

namespace OperandStack

@[simp]
theorem size_empty : ({} : OperandStack).size = 0 := rfl

@[simp]
theorem size_push (v : Value) (s : OperandStack) : (push v s).size = s.size + 1 := rfl

/-- The two shapes of a stack. Every operand is of type `i32`, so its word is at hand. -/
theorem eq_empty_or_push (s : OperandStack) : s = {} ∨ ∃ n t, s = push (.i32 n) t := by
  obtain ⟨_ | ⟨⟨n⟩, rest⟩⟩ := s
  · exact .inl rfl
  · exact .inr ⟨n, ⟨rest⟩, rfl⟩

end OperandStack

namespace Instruction

variable (s : OperandStack)

theorem outcome_nop : nop.eval.outcome s = (.ok (), s) := rfl

theorem outcome_const (n : Int32) : (const n).eval.outcome s = (.ok (), s.push (.i32 n)) := rfl

theorem outcome_drop_empty :
    drop.eval.outcome ({} : OperandStack) = (.error .stackUnderflow, {}) := rfl

theorem outcome_drop_push (v : Value) : drop.eval.outcome (s.push v) = (.ok (), s) := rfl

/-! An operator takes its right operand first. Where the left one is missing, the right one is gone
when the underflow is noticed. -/

theorem outcome_operator_empty (op : Operator) :
    (operator op).eval.outcome ({} : OperandStack) = (.error .stackUnderflow, {}) := by
  rw [eval_operator]
  rfl

theorem outcome_operator_single (op : Operator) (b : Int32) :
    (operator op).eval.outcome (({} : OperandStack).push (.i32 b)) =
      (.error .stackUnderflow, {}) := by
  rw [eval_operator]
  rfl

/-- With two operands on top, an operator leaves what `Operator.apply` makes of them. If that is a
trap, both are gone. -/
theorem outcome_operator_push_push (op : Operator) (a b : Int32) :
    (operator op).eval.outcome ((s.push (.i32 a)).push (.i32 b)) =
      match op.apply a b with
      | .ok n => (.ok (), s.push (.i32 n))
      | .error cause => (.error cause, s) := by
  rw [eval_operator]
  change (MonadExcept.ofExcept (op.apply a b) >>= pushWord : Exec OperandStack Unit).outcome s = _
  cases op.apply a b with
  | ok n => rfl
  | error cause => rfl

theorem outcome_operator_of_ok {op : Operator} {a b n : Int32} (h : op.apply a b = .ok n) :
    (operator op).eval.outcome ((s.push (.i32 a)).push (.i32 b)) = (.ok (), s.push (.i32 n)) := by
  rw [outcome_operator_push_push, h]

theorem outcome_operator_of_error {op : Operator} {a b : Int32} {cause : Trap}
    (h : op.apply a b = .error cause) :
    (operator op).eval.outcome ((s.push (.i32 a)).push (.i32 b)) = (.error cause, s) := by
  rw [outcome_operator_push_push, h]

end Instruction

variable {σ τ α β : Type}

/-! ## Related executions -/

namespace Exec

/-- From states related by `R` both executions have the same result, and leave related states. -/
def Related (R : σ → τ → Prop) (x : Exec σ α) (y : Exec τ α) : Prop :=
  ∀ s t, R s t → (x.outcome s).1 = (y.outcome t).1 ∧ R (x.outcome s).2 (y.outcome t).2

namespace Related

variable {R : σ → τ → Prop}

theorem pure (a : α) : Related R (Pure.pure a) (Pure.pure a) := by
  intro s t h
  exact ⟨rfl, h⟩

theorem ofExcept (r : Except Trap α) :
    Related R (MonadExcept.ofExcept r) (MonadExcept.ofExcept r) := by
  intro s t h
  simpa using h

theorem modify {f : σ → σ} {g : τ → τ} (keeps : ∀ s t, R s t → R (f s) (g t)) :
    Related R (modify f : Exec σ PUnit) (modify g : Exec τ PUnit) := by
  intro s t h
  exact ⟨rfl, keeps s t h⟩

/-- The two outcomes side by side. -/
private theorem outcomes {x : Exec σ α} {y : Exec τ α} (related : Related R x y) {s : σ} {t : τ}
    (h : R s t) :
    ∃ result s' t', x.outcome s = (result, s') ∧ y.outcome t = (result, t') ∧ R s' t' := by
  obtain ⟨same, after⟩ := related s t h
  exact ⟨_, _, _, rfl, Prod.ext same.symm rfl, after⟩

/-- A sequence is related part by part. Where the first part traps, it does so on both sides. -/
theorem bind {x : Exec σ α} {y : Exec τ α} {f : α → Exec σ β} {g : α → Exec τ β}
    (first : Related R x y) (rest : ∀ a, Related R (f a) (g a)) :
    Related R (x >>= f) (y >>= g) := by
  intro s t h
  obtain ⟨result, s', t', left, right, after⟩ := first.outcomes h
  simp only [outcome_bind, left, right]
  cases result with
  | ok a => exact rest a s' t' after
  | error e =>
    -- The first part traps on both sides, and the states it leaves are the final ones.
    exact ⟨rfl, after⟩

end Related

end Exec

/-! ## Simulations -/

/-- A relation between the states of two stores that their operations keep: after a push the states
are related again, and pops are `Exec.Related`. Evaluation never peeks, so nothing is asked of
that. -/
structure Simulation [OperandStore σ] [OperandStore τ] (R : σ → τ → Prop) : Prop where
  push : ∀ v s t, R s t → R (OperandStore.push v s) (OperandStore.push v t)
  pop : Exec.Related R OperandStore.pop OperandStore.pop
  popTyped : ∀ type, Exec.Related R (OperandStore.popTyped type) (OperandStore.popTyped type)

namespace Simulation

variable [OperandStore σ] [OperandStore τ] {R : σ → τ → Prop}

/-- The second check of `popWord` plays no part in this, since it never fails (`popWord_eq`). -/
theorem popWord (sim : Simulation R) :
    Exec.Related R Straightline.popWord Straightline.popWord := by
  rw [popWord_eq, popWord_eq]
  exact .bind (sim.popTyped .i32) fun v => .pure v.word

theorem pushWord (sim : Simulation R) (n : Int32) :
    Exec.Related R (Straightline.pushWord n) (Straightline.pushWord n) :=
  .modify (sim.push (.i32 n))

theorem binary (sim : Simulation R) (f : Int32 → Int32 → Except Trap Int32) :
    Exec.Related R (Straightline.binary f) (Straightline.binary f) := by
  refine .bind sim.popWord fun right => ?_
  refine .bind sim.popWord fun left => ?_
  exact .bind (.ofExcept (f left right)) fun result => sim.pushWord result

/-- One instruction, whatever it is. -/
theorem eval (sim : Simulation R) (i : Instruction) : Exec.Related R i.eval i.eval := by
  cases i with
  | nop => exact .pure ()
  | drop => exact .bind sim.pop fun _ => .pure ()
  | const n => exact sim.pushWord n
  | operator op =>
    rw [Instruction.eval_operator, Instruction.eval_operator]
    exact sim.binary op.apply

/-- A list of instructions: the same fault or none, and related states at the end. -/
theorem runFrom (sim : Simulation R) (index : Nat) (is : List Instruction) {s : σ} {t : τ}
    (h : R s t) :
    (Straightline.runFrom index is s).1 = (Straightline.runFrom index is t).1 ∧
      R (Straightline.runFrom index is s).2 (Straightline.runFrom index is t).2 := by
  induction is generalizing index s t with
  | nil => exact ⟨rfl, h⟩
  | cons i is ih =>
    obtain ⟨result, s', t', left, right, after⟩ := (sim.eval i).outcomes h
    simp only [Straightline.runFrom, left, right]
    cases result with
    | ok => exact ih (index + 1) after
    | error cause => exact ⟨rfl, after⟩

end Simulation

/-! ## A machine and its stack -/

namespace Machine

/-- A machine that differs from `m` in its stack only is related to that stack. -/
theorem simulation (m : Machine) :
    Simulation fun (after : Machine) (stack : OperandStack) => after = { m with stack } where
  push v _ stack h := by
    subst h
    rfl
  pop := by
    intro _ stack h
    subst h
    simp [OperandStore.pop, onStack]
  popTyped type := by
    intro _ stack h
    subst h
    simp [OperandStore.popTyped, onStack]

/-- An instruction does to a machine what it does to the stack of the machine. The program and the
counter stay as they are. -/
theorem outcome_eval (i : Instruction) (m : Machine) :
    i.eval.outcome m =
      ((i.eval.outcome m.stack).1, { m with stack := (i.eval.outcome m.stack).2 }) := by
  obtain ⟨same, related⟩ := m.simulation.eval i m m.stack rfl
  exact Prod.ext same related

/-- `runAll` does to a machine what it does to the stack of the machine, and nothing else. -/
theorem runAll_eq (is : List Instruction) (m : Machine) :
    runAll is m =
      ((runAll is m.stack).1, { m with stack := (runAll is m.stack).2 }) := by
  obtain ⟨same, related⟩ := m.simulation.runFrom 0 is (s := m) (t := m.stack) rfl
  exact Prod.ext same related

end Machine

/-! ## A refusing stack and the stack inside it -/

/-- A `RefusingStack` behaves like the stack inside it once all the numbers it refuses are behind
it. The relation says so of every later state as well, since the count of typed pops only grows. -/
theorem RefusingStack.simulation {ρ : Type} {refuses : ρ → Nat → Prop}
    [∀ refused, DecidablePred (refuses refused)] :
    Simulation fun (m : RefusingStack refuses) (stack : OperandStack) =>
      m.stack = stack ∧ ∀ k, refuses m.refused k → k < m.typedPops where
  push v m stack h := by
    obtain ⟨rfl, past⟩ := h
    exact ⟨rfl, past⟩
  pop := by
    rintro m _ ⟨rfl, past⟩
    simpa [OperandStore.pop, onStack] using past
  popTyped type := by
    rintro m _ ⟨rfl, past⟩
    -- The number of this pop is not among the refused ones, so the pop is passed on.
    have passed : ¬ refuses m.refused m.typedPops := fun refused =>
      Nat.lt_irrefl _ (past _ refused)
    have later : ∀ k, refuses m.refused k → k < m.typedPops + 1 := fun k hk =>
      Nat.lt_succ_of_lt (past k hk)
    have outcome : (OperandStore.popTyped type).outcome m = _ :=
      outcome_popTyped_of_passed passed type
    rw [outcome]
    exact ⟨rfl, rfl, later⟩

/-! ## Evaluation is parametric in the store -/

/-- Runs cannot tell stores apart that a `Simulation` relates: whatever the relation and the two
stores, a run ends in the same way on both sides and leaves related states. For a `Machine` this
means that instructions reach nothing but its stack: a run on the machine and a run on the bare
stack have the same result and leave the same stack, and the program and the counter stay as they
are. -/
theorem runAll_parametric :
    (∀ (σ τ : Type) [OperandStore σ] [OperandStore τ] (R : σ → τ → Prop), Simulation R →
      ∀ (is : List Instruction) (s : σ) (t : τ), R s t →
        (runAll is s).1 = (runAll is t).1 ∧ R (runAll is s).2 (runAll is t).2) ∧
    (∀ (m : Machine) (is : List Instruction),
      runAll is m = ((runAll is m.stack).1, { m with stack := (runAll is m.stack).2 })) ∧
    (∀ (m : Machine) (i : Instruction),
      i.eval.outcome m =
        ((i.eval.outcome m.stack).1, { m with stack := (i.eval.outcome m.stack).2 })) := by
  refine ⟨?_, ?_, ?_⟩
  · intro σ τ _ _ R sim is s t related
    exact sim.runFrom 0 is related
  · intro m is
    exact m.runAll_eq is
  · intro m i
    exact m.outcome_eval i

/-- A metered stack that has refused two pops already ends a run as a bare stack does. -/
theorem runAll_parametric_metered :
    let is : List Instruction := [.const 0, .operator .add, .operator .div]
    let metered : MeteredStack := ⟨.ofList [.i32 5, .i32 0], 2, [0, 1]⟩
    (metered.stack = .ofList [.i32 5, .i32 0] ∧ ∀ k ∈ metered.refused, k < metered.typedPops) ∧
      (runAll is metered).1 = .error (.trap 2 (.operator .div) .divisionByZero) ∧
      (runAll is metered).2.stack = .ofList [] := by
  intro is metered
  have related : metered.stack = .ofList [.i32 5, .i32 0] ∧
      ∀ k ∈ metered.refused, k < metered.typedPops := by decide
  obtain ⟨same, after, _⟩ :=
    runAll_parametric.1 MeteredStack OperandStack _ RefusingStack.simulation is metered _ related
  exact ⟨related, same.trans rfl, after.trans rfl⟩

end Straightline
