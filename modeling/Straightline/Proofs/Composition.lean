import Straightline.Proofs.TrapCauses

/-!
# Runs are composed of runs

A run can be told from the runs of its parts, in two ways.

- In sequence (`runAll_append_of_ok`): instructions behind others run on what the first ones leave,
  in any operand store, and a trap among them is reported so many places further on.
- Above other operands (`runFrom_above`): instructions that find enough operands on a stack do the
  same when this stack stands on another one, and the operands below stay where they are.

What lies below makes a difference to a run only if the run underflows without it.
-/

namespace Straightline

/-! ## In sequence -/

section Sequence

variable {σ : Type} [OperandStore σ]

/-- A trap is the only fault that `runAll` reports: there is no counter that could leave the
program. -/
private theorem eq_trap_of_runAll {is : List Instruction} {s t : σ} {f : Fault}
    (failed : runAll is s = (.error f, t)) : ∃ k op cause, f = .trap k op cause := by
  rcases runAll_cases is s with ⟨u, succeeds⟩ | ⟨k, i, cause, _, u, _, _, _, trapped⟩
  · rw [succeeds] at failed
    cases failed
  · rw [trapped] at failed
    cases failed
    exact ⟨k, i.opcode, cause, rfl⟩

/-- Instructions in sequence, in any `OperandStore`.

- If the first part fails, so does the whole, with the same fault and in the same state.
- If it succeeds, the second part decides, run from the state that the first one leaves: the whole
  succeeds in the same state, or it traps in the same state and for the same cause, at an index that
  counts the instructions of the first part as well. -/
theorem runAll_append (xs ys : List Instruction) (c : σ) :
    (∀ f d, runAll xs c = (.error f, d) → runAll (xs ++ ys) c = (.error f, d)) ∧
    (∀ d, runAll xs c = (.ok (), d) →
      (∀ e, runAll ys d = (.ok (), e) → runAll (xs ++ ys) c = (.ok (), e)) ∧
      (∀ f e, runAll ys d = (.error f, e) →
        ∃ k op cause, f = .trap k op cause ∧
          runAll (xs ++ ys) c = (.error (.trap (xs.length + k) op cause), e))) := by
  refine ⟨fun f d failed => runAll_append_of_error failed ys, ?_⟩
  intro d first
  have whole := runAll_append_of_ok first ys
  refine ⟨?_, ?_⟩
  · intro e second
    rw [whole, second]
    rfl
  · intro f e second
    obtain ⟨k, op, cause, rfl⟩ := eq_trap_of_runAll second
    refine ⟨k, op, cause, rfl, ?_⟩
    rw [whole, second]
    rfl

end Sequence

/-- A metered stack that refuses its fourth typed pop, in the second instruction of the second part;
and a first part that underflows, after which the second part is not reached. -/
theorem runAll_append_metered :
    let m : MeteredStack := ⟨{}, 0, [3]⟩
    let sum : List Instruction := [.const 7, .const 8, .operator .add]
    let refused : List Instruction := [.const 9, .operator .mul]
    runAll sum m = (.ok (), ⟨.ofList [.i32 15], 2, [3]⟩) ∧
    runAll (sum ++ refused) m =
      (.error (.trap 4 (.operator .mul) (.typeMismatch .i32 (.i32 15))),
        ⟨.ofList [.i32 15], 4, [3]⟩) ∧
    runAll (sum ++ [.drop]) m = (.ok (), ⟨{}, 2, [3]⟩) ∧
    runAll ([.const 1, .operator .sub] ++ sum) m =
      (.error (.trap 1 (.operator .sub) .stackUnderflow), ⟨{}, 2, [3]⟩) := by
  intro m sum refused
  have first : runAll sum m = (.ok (), ⟨.ofList [.i32 15], 2, [3]⟩) := by rfl
  have second : runAll refused (⟨.ofList [.i32 15], 2, [3]⟩ : MeteredStack) =
      (.error (.trap 1 (.operator .mul) (.typeMismatch .i32 (.i32 15))),
        ⟨.ofList [.i32 15], 4, [3]⟩) := by rfl
  obtain ⟨k, op, cause, same, trapped⟩ := ((runAll_append sum refused m).2 _ first).2 _ _ second
  cases same
  refine ⟨first, trapped, ?_, ?_⟩
  · exact ((runAll_append sum [.drop] m).2 _ first).1 _ rfl
  · exact (runAll_append [.const 1, .operator .sub] sum m).1 _ _ rfl

/-! ## Above other operands -/

namespace OperandStack

/-- The operands of `s` on top of those of `t`, as one stack. -/
def above (s t : OperandStack) : OperandStack := ofList (t.toList ++ s.toList)

@[simp]
theorem toList_above (s t : OperandStack) : (s.above t).toList = t.toList ++ s.toList :=
  toList_ofList _

@[simp]
private theorem empty_above (t : OperandStack) : above {} t = t := by
  simp [above, toList, ofList]

@[simp]
private theorem push_above (v : Value) (s t : OperandStack) :
    (s.push v).above t = (s.above t).push v := by
  simp [above, toList, ofList, push]

end OperandStack

/-- An instruction that does not underflow on `s` does not reach what is below `s`: on `s.above t`
it has the same result, and `t` is still below the stack it leaves. -/
theorem Instruction.outcome_above {i : Instruction} {s s' : OperandStack}
    {result : Except Trap Unit} (outcome : i.eval.outcome s = (result, s'))
    (supplied : result ≠ .error .stackUnderflow) (t : OperandStack) :
    i.eval.outcome (s.above t) = (result, s'.above t) := by
  cases i with
  | nop =>
    rw [outcome_nop] at outcome ⊢
    cases outcome
    rfl
  | const n =>
    rw [outcome_const] at outcome ⊢
    cases outcome
    rw [OperandStack.push_above]
  | drop =>
    rcases s.eq_empty_or_push with rfl | ⟨n, u, rfl⟩
    · rw [outcome_drop_empty] at outcome
      cases outcome
      exact absurd rfl supplied
    · rw [OperandStack.push_above]
      rw [outcome_drop_push] at outcome ⊢
      cases outcome
      rfl
  | operator op =>
    rcases s.eq_empty_or_push with rfl | ⟨b, u, rfl⟩
    · rw [outcome_operator_empty] at outcome
      cases outcome
      exact absurd rfl supplied
    rcases u.eq_empty_or_push with rfl | ⟨a, u, rfl⟩
    · -- Here an operand of `t` would be taken as the left one.
      rw [outcome_operator_single] at outcome
      cases outcome
      exact absurd rfl supplied
    -- Both operands are above `t`, so the operator sees the same words.
    rw [OperandStack.push_above, OperandStack.push_above]
    cases computed : op.apply a b with
    | ok n =>
      rw [outcome_operator_of_ok u computed] at outcome
      cases outcome
      rw [OperandStack.push_above]
      exact outcome_operator_of_ok _ computed
    | error cause =>
      rw [outcome_operator_of_error u computed] at outcome
      cases outcome
      exact outcome_operator_of_error _ computed

/-- A run that does not underflow on `s` does not reach what is below `s`, by
`Instruction.outcome_above` for each of its instructions. -/
theorem runFrom_above {index : Nat} {is : List Instruction} {s s' : OperandStack}
    {result : Except Fault Unit} (run : runFrom index is s = (result, s'))
    (supplied : ∀ k op, result ≠ .error (.trap k op .stackUnderflow)) (t : OperandStack) :
    runFrom index is (s.above t) = (result, s'.above t) := by
  -- By induction on the instructions, for any stack: each leaves `t` at the bottom for the next.
  induction is generalizing index s with
  | nil =>
    cases run
    rfl
  | cons i is ih =>
    rw [runFrom] at run ⊢
    rcases outcome : i.eval.outcome s with ⟨cause | _, u⟩
    · rw [outcome] at run
      cases run
      have other : (Except.error cause : Except Trap Unit) ≠ .error .stackUnderflow := by
        intro underflow
        cases underflow
        exact supplied index i.opcode rfl
      rw [Instruction.outcome_above outcome other t]
    · rw [outcome] at run
      rw [Instruction.outcome_above outcome (by simp) t]
      exact ih run

/-- A run that does not underflow does not underflow up to any of its instructions. -/
private theorem not_underflow_take {is : List Instruction} {s : OperandStack}
    (supplied : ∀ k op, (runAll is s).1 ≠ .error (.trap k op .stackUnderflow)) (n k : Nat)
    (op : Opcode) : (runAll (is.take n) s).1 ≠ .error (.trap k op .stackUnderflow) := by
  intro failed
  have whole := runAll_append_of_error (Prod.ext failed rfl) (is.drop n)
  rw [List.take_append_drop] at whole
  apply supplied k op
  rw [whole]

/-- Operands below those that a run touches are neither read nor changed nor moved. Take a run on
`s` that ends in any way but an underflow, and any operands `t` below `s`. On `s.above t` the run
ends in the same way, that is, it succeeds or has the same trap at the same index, and it leaves the
same stack on top of `t`. The same holds of the run up to any of its instructions, so the operands
of `t` are in their place all the time. -/
theorem runAll_frame (is : List Instruction) (s : OperandStack)
    (supplied : ∀ k op, (runAll is s).1 ≠ .error (.trap k op .stackUnderflow))
    (t : OperandStack) :
    runAll is (s.above t) = ((runAll is s).1, (runAll is s).2.above t) ∧
    ∀ n, runAll (is.take n) (s.above t) =
      ((runAll (is.take n) s).1, (runAll (is.take n) s).2.above t) := by
  refine ⟨runFrom_above rfl supplied t, ?_⟩
  intro n
  exact runFrom_above rfl (not_underflow_take supplied n) t

/-- A run that succeeds and one that divides by zero, above two operands. The third run underflows
on its own, and there an operand below changes how it ends. -/
theorem runAll_frame_examples :
    let s : OperandStack := .ofList [.i32 4]
    let t : OperandStack := .ofList [.i32 1, .i32 2]
    s.above t = .ofList [.i32 1, .i32 2, .i32 4] ∧
    runAll [.const 3, .operator .add] (s.above t) = (.ok (), .ofList [.i32 1, .i32 2, .i32 7]) ∧
    (runAll [.const 0, .operator .div, .drop] (s.above t)).1 =
      .error (.trap 1 (.operator .div) .divisionByZero) ∧
    (runAll [.const 0, .operator .div, .drop] (s.above t)).2 = t ∧
    (runAll [.operator .add] s).1 ≠ (runAll [.operator .add] (s.above t)).1 := by
  intro s t
  have sum := (runAll_frame [.const 3, .operator .add] s nofun t).1
  have divided : (runAll [.const 0, .operator .div, .drop] s).1 =
      .error (.trap 1 (.operator .div) .divisionByZero) := by rfl
  have quotient := (runAll_frame [.const 0, .operator .div, .drop] s (by simp [divided]) t).1
  refine ⟨rfl, sum, ?_, ?_, by decide⟩
  · rw [quotient, divided]
  · rw [quotient]
    exact OperandStack.empty_above t

end Straightline
