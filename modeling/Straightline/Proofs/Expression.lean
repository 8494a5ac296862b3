import Mathlib.Data.List.Forall2
import Straightline.Proofs.Arithmetic
import Straightline.Proofs.Refinement
import Straightline.Proofs.Evaluation

/-!
# Expressions in postfix form

An expression is evaluated on integers, by recursion (`Expr.eval`), and it can be listed in postfix
form: left operand, right operand, operator (`Expr.code`). Running the list computes the expression
(`Expr.computes_runAll_code`), from any stack. Where a division is undefined, the run ends at the
first such division, and the stack shows how far it got: it still holds the left operands that were
computed for the operators around the division.
-/

namespace Straightline

/-- An expression over constants and binary operators, as a tree. -/
inductive Expr where
  | const (n : Int32)
  | binary (op : Operator) (left right : Expr)
  deriving DecidableEq, Repr

namespace Expr

/-- The value of an expression, or why a division in it is undefined. Operators have their meaning
on integers (`Operator.exact`), and the left operand comes first. -/
def eval : Expr → Except Trap Int
  | .const n => .ok n.toInt
  | .binary op left right => do
    let a ← left.eval
    let b ← right.eval
    op.exact a b

/-- The instructions of an expression in postfix order: those of the left operand, those of the
right one, and then the operator. -/
def code : Expr → List Instruction
  | .const n => [.const n]
  | .binary op left right => left.code ++ right.code ++ [.operator op]

/-! ## Where the operators stand -/

/-- `e.OperatorAt k pending op left right`: instruction number `k` in the code of `e` is an operator
`op` of `e`, with these two operands. The expressions in `pending` are the left operands of the
operators around it that have it in their right operand, the outermost first. -/
inductive OperatorAt : Expr → Nat → List Expr → Operator → Expr → Expr → Prop where
  | root {op : Operator} {left right : Expr} :
      OperatorAt (.binary op left right) (left.code.length + right.code.length) [] op left right
  | left {op : Operator} {left right : Expr} {k : Nat} {pending : List Expr} {op' : Operator}
      {l r : Expr} (inside : OperatorAt left k pending op' l r) :
      OperatorAt (.binary op left right) k pending op' l r
  | right {op : Operator} {left right : Expr} {k : Nat} {pending : List Expr} {op' : Operator}
      {l r : Expr} (inside : OperatorAt right k pending op' l r) :
      OperatorAt (.binary op left right) (left.code.length + k) (left :: pending) op' l r

/-- Instruction number `k` is a division whose operands have values, but no quotient
(`exactQuotient`). -/
def UndefinedAt (e : Expr) (k : Nat) (pending : List Expr) (cause : Trap) : Prop :=
  ∃ l r a b, e.OperatorAt k pending .div l r ∧ l.eval = .ok a ∧ r.eval = .ok b ∧
    exactQuotient a b = .error cause

/-- Of all divisions of `e` that are `UndefinedAt` some place, the one at `k` comes first in its
code. -/
def FirstUndefinedAt (e : Expr) (k : Nat) (pending : List Expr) (cause : Trap) : Prop :=
  e.UndefinedAt k pending cause ∧ ∀ j < k, ∀ pending' cause', ¬ e.UndefinedAt j pending' cause'

section Positions

variable {e left right l r : Expr} {op : Operator} {k : Nat} {pending : List Expr} {cause : Trap}

/-- The positions are those of the code. -/
private theorem OperatorAt.getElem?_code (h : e.OperatorAt k pending op l r) :
    e.code[k]? = some (.operator op) := by
  induction h with
  | root => simp [code]
  | left inside ih =>
    have within := (List.getElem?_eq_some_iff.mp ih).1
    rw [code, List.append_assoc, List.getElem?_append_left within, ih]
  | right inside ih =>
    have within := (List.getElem?_eq_some_iff.mp ih).1
    rw [code, List.append_assoc, List.getElem?_append_right (Nat.le_add_right _ _),
      Nat.add_sub_cancel_left, List.getElem?_append_left within, ih]

private theorem UndefinedAt.getElem?_code (h : e.UndefinedAt k pending cause) :
    e.code[k]? = some (.operator .div) := by
  obtain ⟨l, r, a, b, at_k, _⟩ := h
  exact at_k.getElem?_code

theorem UndefinedAt.lt_length (h : e.UndefinedAt k pending cause) : k < e.code.length :=
  (List.getElem?_eq_some_iff.mp h.getElem?_code).1

/-! An expression with a value has values everywhere inside. -/

private theorem eval_binary_eq_ok {v : Int} (h : (binary op left right).eval = .ok v) :
    ∃ a b, left.eval = .ok a ∧ right.eval = .ok b ∧ op.exact a b = .ok v := by
  obtain ⟨a, ha, rest⟩ := bind_eq_ok_iff.mp h
  obtain ⟨b, hb, result⟩ := bind_eq_ok_iff.mp rest
  exact ⟨a, b, ha, hb, result⟩

private theorem OperatorAt.eval_eq_ok (h : e.OperatorAt k pending op l r) {v : Int}
    (value : e.eval = .ok v) : ∃ u, (binary op l r).eval = .ok u := by
  induction h generalizing v with
  | root => exact ⟨v, value⟩
  | left inside ih =>
    obtain ⟨a, b, ha, _, _⟩ := eval_binary_eq_ok value
    exact ih ha
  | right inside ih =>
    obtain ⟨a, b, _, hb, _⟩ := eval_binary_eq_ok value
    exact ih hb

private theorem not_undefinedAt_of_ok {v : Int} (value : e.eval = .ok v) :
    ¬ e.UndefinedAt k pending cause := by
  rintro ⟨l, r, a, b, at_k, ha, hb, undefined⟩
  -- The division would have a value too, but its quotient has none.
  obtain ⟨u, defined⟩ := at_k.eval_eq_ok value
  obtain ⟨a', b', ha', hb', quotient⟩ := eval_binary_eq_ok defined
  cases ha.symm.trans ha'
  cases hb.symm.trans hb'
  cases undefined.symm.trans quotient

/-! The first undefined division of an operand, seen from the operator. -/

private theorem UndefinedAt.binary_cases (h : (binary op left right).UndefinedAt k pending cause) :
    left.UndefinedAt k pending cause ∨
    (∃ k' pending', k = left.code.length + k' ∧ right.UndefinedAt k' pending' cause) ∨
    k = left.code.length + right.code.length := by
  obtain ⟨l, r, a, b, at_k, values⟩ := h
  cases at_k with
  | root => exact .inr (.inr rfl)
  | left inside => exact .inl ⟨l, r, a, b, inside, values⟩
  | right inside => exact .inr (.inl ⟨_, _, rfl, l, r, a, b, inside, values⟩)

private theorem FirstUndefinedAt.of_left (h : left.FirstUndefinedAt k pending cause) :
    (binary op left right).FirstUndefinedAt k pending cause := by
  have within := h.1.lt_length
  obtain ⟨⟨l, r, a, b, inside, values⟩, first⟩ := h
  refine ⟨⟨l, r, a, b, .left inside, values⟩, ?_⟩
  intro j before pending' cause' undefined
  -- Whatever comes before `k` stands in the left operand as well.
  rcases undefined.binary_cases with inLeft | ⟨k', _, rfl, _⟩ | rfl
  · exact first j before _ _ inLeft
  · omega
  · omega

private theorem FirstUndefinedAt.of_right {a : Int} (value : left.eval = .ok a)
    (h : right.FirstUndefinedAt k pending cause) :
    (binary op left right).FirstUndefinedAt (left.code.length + k) (left :: pending) cause := by
  have within := h.1.lt_length
  obtain ⟨⟨l, r, a, b, inside, values⟩, first⟩ := h
  refine ⟨⟨l, r, a, b, .right inside, values⟩, ?_⟩
  intro j before pending' cause' undefined
  rcases undefined.binary_cases with inLeft | ⟨k', _, rfl, inRight⟩ | rfl
  · exact not_undefinedAt_of_ok value inLeft
  · exact first k' (by omega) _ _ inRight
  · omega

private theorem firstUndefinedAt_root {a b : Int} (leftValue : left.eval = .ok a)
    (rightValue : right.eval = .ok b) (undefined : exactQuotient a b = .error cause) :
    (binary .div left right).FirstUndefinedAt (left.code.length + right.code.length) [] cause := by
  refine ⟨⟨left, right, a, b, .root, leftValue, rightValue, undefined⟩, ?_⟩
  intro j before pending' cause' earlier
  rcases earlier.binary_cases with inLeft | ⟨k', _, rfl, inRight⟩ | rfl
  · exact not_undefinedAt_of_ok leftValue inLeft
  · exact not_undefinedAt_of_ok rightValue inRight
  · exact Nat.lt_irrefl _ before

end Positions

/-! ## Running the code -/

/-- How a run of the code of `e` on the stack `s` ends, told by the value of `e`: with the value on
top of `s`, or at the first undefined division, with the values of the pending left operands on top
of `s`. -/
inductive Computes (e : Expr) (s : OperandStack) : Except Fault Unit × OperandStack → Prop where
  | value {n : Int32} (value : e.eval = .ok n.toInt) :
      Computes e s (.ok (), s.push (.i32 n))
  | undefined {k : Nat} {pending : List Expr} {values : List Int32} {cause : Trap}
      (failed : e.eval = .error cause) (first : e.FirstUndefinedAt k pending cause)
      (computed : List.Forall₂ (fun l n => l.eval = .ok n.toInt) pending values) :
      Computes e s (.error (.trap k (.operator .div) cause),
        .ofList (s.toList ++ values.map .i32))

/-- The operator at the end of the code, when both operands have been computed. -/
private theorem computes_operator {op : Operator} {left right : Expr} {a b : Int32}
    (leftValue : left.eval = .ok a.toInt) (rightValue : right.eval = .ok b.toInt)
    (s : OperandStack) :
    let last := runAll [.operator op] ((s.push (.i32 a)).push (.i32 b))
    (binary op left right).Computes s
      (last.1.mapError (·.shift (left.code.length + right.code.length)), last.2) := by
  have exactly := op.toInt_apply a b
  cases result : op.apply a b with
  | ok n =>
    rw [runAll_cons_ok (Instruction.outcome_operator_of_ok s result)]
    rw [result] at exactly
    refine .value ?_
    simp only [eval, leftValue, rightValue]
    exact exactly.symm
  | error cause =>
    obtain ⟨rfl, _⟩ := Operator.eq_div_of_apply_error result
    rw [runAll_cons_trap (Instruction.outcome_operator_of_error s result)]
    rw [result] at exactly
    have failed : (binary .div left right).eval = .error cause := by
      simp only [eval, leftValue, rightValue]
      exact exactly.symm
    have first := firstUndefinedAt_root leftValue rightValue exactly.symm
    have ended := Computes.undefined (s := s) failed first .nil
    rw [List.map_nil, List.append_nil, OperandStack.ofList_toList] at ended
    exact ended

/-- From any stack, the code of an expression computes the expression. The induction is on the
expression, and the stack is left open: the right operand runs on what the left one leaves. -/
theorem computes_runAll_code (e : Expr) (s : OperandStack) : e.Computes s (runAll e.code s) := by
  induction e generalizing s with
  | const n => exact .value rfl
  | binary op left right ihLeft ihRight =>
    rw [code]
    have onLeft := ihLeft s
    generalize ranLeft : runAll left.code s = run at onLeft
    cases onLeft with
    | undefined failed first computed =>
      -- The left operand ends the run, and nothing is pending for this operator.
      rw [List.append_assoc, runAll_append_of_error ranLeft]
      refine .undefined ?_ first.of_left computed
      simp only [eval, failed]
      rfl
    | @value a leftValue =>
      have onRight := ihRight (s.push (.i32 a))
      generalize ranRight : runAll right.code (s.push (.i32 a)) = run at onRight
      cases onRight with
      | @undefined k pending values cause failed first computed =>
        -- The right operand ends the run, with the value of the left one below what it left.
        rw [List.append_assoc, runAll_append_of_ok ranLeft, runAll_append_of_error ranRight]
        have whole : (binary op left right).eval = .error cause := by
          simp only [eval, leftValue, failed]
          rfl
        have ended := Computes.undefined (s := s) whole (first.of_right leftValue)
          (.cons leftValue computed)
        rw [OperandStack.toList_push, List.append_assoc]
        exact ended
      | @value b rightValue =>
        have ranBoth : runAll (left.code ++ right.code) s =
            (.ok (), (s.push (.i32 a)).push (.i32 b)) := by
          rw [runAll_append_of_ok ranLeft, ranRight]
          rfl
        rw [runAll_append_of_ok ranBoth, List.length_append]
        exact computes_operator leftValue rightValue s

namespace Computes

variable {e : Expr} {s : OperandStack} {run : Except Fault Unit × OperandStack}

private theorem eq_push_of_value (h : e.Computes s run) {v : Int} (value : e.eval = .ok v) :
    ∃ n : Int32, n.toInt = v ∧ run = (.ok (), s.push (.i32 n)) := by
  cases h with
  | @value n value' =>
    cases value'.symm.trans value
    exact ⟨n, rfl, rfl⟩
  | undefined failed _ _ => cases failed.symm.trans value

private theorem exists_firstUndefinedAt (h : e.Computes s run) {cause : Trap}
    (failed : e.eval = .error cause) :
    ∃ k pending values, e.FirstUndefinedAt k pending cause ∧
      List.Forall₂ (fun l (n : Int32) => l.eval = .ok n.toInt) pending values ∧
      run = (.error (.trap k (.operator .div) cause), .ofList (s.toList ++ values.map .i32)) := by
  cases h with
  | value value => cases failed.symm.trans value
  | undefined failed' first computed =>
    cases failed'.symm.trans failed
    exact ⟨_, _, _, first, computed, rfl⟩

private theorem cause_of_fault (h : e.Computes s run) {f : Fault} (fault : run.1 = .error f) :
    f.cause? = some .divisionByZero ∨ f.cause? = some .integerOverflow := by
  cases h with
  | value _ => cases fault
  | undefined _ first _ =>
    cases fault
    obtain ⟨⟨_, _, a, b, _, _, _, undefined⟩, _⟩ := first
    rcases cause_of_exactQuotient undefined with rfl | rfl
    · exact .inl rfl
    · exact .inr rfl

end Computes

/-- Postfix code computes its expression, on whatever stack it runs.

- If `Expr.eval` gives the expression a value, the run succeeds and adds that value to the stack.
- If not, the run traps at the first undefined division of the code (`FirstUndefinedAt`), for the
  cause that division has. It leaves the stack it started with and on it, outermost first, the
  values of the left operands of those operators that were waiting for their right operand.
- No other fault can happen. -/
theorem runAll_code (e : Expr) (s : OperandStack) :
    (∀ v, e.eval = .ok v →
      ∃ n : Int32, n.toInt = v ∧ runAll e.code s = (.ok (), s.push (.i32 n))) ∧
    (∀ cause, e.eval = .error cause →
      ∃ k pending values, e.FirstUndefinedAt k pending cause ∧
        e.code[k]? = some (.operator .div) ∧
        List.Forall₂ (fun l (n : Int32) => l.eval = .ok n.toInt) pending values ∧
        runAll e.code s =
          (.error (.trap k (.operator .div) cause), .ofList (s.toList ++ values.map .i32))) ∧
    (∀ f, (runAll e.code s).1 = .error f →
      f.cause? = some .divisionByZero ∨ f.cause? = some .integerOverflow) := by
  have computes := e.computes_runAll_code s
  refine ⟨?_, ?_, ?_⟩
  · intro v value
    exact computes.eq_push_of_value value
  · intro cause failed
    obtain ⟨k, pending, values, first, computed, ended⟩ := computes.exists_firstUndefinedAt failed
    exact ⟨k, pending, values, first, first.1.getElem?_code, computed, ended⟩
  · intro f fault
    exact computes.cause_of_fault fault

/-- A difference of three and five on top of a nine, and a division by zero below two pending sums,
in front of a second one. -/
theorem runAll_code_examples :
    let s : OperandStack := .ofList [.i32 9]
    let difference : Expr := .binary .sub (.const 3) (.const 5)
    let undefined : Expr := .binary .div (.const 7) (.binary .sub (.const 2) (.const 2))
    let nested : Expr := .binary .add (.const 10)
      (.binary .mul (.binary .add (.const 4) undefined) undefined)
    (difference.eval = .ok (-2) ∧ runAll difference.code s = (.ok (), s.push (.i32 (-2)))) ∧
    (nested.eval = .error .divisionByZero ∧
      ∃ pending, nested.FirstUndefinedAt 6 pending .divisionByZero ∧
        runAll nested.code s = (.error (.trap 6 (.operator .div) .divisionByZero),
          .ofList [.i32 9, .i32 10, .i32 4])) := by
  intro s difference undefined nested
  have value : difference.eval = .ok (-2) := rfl
  have failed : nested.eval = .error .divisionByZero := rfl
  obtain ⟨n, hn, finished⟩ := (runAll_code difference s).1 (-2) value
  obtain ⟨k, pending, values, first, _, _, ended⟩ := (runAll_code nested s).2.1 _ failed
  have ran : runAll nested.code s = (.error (.trap 6 (.operator .div) .divisionByZero),
      .ofList [.i32 9, .i32 10, .i32 4]) := rfl
  have index : k = 6 := by
    have same := congrArg Prod.fst (ended.symm.trans ran)
    simpa using same
  subst index
  obtain rfl : n = -2 := Int32.toInt_inj.mp hn
  exact ⟨⟨value, finished⟩, failed, pending, first, ran⟩

end Expr

end Straightline
