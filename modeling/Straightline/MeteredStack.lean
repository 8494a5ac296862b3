import Straightline.OperandStack

/-!
# Stacks that refuse operands

A stack that numbers its typed pops from zero and refuses some of them by their numbers
(`RefusingStack`). A refused pop reports the operand it would have taken as one of a wrong type and
leaves it in place; it counts as a typed pop all the same. On an empty stack there is no operand to
refuse, and the pop underflows.

Which numbers are refused is told by a relation `refuses` on data that the stack carries. The
`MeteredStack` is the case of a list: it refuses the numbers that its list holds.
-/

namespace Straightline

variable {ρ α : Type} {refuses : ρ → Nat → Prop}

/-- An operand stack that counts its typed pops and refuses some of them: those with a number `k`
such that `refuses refused k`. -/
structure RefusingStack (refuses : ρ → Nat → Prop) where
  stack : OperandStack := {}
  /-- How many typed pops were asked for so far. -/
  typedPops : Nat := 0
  /-- What tells the numbers of the typed pops to refuse. -/
  refused : ρ
  deriving DecidableEq, Repr

namespace RefusingStack

/-- An execution on the stack inside. -/
def onStack (x : Exec OperandStack α) : Exec (RefusingStack refuses) α :=
  x.onPart (·.stack) fun stack m => { m with stack }

variable [∀ refused, DecidablePred (refuses refused)]

/-- Counts the pop, then refuses it or passes it on. -/
def popTyped (t : ValueType) : Exec (RefusingStack refuses) Value := do
  let m ← get
  set ({ m with typedPops := m.typedPops + 1 } : RefusingStack refuses)
  if refuses m.refused m.typedPops then
    let v ← MonadExcept.ofExcept m.stack.peek
    throw (.typeMismatch t v)
  else
    onStack (OperandStack.popTyped t)

instance : OperandStore (RefusingStack refuses) where
  push v m := { m with stack := m.stack.push v }
  pop := onStack OperandStack.pop
  peek m := m.stack.peek
  popTyped := popTyped

/-! ## Outcomes of a typed pop -/

/-- A refused pop takes nothing: it reports the top operand, or that there is none. -/
theorem outcome_popTyped_of_refused {m : RefusingStack refuses}
    (h : refuses m.refused m.typedPops) (t : ValueType) :
    (popTyped t).outcome m =
      (m.stack.peek.bind fun v => .error (.typeMismatch t v),
        ⟨m.stack, m.typedPops + 1, m.refused⟩) := by
  simp only [popTyped, Exec.outcome_bind, Exec.outcome_get, Exec.outcome_set, h, if_true,
    Exec.outcome_ofExcept]
  cases m.stack.peek with
  | ok v => rfl
  | error cause => rfl

/-- A pop that is not refused is one of the stack inside, and counted. -/
theorem outcome_popTyped_of_passed {m : RefusingStack refuses}
    (h : ¬ refuses m.refused m.typedPops) (t : ValueType) :
    (popTyped t).outcome m =
      (((OperandStack.popTyped t).outcome m.stack).1,
        ⟨((OperandStack.popTyped t).outcome m.stack).2, m.typedPops + 1, m.refused⟩) := by
  simp only [popTyped, onStack, Exec.outcome_bind, Exec.outcome_get, Exec.outcome_set, h, if_false,
    Exec.outcome_onPart]

end RefusingStack

/-- A stack that refuses the typed pops whose numbers stand in its list. -/
abbrev MeteredStack := RefusingStack fun (refused : List Nat) k => k ∈ refused

end Straightline
