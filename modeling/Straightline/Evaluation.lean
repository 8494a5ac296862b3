import Straightline.OperandStack

/-!
# Evaluation

Evaluation of instructions against any operand store.

- The meaning of the operators is on signed words of 32 bits. Sums, differences and products wrap
  around, comparisons give one or zero, and division truncates toward zero. Division traps when the
  divisor is zero and when the quotient is not a word, which happens for the least word divided by
  minus one (`quotient`).
- An operator is carried out by `binary` or by `relational`, as its `Operator.meaning` says. Either
  takes the right operand first, so the operand pushed last is the right one; both are gone when the
  operator itself traps. In both cases the store sees the same as from `binary op.apply`
  (`Instruction.eval_operator`).
- A list of instructions is run in order up to the first trap, which is reported with its index
  (`runAll`).
-/

namespace Straightline

/-! ## Word arithmetic -/

/-- One for true and zero for false. -/
def wordOfBool (b : Bool) : Int32 :=
  if b then 1 else 0

/-- The quotient rounded toward zero, or why there is none: the divisor is zero, or the quotient of
the least word by minus one is no word. -/
def quotient (a b : Int32) : Except Trap Int32 :=
  if b = 0 then .error .divisionByZero
  else if a = Int32.minValue ∧ b = -1 then .error .integerOverflow
  else .ok (a / b)

namespace Operator

/-- What kind of an operator it is, with its function on the left and the right operand. -/
inductive Meaning where
  /-- A test, which leaves one or zero. -/
  | comparison (holds : Int32 → Int32 → Bool)
  /-- A computation, which may trap. -/
  | arithmetic (compute : Int32 → Int32 → Except Trap Int32)

/-- What an operator means on words. -/
def meaning : Operator → Meaning
  | .eq => .comparison fun a b => a == b
  | .ne => .comparison fun a b => a != b
  | .lt => .comparison fun a b => a < b
  | .gt => .comparison fun a b => a > b
  | .le => .comparison fun a b => a ≤ b
  | .ge => .comparison fun a b => a ≥ b
  | .add => .arithmetic fun a b => .ok (a + b)
  | .sub => .arithmetic fun a b => .ok (a - b)
  | .mul => .arithmetic fun a b => .ok (a * b)
  | .div => .arithmetic quotient

/-- The result of an operator on its left and right operand, whatever its `meaning` is. -/
def apply (op : Operator) (a b : Int32) : Except Trap Int32 :=
  match op.meaning with
  | .comparison holds => .ok (wordOfBool (holds a b))
  | .arithmetic compute => compute a b

end Operator

/-! ## Operands -/

variable {σ : Type} [OperandStore σ]

/-- Takes a word off the store. The store is asked for an operand of type `i32`; should it give one
that carries no such word, that operand is reported as one of a wrong type. -/
def popWord : Exec σ Int32 := do
  let v ← OperandStore.popTyped .i32
  match v.word? with
  | some n => pure n
  | none => throw (.typeMismatch .i32 v)

/-- Puts a word on the store. -/
def pushWord (n : Int32) : Exec σ Unit :=
  modify (OperandStore.push (.i32 n))

/-- The second check of `popWord` never fails, whatever the store is: every operand carries a word,
so a mismatch can only come from the store itself. -/
theorem popWord_eq :
    (popWord : Exec σ Int32) = OperandStore.popTyped .i32 >>= fun v => pure v.word := by
  simp only [popWord, Value.word?_eq]

/-! ## Instructions -/

/-- Replaces the two top operands by the result of `f` on them. The right operand is taken first. If
`f` traps, both are gone. -/
def binary (f : Int32 → Int32 → Except Trap Int32) : Exec σ Unit := do
  let right ← popWord
  let left ← popWord
  let result ← MonadExcept.ofExcept (f left right)
  pushWord result

/-- Replaces the two top operands by one or zero, as `holds` says of them. -/
def relational (holds : Int32 → Int32 → Bool) : Exec σ Unit :=
  binary fun left right => .ok (wordOfBool (holds left right))

namespace Instruction

/-- Carries out one instruction on an operand store. All traps but those of an operator itself come
from the operations of the store. -/
def eval : Instruction → Exec σ Unit
  | .nop => pure ()
  | .drop => do
    let _ ← OperandStore.pop
    pure ()
  | .const n => pushWord n
  | .operator op =>
    match op.meaning with
    | .comparison holds => relational holds
    | .arithmetic compute => binary compute

/-- Comparisons and arithmetic use the store in the same way, so an operator is known by the
function `Operator.apply` alone. -/
theorem eval_operator (op : Operator) : (operator op).eval = (binary op.apply : Exec σ Unit) := by
  cases op <;> rfl

end Instruction

/-! ## Lists of instructions -/

/-- Runs instructions in order up to the first trap. The first of them has number `index`, and a
trap is reported with the number of its instruction. The store is kept as the trap left it. -/
def runFrom (index : Nat) : List Instruction → σ → Except Fault Unit × σ
  | [], s => (.ok (), s)
  | i :: is, s =>
    match i.eval.outcome s with
    | (.ok (), t) => runFrom (index + 1) is t
    | (.error cause, t) => (.error (.trap index i.opcode cause), t)

/-- Runs instructions in order up to the first trap, numbered from zero (`runFrom`). -/
def runAll (is : List Instruction) (s : σ) : Except Fault Unit × σ :=
  runFrom 0 is s

end Straightline
