import Straightline.Program

/-!
# Traps, executions and operand stacks

What instructions are carried out on, and how that can fail.

- A `Trap` is the reason why one instruction cannot be carried out. A `Fault` is how a whole run
  ends early: a trap together with the place it happened at, or a counter past the program.
- An execution (`Exec`) changes a state and ends with a result or a trap. A trap does not undo what
  was done before it, so the outcome of an execution always has a final state (`Exec.outcome`).
- Instructions reach their operands only through the four operations of an `OperandStore`. Whatever
  provides these operations can run instructions.
- An `OperandStack` is the plain store: a stack that underflows when it is empty. A typed pop looks
  at the type before it removes anything. The view of a stack is the list of its operands from
  bottom to top (`OperandStack.toList`).
-/

namespace Straightline

/-! ## Traps and faults -/

/-- Why an instruction cannot be carried out. -/
inductive Trap where
  | stackUnderflow
  | typeMismatch (expected : ValueType) (found : Value)
  | divisionByZero
  | integerOverflow
  deriving DecidableEq, Repr

namespace Trap

/-- The wording of a trap. -/
def message : Trap → String
  | .stackUnderflow => "stack underflow"
  | .typeMismatch expected found =>
    "type mismatch: expected " ++ expected.text ++ ", found " ++ found.text
  | .divisionByZero => "integer divide by zero"
  | .integerOverflow => "integer overflow"

end Trap

/-- Why a run ends early. -/
inductive Fault where
  /-- The instruction with number `index` trapped. -/
  | trap (index : Nat) (opcode : Opcode) (cause : Trap)
  /-- No instruction has the number `counter` in a program of `size` instructions. -/
  | outOfRange (counter size : Nat)
  deriving DecidableEq, Repr

namespace Fault

/-- The wording of a fault. -/
def message : Fault → String
  | .trap index opcode cause =>
    cause.message ++ " at instruction " ++ toString index ++ " (" ++ opcode.mnemonic ++ ")"
  | .outOfRange counter size =>
    "program counter " ++ toString counter ++ " out of range (program length "
      ++ toString size ++ ")"

/-- The trap behind a fault, if there is one. -/
def cause? : Fault → Option Trap
  | .trap _ _ cause => some cause
  | .outOfRange _ _ => none

end Fault

/-! ## Executions -/

/-- A computation on a state that may trap and keeps the state it reached, also after a trap. -/
abbrev Exec (σ : Type) := ExceptT Trap (StateM σ)

namespace Exec

variable {σ τ α β : Type}

/-- The result of an execution from a state, and the state it leaves. -/
def outcome (x : Exec σ α) (s : σ) : Except Trap α × σ :=
  x.run.run s

/-- An execution on a part of a larger state; the rest of that state stays as it is. The part is
taken out by `part` and put back by `replace`, after a trap as well. -/
def onPart (part : σ → τ) (replace : τ → σ → σ) (x : Exec τ α) : Exec σ α := do
  let s ← get
  let (result, t) := x.outcome (part s)
  set (replace t s)
  MonadExcept.ofExcept result

@[simp]
theorem outcome_pure (a : α) (s : σ) : outcome (pure a) s = (.ok a, s) := rfl

@[simp]
theorem outcome_throw (cause : Trap) (s : σ) :
    outcome (throw cause : Exec σ α) s = (.error cause, s) := rfl

@[simp]
theorem outcome_get (s : σ) : outcome (get : Exec σ σ) s = (.ok s, s) := rfl

@[simp]
theorem outcome_set (s t : σ) : outcome (set t : Exec σ PUnit) s = (.ok ⟨⟩, t) := rfl

@[simp]
theorem outcome_modify (f : σ → σ) (s : σ) :
    outcome (modify f : Exec σ PUnit) s = (.ok ⟨⟩, f s) := rfl

@[simp]
theorem outcome_ofExcept (r : Except Trap α) (s : σ) :
    outcome (MonadExcept.ofExcept r : Exec σ α) s = (r, s) := by
  cases r <;> rfl

/-- A sequence goes on from the state of its first part, unless that part trapped. -/
theorem outcome_bind (x : Exec σ α) (f : α → Exec σ β) (s : σ) :
    outcome (x >>= f) s =
      match outcome x s with
      | (.ok a, t) => outcome (f a) t
      | (.error cause, t) => (.error cause, t) := by
  simp only [outcome, ExceptT.run_bind, StateT.run_bind]
  rcases x.run.run s with ⟨_ | _, _⟩ <;> rfl

@[simp]
theorem outcome_onPart (part : σ → τ) (replace : τ → σ → σ) (x : Exec τ α) (s : σ) :
    outcome (onPart part replace x) s =
      ((x.outcome (part s)).1, replace (x.outcome (part s)).2 s) := by
  simp [onPart, outcome_bind]

end Exec

/-! ## Operand stores -/

/-- A state that holds operands. -/
class OperandStore (σ : Type) where
  /-- Adds an operand on top. -/
  push : Value → σ → σ
  /-- Removes the top operand. -/
  pop : Exec σ Value
  /-- The top operand, left in place. -/
  peek : σ → Except Trap Value
  /-- Removes the top operand if it has the given type. -/
  popTyped : ValueType → Exec σ Value

/-! ## Operand stacks -/

/-- A stack of operands. -/
structure OperandStack where
  /-- The operands, the top one first. -/
  topFirst : List Value := []
  deriving DecidableEq, Repr

namespace OperandStack

/-- The stack of the given operands, listed from bottom to top. -/
def ofList (vs : List Value) : OperandStack := ⟨vs.reverse⟩

/-- The operands from bottom to top. -/
def toList (s : OperandStack) : List Value := s.topFirst.reverse

/-- The number of operands. -/
def size (s : OperandStack) : Nat := s.topFirst.length

/-- Whether there is no operand at all. -/
def isEmpty (s : OperandStack) : Bool := s.topFirst.isEmpty

/-- Adds an operand on top. -/
def push (v : Value) (s : OperandStack) : OperandStack := ⟨v :: s.topFirst⟩

/-- The top operand. -/
def top? (s : OperandStack) : Option Value := s.topFirst.head?

/-- The top operand, or an underflow. -/
def peek (s : OperandStack) : Except Trap Value :=
  match s.top? with
  | some v => .ok v
  | none => .error .stackUnderflow

/-- Removes the top operand, or underflows. An underflow leaves the stack as it was. -/
def pop : Exec OperandStack Value := do
  match (← get).topFirst with
  | [] => throw .stackUnderflow
  | v :: rest =>
    set (OperandStack.mk rest)
    pure v

/-- Removes the top operand if it has type `t`; a mismatch leaves the stack alone. -/
def popTyped (t : ValueType) : Exec OperandStack Value := do
  let v ← MonadExcept.ofExcept (peek (← get))
  if v.type = t then pop else throw (.typeMismatch t v)

instance : OperandStore OperandStack where
  push := push
  pop := pop
  peek := peek
  popTyped := popTyped

@[simp]
theorem toList_ofList (vs : List Value) : (ofList vs).toList = vs := by
  simp [ofList, toList]

@[simp]
theorem ofList_toList (s : OperandStack) : ofList s.toList = s := by
  simp [ofList, toList]

@[simp]
theorem toList_push (v : Value) (s : OperandStack) : (push v s).toList = s.toList ++ [v] := by
  simp [push, toList]

@[simp]
theorem length_toList (s : OperandStack) : s.toList.length = s.size := by
  simp [toList, size]

@[simp]
theorem outcome_pop_nil : Exec.outcome pop ⟨[]⟩ = (.error .stackUnderflow, ⟨[]⟩) := rfl

@[simp]
theorem outcome_pop_cons (v : Value) (rest : List Value) :
    Exec.outcome pop ⟨v :: rest⟩ = (.ok v, ⟨rest⟩) := rfl

/-- On a plain stack a typed pop is a pop: no operand has another type. -/
@[simp]
theorem outcome_popTyped (t : ValueType) (s : OperandStack) :
    Exec.outcome (popTyped t) s = Exec.outcome pop s := by
  obtain ⟨_ | ⟨⟨n⟩, rest⟩⟩ := s <;> cases t <;> rfl

end OperandStack

end Straightline
