import Straightline.Machine

/-!
# Operations as data

The uses of an operand store as data, so that a sequence of uses is a list (`Call`), and everything
that can be done to a machine: calls on it as a store, single steps and whole runs (`Operation`).
-/

namespace Straightline

/-! ## Calls on a store -/

/-- One use of an operand store: one of its four operations, or the evaluation of instructions on
it. -/
inductive Call where
  | push (v : Value)
  | pop
  | peek
  | popTyped (t : ValueType)
  | eval (i : Instruction)
  | runAll (is : List Instruction)
  deriving DecidableEq, Repr

/-- What a call answers: an operand, a trap of a single use, a fault of a run, or just that it is
done. -/
inductive Reply where
  | done
  | value (v : Value)
  | trap (cause : Trap)
  | fault (f : Fault)
  deriving DecidableEq, Repr

namespace Reply

/-- The answer of a call that yields an operand. -/
def ofValue : Except Trap Value → Reply
  | .ok v => .value v
  | .error cause => .trap cause

/-- The answer of a single instruction. -/
def ofEval : Except Trap Unit → Reply
  | .ok () => .done
  | .error cause => .trap cause

/-- The answer of a run. -/
def ofRun : Except Fault Unit → Reply
  | .ok () => .done
  | .error f => .fault f

end Reply

namespace Call

variable {σ : Type} [OperandStore σ]

/-- Carries out a call: its answer and the store after it. A call that fails may have changed the
store. -/
def perform : Call → σ → Reply × σ
  | .push v, s => (.done, OperandStore.push v s)
  | .pop, s => (OperandStore.pop.outcome s).map .ofValue id
  | .peek, s => (.ofValue (OperandStore.peek s), s)
  | .popTyped t, s => ((OperandStore.popTyped t).outcome s).map .ofValue id
  | .eval i, s => (i.eval.outcome s).map .ofEval id
  | .runAll is, s => (Straightline.runAll is s).map .ofRun id

end Call

/-! ## Operations of a machine -/

/-- Something to do with a machine: a call on it as an operand store, a step, or a run. -/
inductive Operation where
  /-- Uses the machine as an operand store. -/
  | call (c : Call)
  | step
  | run
  deriving DecidableEq, Repr

/-- The answer of an operation, with the machine after it and the events during it. -/
structure Response where
  reply : Reply
  machine : Machine
  events : List Event

namespace Response

/-- The answer of a step or a run. -/
def ofReport (r : Report) : Response := ⟨.ofRun r.result, r.machine, r.events⟩

end Response

namespace Operation

/-- Carries out an operation. Only steps report events. -/
def perform : Operation → Machine → Response
  | .call c, m =>
    let (reply, after) := c.perform m
    ⟨reply, after, []⟩
  | .step, m => .ofReport m.step
  | .run, m => .ofReport m.run

/-- Carries out operations one after the other, whatever each answers. A later operation starts from
the machine that the one before it leaves, after a failure too. -/
def performAll : List Operation → Machine → List Response
  | [], _ => []
  | op :: ops, m =>
    let response := op.perform m
    response :: performAll ops response.machine

end Operation

end Straightline
