import Straightline.Evaluation

/-!
# The stepping machine

A machine holds a program, an operand stack and the number of the next instruction. A step runs that
instruction and moves on; a trap keeps the counter on the instruction that trapped (`Machine.step`).
A run takes as many steps as there are instructions left (`Machine.run`).

Every operation reports its events as data. An `Event` has a `Level`, and a `Verbosity` tells how
much of the levels is shown, from the most to the least severe.
-/

namespace Straightline

/-! ## Log levels -/

/-- How severe a log record is, from the most to the least severe. -/
inductive Level where
  | error
  | warn
  | info
  | debug
  | trace
  deriving DecidableEq, Repr

namespace Level

/-- The rank of a level: the less severe, the higher. -/
def rank : Level → Nat
  | .error => 1
  | .warn => 2
  | .info => 3
  | .debug => 4
  | .trace => 5

/-- The name of a level in a log line. -/
def text : Level → String
  | .error => "ERROR"
  | .warn => "WARN"
  | .info => "INFO"
  | .debug => "DEBUG"
  | .trace => "TRACE"

end Level

/-- How much of the log is shown. -/
inductive Verbosity where
  /-- Nothing is shown. -/
  | off
  /-- A level and the more severe ones are shown. -/
  | upTo (level : Level)
  deriving DecidableEq, Repr

namespace Verbosity

/-- Warnings and errors are shown unless something else is asked for. -/
instance : Inhabited Verbosity := ⟨.upTo .warn⟩

/-- The rank of the least severe level shown. -/
def rank : Verbosity → Nat
  | .off => 0
  | .upTo level => level.rank

/-- Whether records of a level are shown: their rank is not above that of the verbosity. -/
def shows (verbosity : Verbosity) (level : Level) : Bool :=
  level.rank ≤ verbosity.rank

/-- The verbosity with a given name, written in lower-case letters. -/
def ofName? : String → Option Verbosity
  | "off" => some .off
  | "error" => some (.upTo .error)
  | "warn" => some (.upTo .warn)
  | "info" => some (.upTo .info)
  | "debug" => some (.upTo .debug)
  | "trace" => some (.upTo .trace)
  | _ => none

end Verbosity

/-! ## Events -/

/-- A report of a stepping machine about one of its steps. -/
inductive Event where
  /-- The instruction at `counter` is about to run on a stack of `depth` operands. -/
  | step (counter : Nat) (instruction : Instruction) (depth : Nat)
  /-- The instruction at `counter` trapped. -/
  | trap (counter : Nat) (instruction : Instruction) (cause : Trap)
  deriving DecidableEq, Repr

namespace Event

/-- How severe an event is. -/
def level : Event → Level
  | .step .. => .trace
  | .trap .. => .debug

/-- The event and its fields, as a log line shows them. -/
def text : Event → String
  | .step counter instruction depth =>
    "step pc=" ++ toString counter ++ " instr=" ++ instruction.text ++ " depth=" ++ toString depth
  | .trap counter instruction cause =>
    "trap pc=" ++ toString counter ++ " instr=" ++ instruction.text ++ " error=" ++ cause.message

end Event

/-! ## Machines -/

/-- A program under execution: the operands it has left so far and how far it has come. -/
structure Machine where
  program : Program
  stack : OperandStack := {}
  /-- The number of the next instruction. -/
  counter : Nat := 0
  deriving DecidableEq, Repr

/-- How an operation of a machine went: its result, the machine after it, and the events during it.
There is a machine after a failure too. -/
structure Report where
  result : Except Fault Unit
  machine : Machine
  events : List Event

namespace Report

/-- Goes on with `next` after a success; the events of both parts are kept in order. -/
def andThen (r : Report) (next : Machine → Report) : Report :=
  match r.result with
  | .ok () =>
    let s := next r.machine
    { s with events := r.events ++ s.events }
  | .error _ => r

end Report

namespace Machine

variable {α : Type}

/-- A machine before the first instruction of a program, with no operands. -/
def load (p : Program) : Machine := { program := p }

/-- Whether no instruction is left. -/
def isFinished (m : Machine) : Bool := m.program.size ≤ m.counter

/-- The number of instructions left. -/
def remaining (m : Machine) : Nat := m.program.size - m.counter

/-- The next instruction. -/
def current? (m : Machine) : Option Instruction := m.program.get? m.counter

/-- An execution on the stack of the machine. The program and the counter stay as they are. -/
def onStack (x : Exec OperandStack α) : Exec Machine α :=
  x.onPart (·.stack) fun stack m => { m with stack }

instance : OperandStore Machine where
  push v m := { m with stack := m.stack.push v }
  pop := onStack OperandStack.pop
  peek m := m.stack.peek
  popTyped t := onStack (OperandStack.popTyped t)

/-- Runs the next instruction. The counter moves on if it succeeds; after a trap, it stays on the
instruction that trapped, with the stack as the instruction left it. With no instruction left, the
step fails and changes nothing. -/
def step (m : Machine) : Report :=
  match m.current? with
  | none => ⟨.error (.outOfRange m.counter m.program.size), m, []⟩
  | some i =>
    let started := Event.step m.counter i m.stack.size
    match i.eval.outcome m with
    | (.ok (), after) => ⟨.ok (), { after with counter := after.counter + 1 }, [started]⟩
    | (.error cause, after) =>
      ⟨.error (.trap m.counter i.opcode cause), after, [started, .trap m.counter i cause]⟩

/-- Takes `n` steps, fewer if one fails. -/
def steps : Nat → Machine → Report
  | 0, m => ⟨.ok (), m, []⟩
  | n + 1, m => m.step.andThen (steps n)

/-- Steps to the end of the program or to the first trap. On a finished machine there is nothing to
do, and that is a success. -/
def run (m : Machine) : Report := m.steps m.remaining

end Machine

namespace Program

/-- Runs a program on an empty stack to the stack it leaves. After a fault the stack is not told. -/
def run (p : Program) : Except Fault OperandStack :=
  let report := (Machine.load p).run
  report.result.map fun _ => report.machine.stack

end Program

end Straightline
