import Straightline.CommandLine.Arguments
import Straightline.CommandLine.FileTree
import Straightline.Listing
import Straightline.Machine

/-!
# Commands

What the commands do with the text of a listing. Running follows the machine step by step, so that
each step can be shown; formatting prints the canonical listing. A listing that cannot be read or
assembled ends with exit code 1, a run that ends early with exit code 2.

What a command writes is a `Transcript`. Its error stream is a sequence of records, of which log
records are shown or not as the verbosity says; the other records are always shown.
-/

namespace Straightline.CommandLine

/-! ## Transcripts -/

/-- A record of the log: the start of a run, or an event of the machine. -/
inductive LogRecord where
  /-- A program of `size` instructions from `path` is about to run. -/
  | running (size : Nat) (path : String)
  | machine (event : Event)
  deriving DecidableEq, Repr

namespace LogRecord

/-- How severe a record is. -/
def level : LogRecord → Level
  | .running .. => .info
  | .machine event => event.level

/-- The log line of a record. -/
def text (r : LogRecord) : String :=
  let body := match r with
    | .running size path => "running instructions=" ++ toString size ++ " path=" ++ path
    | .machine event => event.text
  r.level.text ++ " " ++ body

end LogRecord

/-- A record of the error stream: one of the log, or a mistake that the command reports. -/
inductive Record where
  | log (r : LogRecord)
  | diagnostic (text : String)
  deriving DecidableEq, Repr

namespace Record

/-- Whether a record is shown. A record of the log is held against the verbosity by its level, a
diagnostic is shown always. -/
def isShown (verbosity : Verbosity) : Record → Bool
  | .log r => verbosity.shows r.level
  | .diagnostic _ => true

/-- The line of a record. -/
def text : Record → String
  | .log r => r.text
  | .diagnostic text => text

end Record

/-- What a command writes and how it ends. The records are kept whatever the verbosity is, so one
transcript tells the error stream at every verbosity (`Transcript.stderr`). -/
structure Transcript where
  exitCode : UInt8 := 0
  /-- The lines of the output. -/
  output : List String := []
  /-- The records of the error stream, whether shown or not. -/
  records : List Record := []
  deriving DecidableEq, Repr

namespace Transcript

/-- The text of the output. -/
def stdout (t : Transcript) : String :=
  Listing.unlines t.output

/-- The records that are shown at a verbosity, in order. -/
def shown (verbosity : Verbosity) (t : Transcript) : List Record :=
  t.records.filter (·.isShown verbosity)

/-- The text of the error stream at a verbosity: the lines of the records that are shown. -/
def stderr (verbosity : Verbosity) (t : Transcript) : String :=
  Listing.unlines ((t.shown verbosity).map (·.text))

end Transcript

/-! ## Following a run -/

/-- The operands of a stack in brackets, from bottom to top. -/
def stackText (s : OperandStack) : String :=
  "[" ++ ", ".intercalate (s.toList.map (·.text)) ++ "]"

/-- The line that shows a step: its number, its instruction and the stack after it, as in
`[0] i32.const 4 -> [i32:4]`. -/
def traceLine (counter : Nat) (i : Instruction) (after : OperandStack) : String :=
  "[" ++ toString counter ++ "] " ++ i.text ++ " -> " ++ stackText after

/-- A run as an onlooker sees it (`follow`). -/
structure Session where
  /-- One line for each successful step. -/
  trace : List String
  events : List Event
  /-- The final stack, or why the run ended early. -/
  outcome : Except Fault OperandStack

/-- Follows a machine for `n` steps, or up to the first that fails. Each successful step leaves a
line of the trace, and every step leaves its events. -/
def follow : Nat → Machine → Session
  | 0, m => ⟨[], [], .ok m.stack⟩
  | n + 1, m =>
    let report := m.step
    match report.result with
    | .error f => ⟨[], report.events, .error f⟩
    | .ok () =>
      let line? := m.current?.map fun i => traceLine m.counter i report.machine.stack
      let session := follow n report.machine
      { session with
        trace := line?.toList ++ session.trace
        events := report.events ++ session.events }

/-! ## Commands -/

/-- The end of a command that reports a mistake in its input: exit code 1 and no output. -/
def reject (message : String) : Transcript :=
  { exitCode := 1, records := [.diagnostic ("error: " ++ message)] }

/-- Runs a program from `path` and shows its final stack, one operand on each line from bottom to
top. The trace stands in front if it is asked for. A fault ends the run with exit code 2, and then
no stack is shown. -/
def runProgram (path : String) (trace : Bool) (p : Program) : Transcript :=
  let m := Machine.load p
  let session := follow m.remaining m
  let shown := if trace then session.trace else []
  let log := (LogRecord.running p.size path :: session.events.map .machine).map Record.log
  match session.outcome with
  | .ok stack =>
    { output := shown ++ stack.toList.map (·.text), records := log }
  | .error f =>
    { exitCode := 2
      output := shown
      records := log ++ [.diagnostic ("runtime error: " ++ f.message)] }

namespace Command

/-- Carries out a command on the text of its listing, if that could be read. The formatter prints
the canonical listing (`Program.lines`). -/
def execute (c : Command) (source : Except ReadError String) : Transcript :=
  match source with
  | .error e => reject ("cannot read '" ++ c.path ++ "': " ++ e.message)
  | .ok text =>
    match Program.ofListing text with
    | .error e => reject e.message
    | .ok p =>
      match c with
      | .run path trace => runProgram path trace p
      | .format _ => { output := p.lines }

end Command

/-- How the arguments are answered. What reading a path as text gives is told by `read`; a command
asks for its own path only, and only once. -/
def respond (arguments : List String) (read : String → Except ReadError String) :
    Except Refusal Transcript := do
  let c ← Command.ofArguments arguments
  return c.execute (read c.path)

end Straightline.CommandLine
