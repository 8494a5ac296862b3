import Straightline.CommandLine
import Straightline.Proofs.Refinement

/-!
# What the run command shows

The command follows a machine on its own and writes a line for each step. What it shows is settled
by running the program: the trace has one line for each instruction that succeeds, with the stack
that a batch run of the instructions up to there leaves (`Program.trace`), and the rest of the
output and the exit code are those of the program's run (`RunAnswer`).
-/

namespace Straightline

/-! ## Traces -/

/-- The lines that show the first `n` instructions of a program, each with its number, its text and
the operands after it from bottom to top. The operands are those that `runAll` leaves. -/
def Program.trace (p : Program) (n : Nat) : List String :=
  (p.toList.take n).mapIdx fun k i =>
    let after := (runAll (p.toList.take (k + 1)) ({} : OperandStack)).2
    "[" ++ toString k ++ "] " ++ i.text ++ " -> [" ++
      ", ".intercalate (after.toList.map (·.text)) ++ "]"

namespace CommandLine

/-- The lines that show the first `n` of some instructions, numbered from `index` on and run on the
stack `s`. This is `Program.trace` in the middle of a run. -/
def traceFrom (index : Nat) (s : OperandStack) (is : List Instruction) (n : Nat) : List String :=
  (is.take n).mapIdx fun k i => traceLine (index + k) i (runAll (is.take (k + 1)) s).2

theorem trace_eq_traceFrom (p : Program) (n : Nat) : p.trace n = traceFrom 0 {} p.toList n := by
  unfold Program.trace traceFrom
  congr
  funext k i
  have bracket : " -> [" = " -> " ++ "[" := by decide
  simp only [traceLine, stackText, Nat.zero_add, bracket, String.append_assoc]

/-- The line of an instruction that succeeds comes first, and the others start from its stack. -/
private theorem traceFrom_succ {i : Instruction} {s t : OperandStack}
    (h : i.eval.outcome s = (.ok (), t)) (index : Nat) (is : List Instruction) (n : Nat) :
    traceFrom index s (i :: is) (n + 1) =
      traceLine index i t :: traceFrom (index + 1) t is n := by
  have head : (runAll [i] s).2 = t := by
    rw [runAll_cons_ok h]
    rfl
  have later : ∀ k, (runAll (i :: is.take (k + 1)) s).2 = (runAll (is.take (k + 1)) t).2 := by
    intro k
    rw [runAll_cons_ok h]
  simp only [traceFrom, List.take_succ_cons, List.mapIdx_cons, List.take_zero, Nat.add_zero, head,
    later, Nat.add_assoc, Nat.add_comm 1]

/-! ## Following a machine -/

/-- What following a machine through its remaining instructions shows, told by their batch run: a
line for each instruction that succeeds, and the final stack or the trap. -/
inductive Follows (m : Machine) (is : List Instruction) :
    Except Fault Unit × OperandStack → Session → Prop where
  | finished {s : OperandStack} {events : List Event} :
      Follows m is (.ok (), s)
        ⟨traceFrom m.counter m.stack is is.length, events, .ok s⟩
  | trapped {index : Nat} {opcode : Opcode} {cause : Trap} {s : OperandStack}
      {events : List Event} :
      Follows m is (.error (.trap index opcode cause), s)
        ⟨traceFrom m.counter m.stack is index, events,
          .error (.trap (m.counter + index) opcode cause)⟩

/-- An instruction that succeeds in front of the others adds its line to what following them
shows. -/
theorem Follows.cons {m : Machine} {i : Instruction} {is : List Instruction} {s : OperandStack}
    {batch : Except Fault Unit × OperandStack} {session : Session}
    (outcome : i.eval.outcome m.stack = (.ok (), s))
    (h : Follows { m with stack := s, counter := m.counter + 1 } is batch session)
    (events : List Event) :
    Follows m (i :: is) (batch.1.mapError (·.shift 1), batch.2)
      ⟨traceLine m.counter i s :: session.trace, events, session.outcome⟩ := by
  cases h with
  | finished =>
    rw [← traceFrom_succ outcome]
    exact .finished
  | @trapped index opcode cause t _ =>
    rw [← traceFrom_succ outcome]
    show Follows m (i :: is) (.error (.trap (1 + index) opcode cause), t)
      ⟨traceFrom m.counter m.stack (i :: is) (index + 1), events,
        .error (.trap (m.counter + 1 + index) opcode cause)⟩
    rw [Nat.add_assoc, Nat.add_comm index 1]
    exact .trapped

/-- `follow` shows the batch run of the remaining instructions. The induction is on these, for every
machine that has them left. -/
theorem follows_follow {m : Machine} {is : List Instruction}
    (rest : m.program.toList.drop m.counter = is) :
    Follows m is (runAll is m.stack) (follow is.length m) := by
  induction is generalizing m with
  | nil => exact .finished
  | cons i is ih =>
    obtain ⟨fetched, tail⟩ := Machine.current?_of_drop rest
    rcases outcome : i.eval.outcome m.stack with ⟨cause | _, s⟩
    · -- The first step fails: nothing is shown of it but the fault.
      have stepped := Machine.step_of_trap fetched outcome
      rw [runAll_cons_trap outcome, List.length_cons, follow, stepped]
      exact .trapped
    · -- The first step succeeds: its line comes before those of the rest.
      have stepped := Machine.step_of_ok fetched outcome
      let next : Machine := { m with stack := s, counter := m.counter + 1 }
      have after : Follows next is (runAll is s) (follow is.length next) := ih tail
      rw [runAll_cons_ok outcome, List.length_cons, follow, stepped, fetched]
      exact after.cons outcome _

/-! ## Transcripts of a run -/

private theorem unlines_append (front back : List String) :
    Listing.unlines (front ++ back) = Listing.unlines front ++ Listing.unlines back := by
  simp [Listing.unlines]

private theorem unlines_singleton (line : String) : Listing.unlines [line] = line ++ "\n" := by
  simp [Listing.unlines]

/-- The transcript of `runProgram` by how the program runs: the trace if it is asked for, then the
final stack, or the fault and exit code 2. All other records are of the log. -/
theorem runProgram_cases (path : String) (trace : Bool) (p : Program) :
    (∃ (s : OperandStack) (log : List LogRecord), p.run = .ok s ∧
      runProgram path trace p =
        { output := (if trace then p.trace p.size else []) ++ s.toList.map (·.text)
          records := log.map Record.log }) ∨
    (∃ (index : Nat) (opcode : Opcode) (cause : Trap) (log : List LogRecord),
      p.run = .error (.trap index opcode cause) ∧
      runProgram path trace p =
        { exitCode := 2
          output := if trace then p.trace index else []
          records := log.map Record.log ++
            [.diagnostic ("runtime error: " ++ (Fault.trap index opcode cause).message)] }) := by
  have follows : Follows (Machine.load p) p.toList (runAll p.toList {})
      (follow (Machine.load p).remaining (Machine.load p)) := follows_follow rfl
  rw [p.run_eq_runAll]
  unfold runProgram
  dsimp only
  generalize runAll p.toList ({} : OperandStack) = batch at follows ⊢
  generalize follow (Machine.load p).remaining (Machine.load p) = session at follows ⊢
  cases follows with
  | @finished s events =>
    -- The onlooker went through all lines, so the trace covers the whole program.
    refine .inl ⟨s, .running p.size path :: events.map .machine, rfl, ?_⟩
    rw [trace_eq_traceFrom]
    rfl
  | @trapped index opcode cause s events =>
    -- The machine was loaded at the start, so the fault keeps its index.
    refine .inr ⟨index, opcode, cause, .running p.size path :: events.map .machine, rfl, ?_⟩
    have counted : (Machine.load p).counter + index = index := Nat.zero_add index
    rw [trace_eq_traceFrom, counted]
    rfl

/-! ## The answer of the run command -/

/-- The answer of the run command on a file that holds `text`, in terms of reading the text
(`Program.ofListing`) and running the program (`Program.run`). -/
structure RunAnswer (text : String) (trace : Bool) (t : Transcript) : Prop where
  rejects_iff : t.exitCode = 1 ↔ ∃ e, Program.ofListing text = .error e
  rejected : ∀ e, Program.ofListing text = .error e →
    t.stdout = "" ∧ ∀ v, t.stderr v = "error: " ++ e.message ++ "\n"
  faults_iff : t.exitCode = 2 ↔ ∃ p f, Program.ofListing text = .ok p ∧ p.run = .error f
  /-- Only the instructions before the fault are shown, and no stack. -/
  faulted : ∀ p f, Program.ofListing text = .ok p → p.run = .error f →
    (∃ index opcode cause, f = .trap index opcode cause ∧
      t.stdout = Listing.unlines (if trace then p.trace index else [])) ∧
    ∀ v, ∃ log, t.stderr v = Listing.unlines log ++ ("runtime error: " ++ f.message ++ "\n")
  finishes_iff : t.exitCode = 0 ↔ ∃ p s, Program.ofListing text = .ok p ∧ p.run = .ok s
  finished : ∀ p s, Program.ofListing text = .ok p → p.run = .ok s →
    t.stdout =
      Listing.unlines ((if trace then p.trace p.size else []) ++ s.toList.map (·.text))

/-- Only log records stand before a diagnosis at the end, at any verbosity. -/
private theorem stderr_of_diagnostic {t : Transcript} {log : List LogRecord} {message : String}
    (h : t.records = log.map Record.log ++ [.diagnostic message]) (v : Verbosity) :
    ∃ lines, t.stderr v = Listing.unlines lines ++ (message ++ "\n") := by
  refine ⟨((log.map Record.log).filter (·.isShown v)).map (·.text), ?_⟩
  rw [Transcript.stderr, Transcript.shown, h, List.filter_append, List.map_append, unlines_append,
    ← unlines_singleton message]
  rfl

/-! One lemma for each way the command can end: with a mistake in the text, with a fault of the
program, with its final stack. -/

private theorem runAnswer_of_rejected {text : String} {e : SyntaxError}
    (unread : Program.ofListing text = .error e) (trace : Bool) :
    RunAnswer text trace (reject e.message) := by
  have code : (reject e.message).exitCode = 1 := rfl
  constructor
  case rejects_iff => simp [code, unread]
  case rejected =>
    intro e' unread'
    cases unread.symm.trans unread'
    refine ⟨rfl, fun v => ?_⟩
    exact unlines_singleton ("error: " ++ e.message)
  case faults_iff => simp [code, unread]
  case faulted => simp [unread]
  case finishes_iff => simp [code, unread]
  case finished => simp [unread]

private theorem runAnswer_of_faulted {text : String} {p : Program} {index : Nat} {opcode : Opcode}
    {cause : Trap} {trace : Bool} {t : Transcript} (read : Program.ofListing text = .ok p)
    (ran : p.run = .error (.trap index opcode cause)) (code : t.exitCode = 2)
    (shown : t.stdout = Listing.unlines (if trace then p.trace index else []))
    (diagnosis : ∀ v, ∃ log, t.stderr v = Listing.unlines log ++
      ("runtime error: " ++ (Fault.trap index opcode cause).message ++ "\n")) :
    RunAnswer text trace t := by
  constructor
  case rejects_iff => simp [code, read]
  case rejected => simp [read]
  case faults_iff => simp [code, read, ran]
  case faulted =>
    -- The text has one program and the program one fault.
    intro p' f read' ran'
    cases read.symm.trans read'
    cases ran.symm.trans ran'
    exact ⟨⟨index, opcode, cause, rfl, shown⟩, diagnosis⟩
  case finishes_iff => simp [code, read, ran]
  case finished =>
    intro p' s read' ran'
    cases read.symm.trans read'
    cases ran.symm.trans ran'

private theorem runAnswer_of_finished {text : String} {p : Program} {s : OperandStack}
    {trace : Bool}
    {t : Transcript} (read : Program.ofListing text = .ok p) (ran : p.run = .ok s)
    (code : t.exitCode = 0)
    (shown : t.stdout =
      Listing.unlines ((if trace then p.trace p.size else []) ++ s.toList.map (·.text))) :
    RunAnswer text trace t := by
  constructor
  case rejects_iff => simp [code, read]
  case rejected => simp [read]
  case faults_iff => simp [code, read, ran]
  case faulted =>
    intro p' f read' ran'
    cases read.symm.trans read'
    cases ran.symm.trans ran'
  case finishes_iff => simp [code, read, ran]
  case finished =>
    intro p' s' read' ran'
    cases read.symm.trans read'
    cases ran.symm.trans ran'
    exact shown

/-- Whatever the text of the file is, `Command.execute` gives the `RunAnswer` of it. -/
theorem runAnswer_execute (path : String) (trace : Bool) (text : String) :
    RunAnswer text trace ((Command.run path trace).execute (.ok text)) := by
  cases read : Program.ofListing text with
  | error e =>
    simp only [Command.execute, read]
    exact runAnswer_of_rejected read trace
  | ok p =>
    simp only [Command.execute, read]
    rcases runProgram_cases path trace p with ⟨s, log, ran, answer⟩ |
      ⟨index, opcode, cause, log, ran, answer⟩
    · rw [answer]
      exact runAnswer_of_finished read ran rfl rfl
    · rw [answer]
      exact runAnswer_of_faulted read ran rfl rfl (stderr_of_diagnostic rfl)

/-- Exit code 2 is for the run command on a program that ends in a fault, and for nothing else. -/
theorem of_exitCode_execute {c : Command} {source : Except ReadError String}
    (h : (c.execute source).exitCode = 2) :
    ∃ path trace text p f, c = .run path trace ∧ source = .ok text ∧
      Program.ofListing text = .ok p ∧ p.run = .error f := by
  cases source with
  | error e => cases h
  | ok text =>
    cases c with
    | run path trace =>
      obtain ⟨p, f, read, faulted⟩ := (runAnswer_execute path trace text).faults_iff.mp h
      exact ⟨path, trace, text, p, f, rfl, rfl, read, faulted⟩
    | format path =>
      -- Formatting ends with 0 or 1.
      cases read : Program.ofListing text with
      | error e =>
        simp only [Command.execute, read] at h
        cases h
      | ok p =>
        simp only [Command.execute, read] at h
        cases h

/-- The exit code of an answer, be it a refusal or a transcript. -/
def exitCode : Except Refusal Transcript → UInt8
  | .error refusal => refusal.exitCode
  | .ok transcript => transcript.exitCode

/-- A command answers by what reading its path gives, and by nothing else of `read`. -/
theorem respond_of_ok {arguments : List String} {c : Command}
    (parsed : Command.ofArguments arguments = .ok c) (read : String → Except ReadError String) :
    respond arguments read = .ok (c.execute (read c.path)) := by
  rw [respond, parsed]
  rfl

/-- The run command agrees with reading and running. The files are given by any function `read` from
paths to texts or failures.

- Where the arguments ask for a run of a file that can be read, with or without the trace, there is
  an answer, and it is the `RunAnswer` of its text: exit code, output and diagnosis are those that
  `Program.ofListing` and `Program.run` call for.
- Exit code 2 comes from such a run only, of a listing whose program ends in a fault. No other
  arguments and no other files lead to it. -/
theorem respond_run (arguments : List String) (read : String → Except ReadError String) :
    (∀ path trace text, Command.ofArguments arguments = .ok (.run path trace) →
      read path = .ok text →
      ∃ t, respond arguments read = .ok t ∧ RunAnswer text trace t) ∧
    (exitCode (respond arguments read) = 2 →
      ∃ path trace text p f, Command.ofArguments arguments = .ok (.run path trace) ∧
        read path = .ok text ∧ Program.ofListing text = .ok p ∧ p.run = .error f) := by
  constructor
  · intro path trace text parsed held
    refine ⟨(Command.run path trace).execute (.ok text), ?_, runAnswer_execute path trace text⟩
    rw [respond_of_ok parsed, Command.path, held]
  · intro h
    cases parsed : Command.ofArguments arguments with
    | error refusal =>
      -- A refusal has exit code 0 or 1.
      rw [respond, parsed] at h
      cases refusal <;> cases h
    | ok c =>
      rw [respond_of_ok parsed] at h
      obtain ⟨path, trace, text, p, f, rfl, held, listed, faulted⟩ := of_exitCode_execute h
      exact ⟨path, trace, text, p, f, rfl, held, listed, faulted⟩

/-- A traced run that traps at its third instruction. The file lies outside the working directory
and is named by its path from the root. -/
theorem respond_run_traced :
    let text := "i32.const 7\ndrop\ndrop"
    let root := FileTree.directory [("tmp", .directory [("a", .file text.toUTF8)])]
    let place : Place := ⟨.empty, [root]⟩
    ∃ t, respond ["run", "--trace", "/tmp/a"] place.readText = .ok t ∧
      t.exitCode = 2 ∧ t.stdout = "[0] i32.const 7 -> [i32:7]\n[1] drop -> []\n" := by
  have held : (Place.mk .empty [.directory
      [("tmp", .directory [("a", .file "i32.const 7\ndrop\ndrop".toUTF8)])]]).readText "/tmp/a" =
        .ok "i32.const 7\ndrop\ndrop" := by rfl
  have listed : Program.ofListing "i32.const 7\ndrop\ndrop" =
      .ok (.ofList [.const 7, .drop, .drop]) := by rfl
  have ran : (Program.ofList [.const 7, .drop, .drop]).run =
      .error (.trap 2 .drop .stackUnderflow) := by rfl
  intro text root place
  obtain ⟨t, answered, answer⟩ :=
    (respond_run ["run", "--trace", "/tmp/a"] place.readText).1 "/tmp/a" true text rfl held
  obtain ⟨⟨index, opcode, cause, trapped, shown⟩, _⟩ := answer.faulted _ _ listed ran
  cases trapped
  exact ⟨t, answered, answer.faults_iff.mpr ⟨_, _, listed, ran⟩, shown.trans (by decide)⟩

end CommandLine

end Straightline
