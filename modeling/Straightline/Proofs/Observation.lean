import Mathlib.Data.List.Basic
import Straightline.Proofs.Format

/-!
# Watching a run does not change it

A command can be watched in two ways: by the verbosity of its log and by the trace. Here the command
is written down once more as it happens (`Command.live`). Lines are printed and records are handed
to the log between the steps of the machine, and the log looks at the verbosity each time. What
comes out in the end is the transcript of the command with the records that the verbosity shows
(`Command.live_eq_execute`).

- A larger verbosity adds log records and nothing else (`Transcript.shown_sublist`).
- The trace flag can be added to the arguments wherever a flag is read, and it is all that changes
  in the command (`Command.ofArguments_add_trace`). The command then prints the lines of the trace
  in front of what it prints without it (`execute_run_trace`).
-/

namespace Straightline

/-- The number of instructions that `Program.run` carries out before it ends: all of them, or those
in front of the one that traps. -/
def Program.executed (p : Program) : Nat :=
  match p.run with
  | .ok _ => p.size
  | .error (.trap index _ _) => index
  | .error (.outOfRange counter _) => counter

namespace CommandLine

/-! ## Transcripts in sequence -/

namespace Transcript

/-- What is written by a first part of a command and then by a second one. The exit code is that of
the second part, which ends the command. -/
def andThen (t u : Transcript) : Transcript :=
  { exitCode := u.exitCode
    output := t.output ++ u.output
    records := t.records ++ u.records }

private theorem shown_andThen (v : Verbosity) (t u : Transcript) :
    (t.andThen u).shown v = t.shown v ++ u.shown v :=
  List.filter_append t.records u.records

end Transcript

/-! ## Writing as it happens -/

/-- What a command has written so far, on its two streams. -/
structure Console where
  /-- The lines of the output. -/
  output : List String := []
  /-- The records of the error stream that were let through. -/
  errors : List Record := []
  deriving DecidableEq, Repr

namespace Console

/-- Prints a line. -/
def print (c : Console) (line : String) : Console :=
  { c with output := c.output ++ [line] }

/-- Reports a mistake as a `Record.diagnostic`, whatever the verbosity is. -/
def complain (c : Console) (message : String) : Console :=
  { c with errors := c.errors ++ [.diagnostic message] }

/-- Hands a record to the log, which looks at its level (`Verbosity.shows`) and lets it through or
not. -/
def log (v : Verbosity) (c : Console) (r : LogRecord) : Console :=
  if v.shows r.level then { c with errors := c.errors ++ [.log r] } else c

end Console

/-- Follows a machine for `n` steps, or up to the first that fails. In each step the log comes first
and then the line of the trace; the final stack is printed after the last step. -/
def watch (v : Verbosity) (trace : Bool) : Nat → Machine → Console → UInt8 × Console
  | 0, m, c => (0, (m.stack.toList.map (·.text)).foldl Console.print c)
  | n + 1, m, c =>
    let report := m.step
    let logged := (report.events.map LogRecord.machine).foldl (Console.log v) c
    match report.result with
    | .error f => (2, logged.complain ("runtime error: " ++ f.message))
    | .ok () =>
      let line? := m.current?.map fun i => traceLine m.counter i report.machine.stack
      let shown := if trace then line?.toList else []
      watch v trace n report.machine (shown.foldl Console.print logged)

/-- Carries out a command at a verbosity: the exit code, and what was written up to then. Unlike in
`Command.execute`, no record is kept that the verbosity does not show. -/
def Command.live (v : Verbosity) (c : Command) (source : Except ReadError String) :
    UInt8 × Console :=
  let console : Console := {}
  match source with
  | .error e =>
    (1, console.complain ("error: " ++ ("cannot read '" ++ c.path ++ "': " ++ e.message)))
  | .ok text =>
    match Program.ofListing text with
    | .error e => (1, console.complain ("error: " ++ e.message))
    | .ok p =>
      match c with
      | .run path trace =>
        let m := Machine.load p
        watch v trace m.remaining m (console.log v (.running p.size path))
      | .format _ => (0, p.lines.foldl Console.print console)

/-- How the arguments are answered at a verbosity, as it happens. As for `respond`, what reading a
path as text gives is told by `read`. -/
def respondLive (v : Verbosity) (arguments : List String)
    (read : String → Except ReadError String) : Except Refusal (UInt8 × Console) := do
  let c ← Command.ofArguments arguments
  return c.live v (read c.path)

/-! ## The transcript is what comes out -/

namespace Console

/-- The console with the output of a transcript, and the records of it that are shown, behind what
is there. -/
def extend (v : Verbosity) (c : Console) (t : Transcript) : Console :=
  ⟨c.output ++ t.output, c.errors ++ t.shown v⟩

variable (v : Verbosity)

private theorem extend_andThen (c : Console) (t u : Transcript) :
    c.extend v (t.andThen u) = (c.extend v t).extend v u := by
  simp only [extend, Transcript.shown_andThen, List.append_assoc]
  rfl

private theorem extend_empty (t : Transcript) :
    ({} : Console).extend v t = ⟨t.output, t.shown v⟩ := by
  simp only [extend, List.nil_append]

private theorem complain_eq (c : Console) (message : String) :
    c.complain message = c.extend v { records := [.diagnostic message] } := by
  simp [complain, extend, Transcript.shown, Record.isShown]

private theorem log_eq (c : Console) (r : LogRecord) :
    c.log v r = c.extend v { records := [.log r] } := by
  cases shown : v.shows r.level with
  | true => simp [log, extend, Transcript.shown, Record.isShown, shown]
  | false => simp [log, extend, Transcript.shown, Record.isShown, shown]

private theorem print_eq (c : Console) (line : String) :
    c.print line = c.extend v { output := [line] } := by
  simp [print, extend, Transcript.shown]

private theorem foldl_print (lines : List String) (c : Console) :
    lines.foldl print c = c.extend v { output := lines } := by
  induction lines generalizing c with
  | nil => simp [extend, Transcript.shown]
  | cons line lines ih =>
    rw [List.foldl_cons, ih, print_eq v, ← extend_andThen]
    rfl

private theorem foldl_log (records : List LogRecord) (c : Console) :
    records.foldl (log v) c = c.extend v { records := records.map Record.log } := by
  induction records generalizing c with
  | nil => simp [extend, Transcript.shown]
  | cons r records ih =>
    rw [List.foldl_cons, ih, log_eq, ← extend_andThen]
    rfl

end Console

/-- What a session leaves in the transcript of a run: the trace if it is asked for, the records of
the machine, and then the final stack or the fault. -/
def Session.transcript (trace : Bool) (s : Session) : Transcript :=
  let shown := if trace then s.trace else []
  let log := (s.events.map LogRecord.machine).map Record.log
  match s.outcome with
  | .ok stack => { output := shown ++ stack.toList.map (·.text), records := log }
  | .error f =>
    { exitCode := 2
      output := shown
      records := log ++ [.diagnostic ("runtime error: " ++ f.message)] }

/-- What a step that succeeds leaves in the transcript of a run. -/
def stepTranscript (trace : Bool) (m : Machine) : Transcript :=
  let line? := m.current?.map fun i => traceLine m.counter i m.step.machine.stack
  { output := if trace then line?.toList else []
    records := (m.step.events.map LogRecord.machine).map Record.log }

private theorem transcript_follow_of_error {m : Machine} {f : Fault}
    (failed : m.step.result = .error f)
    (trace : Bool) (n : Nat) :
    (follow (n + 1) m).transcript trace =
      { exitCode := 2
        records := (m.step.events.map LogRecord.machine).map Record.log ++
          [.diagnostic ("runtime error: " ++ f.message)] } := by
  simp only [follow, failed, Session.transcript, ite_self]

private theorem transcript_follow_of_ok {m : Machine} (succeeded : m.step.result = .ok ())
    (trace : Bool) (n : Nat) :
    (follow (n + 1) m).transcript trace =
      (stepTranscript trace m).andThen ((follow n m.step.machine).transcript trace) := by
  simp only [follow, succeeded]
  -- The step stands in front of the rest, however that ends.
  rcases follow n m.step.machine with ⟨lines, events, f | stack⟩
  · cases trace <;> simp [Session.transcript, stepTranscript, Transcript.andThen]
  · cases trace <;> simp [Session.transcript, stepTranscript, Transcript.andThen]

/-- Watching a machine comes to the transcript of the session that `follow` finds, shown at the
verbosity. The induction is on the number of steps. -/
theorem watch_eq_follow (v : Verbosity) (trace : Bool) (n : Nat) (m : Machine) (c : Console) :
    watch v trace n m c = (((follow n m).transcript trace).exitCode,
      c.extend v ((follow n m).transcript trace)) := by
  -- Each step extends the console by its own transcript, and the rest goes on from there.
  induction n generalizing m c with
  | zero =>
    rw [watch, Console.foldl_print v]
    simp [follow, Session.transcript]
  | succ n ih =>
    rw [watch]
    cases result : m.step.result with
    | error f =>
      rw [transcript_follow_of_error result]
      simp only [Console.foldl_log, Console.complain_eq v, ← Console.extend_andThen]
      rfl
    | ok =>
      rw [transcript_follow_of_ok result, Console.extend_andThen]
      simp only [ih, Console.foldl_log, Console.foldl_print v, ← Console.extend_andThen]
      simp [stepTranscript, Transcript.andThen]

/-- The transcript of a run is the first record and then the transcript of the session. -/
theorem runProgram_eq_andThen (path : String) (trace : Bool) (p : Program) :
    runProgram path trace p =
      Transcript.andThen { records := [.log (.running p.size path)] }
        ((follow (Machine.load p).remaining (Machine.load p)).transcript trace) := by
  unfold runProgram
  dsimp only
  rcases follow (Machine.load p).remaining (Machine.load p) with ⟨lines, events, f | stack⟩
  · rfl
  · rfl

/-- `Command.live` writes what the transcript of `Command.execute` says, with the records that the
verbosity shows. -/
theorem Command.live_eq_execute (v : Verbosity) (c : Command) (source : Except ReadError String) :
    c.live v source = ((c.execute source).exitCode,
      ⟨(c.execute source).output, (c.execute source).shown v⟩) := by
  rw [← Console.extend_empty]
  unfold live execute
  cases source with
  | error e =>
    dsimp only
    rw [Console.complain_eq v]
    rfl
  | ok text =>
    dsimp only
    cases Program.ofListing text with
    | error e =>
      dsimp only
      rw [Console.complain_eq v]
      rfl
    | ok p =>
      cases c with
      | run path trace =>
        -- The record of the start is on the console before the first step.
        dsimp only
        rw [watch_eq_follow, Console.log_eq, ← Console.extend_andThen, runProgram_eq_andThen]
        rfl
      | format path =>
        dsimp only
        rw [Console.foldl_print v]

/-! ## Verbosity -/

namespace Record

/-- Whether a record belongs to the log. The other records are the mistakes that are reported. -/
def isLog : Record → Bool
  | .log _ => true
  | .diagnostic _ => false

/-- What a verbosity shows, a larger one shows too. -/
private theorem isShown_of_rank_le {v w : Verbosity} (larger : v.rank ≤ w.rank) {r : Record}
    (shown : r.isShown v = true) : r.isShown w = true := by
  cases r with
  | diagnostic message => rfl
  | log r =>
    simp only [isShown, Verbosity.shows, decide_eq_true_eq] at shown ⊢
    exact Nat.le_trans shown larger

end Record

namespace Transcript

/-- What is shown at a verbosity is a subsequence of what is shown at a larger one. -/
theorem shown_sublist {v w : Verbosity} (larger : v.rank ≤ w.rank) (t : Transcript) :
    (t.shown v).Sublist (t.shown w) := by
  apply List.monotone_filter_right
  intro r shown
  exact Record.isShown_of_rank_le larger shown

/-- No verbosity hides a record that is not of the log (`Record.isLog`). -/
theorem filter_isLog_shown (v : Verbosity) (t : Transcript) :
    (t.shown v).filter (!·.isLog) = t.records.filter (!·.isLog) := by
  unfold shown
  rw [List.filter_filter]
  apply List.filter_congr
  intro r _
  cases r with
  | log r => rfl
  | diagnostic message => rfl

end Transcript

/-! ## The trace flag in the arguments -/

namespace Options

private theorem takePath_with_trace (o : Options) (text : String) :
    { o with trace := true }.takePath text =
      (o.takePath text).map fun o => { o with trace := true } := by
  unfold takePath
  split
  · rfl
  · rfl

private theorem trace_of_takePath {o o' : Options} {text : String}
    (taken : o.takePath text = .ok o') :
    o'.trace = o.trace := by
  unfold takePath at taken
  split at taken
  · cases taken
  · cases taken
    rfl

/-- The trace flag is the only long flag that does not end the reading. -/
private theorem eq_of_takeLongFlag {allowTrace : Bool} {o o' : Options} {name : String}
    (taken : o.takeLongFlag allowTrace name = .ok o') : o' = { o with trace := true } := by
  unfold takeLongFlag at taken
  split at taken
  · cases taken
  · split at taken
    · cases taken
      rfl
    · cases taken

/-- The trace flag stays set. -/
private theorem trace_of_read {allowTrace pathsOnly : Bool} {o o' : Options} {rest : List String}
    (h : read allowTrace pathsOnly o rest = .ok o') (set : o.trace = true) : o'.trace = true := by
  induction rest generalizing pathsOnly o with
  | nil =>
    cases h
    exact set
  | cons text rest ih =>
    unfold read at h
    split at h
    · obtain ⟨o₁, taken, others⟩ := bind_eq_ok_iff.mp h
      exact ih others ((trace_of_takePath taken).trans set)
    · split at h
      · exact ih h set
      · obtain ⟨o₁, taken, others⟩ := bind_eq_ok_iff.mp h
        exact ih others (by rw [eq_of_takeLongFlag taken])
      · cases h
      · obtain ⟨o₁, taken, others⟩ := bind_eq_ok_iff.mp h
        exact ih others ((trace_of_takePath taken).trans set)

/-- Arguments without the trace flag are read in the same way where it was set before. -/
private theorem read_with_trace {allowTrace pathsOnly : Bool} {o o' : Options} {rest : List String}
    (h : read allowTrace pathsOnly o rest = .ok o') (unset : o'.trace = false) :
    read allowTrace pathsOnly { o with trace := true } rest = .ok { o' with trace := true } := by
  induction rest generalizing pathsOnly o with
  | nil =>
    cases h
    rfl
  | cons text rest ih =>
    -- A path is taken whether the flag is set or not.
    have onPath : ∀ {mode : Bool} {path : String},
        (o.takePath path >>= fun o₁ => read allowTrace mode o₁ rest) = .ok o' →
        ({ o with trace := true }.takePath path >>= fun o₁ => read allowTrace mode o₁ rest) =
          .ok { o' with trace := true } := by
      intro mode path h
      obtain ⟨o₁, taken, others⟩ := bind_eq_ok_iff.mp h
      rw [takePath_with_trace, taken]
      exact ih others
    unfold read at h ⊢
    cases pathsOnly with
    | true => exact onPath h
    | false =>
      cases form : Argument.ofString text with
      | endOfFlags =>
        simp only [form] at h ⊢
        exact ih h
      | longFlag name =>
        -- A long flag sets what is not set in the end.
        simp only [form] at h
        obtain ⟨o₁, taken, others⟩ := bind_eq_ok_iff.mp h
        have set := trace_of_read others (by rw [eq_of_takeLongFlag taken])
        rw [unset] at set
        cases set
      | shortFlags first others =>
        simp only [form] at h
        cases h
      | path text =>
        simp only [form] at h ⊢
        exact onPath h

/-- Only two dashes say that no flag follows. -/
private theorem eq_of_endOfFlags {text : String} (form : Argument.ofString text = .endOfFlags) :
    text = "--" := by
  unfold Argument.ofString at form
  split at form
  case h_1 dashes => exact String.toList_injective dashes
  all_goals cases form

/-- While flags are read, that is, in front of `--`, the reading can be interrupted and taken up
again with the options found so far. -/
theorem read_append {allowTrace : Bool} {before : List String} (flags : "--" ∉ before)
    (o : Options) (rest : List String) :
    read allowTrace false o (before ++ rest) =
      read allowTrace false o before >>= fun o' => read allowTrace false o' rest := by
  induction before generalizing o with
  | nil => rfl
  | cons text before ih =>
    have others : "--" ∉ before := fun later => flags (List.mem_cons_of_mem text later)
    rw [List.cons_append, read, read]
    cases form : Argument.ofString text with
    | endOfFlags =>
      -- Behind the two dashes the mode would be another one.
      rw [eq_of_endOfFlags form] at flags
      exact absurd List.mem_cons_self flags
    | longFlag name =>
      cases taken : o.takeLongFlag allowTrace name with
      | error refusal =>
        simp only [taken]
        rfl
      | ok o₁ =>
        simp only [taken]
        exact ih others o₁
    | shortFlags first rest => rfl
    | path text =>
      cases taken : o.takePath text with
      | error refusal =>
        simp only [taken]
        rfl
      | ok o₁ =>
        simp only [taken]
        exact ih others o₁

end Options

namespace Command

private theorem ofArguments_run_eq_ok_iff {rest : List String} {path : String} {trace : Bool} :
    ofArguments ("run" :: rest) = .ok (.run path trace) ↔
      ∃ o, Options.read true false {} rest = .ok o ∧ o.path = .ok path ∧ o.trace = trace := by
  have parts : ofArguments ("run" :: rest) = (Options.read true false {} rest >>= fun o =>
      o.path >>= fun path => .ok (.run path o.trace)) := rfl
  rw [parts]
  simp only [bind_eq_ok_iff, Except.ok.injEq, run.injEq]
  refine ⟨?_, ?_⟩
  · intro ⟨o, reading, path', found, same, trace⟩
    exact ⟨o, reading, same ▸ found, trace⟩
  · intro ⟨o, reading, found, trace⟩
    exact ⟨o, reading, path, found, rfl, trace⟩

/-- The flag `--trace` can be added wherever flags are read, and all it does to the command is to
set its trace. -/
theorem ofArguments_add_trace {before after : List String} {path : String}
    (flags : "--" ∉ before)
    (parsed : ofArguments ("run" :: (before ++ after)) = .ok (.run path false)) :
    ofArguments ("run" :: (before ++ "--trace" :: after)) = .ok (.run path true) := by
  obtain ⟨o, reading, found, unset⟩ := ofArguments_run_eq_ok_iff.mp parsed
  rw [Options.read_append flags] at reading
  obtain ⟨o₁, first, second⟩ := bind_eq_ok_iff.mp reading
  -- The flag is not set in the end, so it is not set where it is added.
  have free : o₁.trace = false := by
    cases set : o₁.trace with
    | false => rfl
    | true =>
      rw [Options.trace_of_read second set] at unset
      cases unset
  have flag : o₁.takeLongFlag true "trace" = .ok { o₁ with trace := true } := by
    simp [Options.takeLongFlag, free]
  have form : Argument.ofString "--trace" = .longFlag "trace" := by decide
  apply ofArguments_run_eq_ok_iff.mpr
  refine ⟨{ o with trace := true }, ?_, found, rfl⟩
  rw [Options.read_append flags, first]
  show Options.read true false o₁ ("--trace" :: after) = _
  rw [Options.read]
  simp only [form, flag]
  exact Options.read_with_trace second unset

end Command

/-! ## The trace in the output -/

/-- The lines of the trace for what was read: those of the instructions that are carried out
(`Program.executed`), and none if there is no program. -/
def traceLines (source : Except ReadError String) : List String :=
  match source with
  | .error _ => []
  | .ok text =>
    match Program.ofListing text with
    | .error _ => []
    | .ok p => p.trace p.executed

private theorem records_runProgram_trace (path : String) (p : Program) :
    (runProgram path true p).records = (runProgram path false p).records := by
  unfold runProgram
  dsimp only
  rcases follow (Machine.load p).remaining (Machine.load p) with ⟨lines, events, f | stack⟩
  · rfl
  · rfl

private theorem output_runProgram_trace (path : String) (p : Program) :
    (runProgram path true p).exitCode = (runProgram path false p).exitCode ∧
      (runProgram path true p).output = p.trace p.executed ++ (runProgram path false p).output := by
  -- The program has one run, so both commands finish or both report its trap.
  rcases runProgram_cases path true p with ⟨s, _, ran, traced⟩ | ⟨k, op, cause, _, ran, traced⟩
  · rcases runProgram_cases path false p with ⟨s', _, ran', plain⟩ | ⟨_, _, _, _, ran', _⟩
    · cases ran.symm.trans ran'
      rw [traced, plain]
      simp [Program.executed, ran]
    · cases ran.symm.trans ran'
  · rcases runProgram_cases path false p with ⟨_, _, ran', _⟩ | ⟨_, _, _, _, ran', plain⟩
    · cases ran.symm.trans ran'
    · cases ran.symm.trans ran'
      rw [traced, plain]
      simp [Program.executed, ran]

/-- With the trace, the run command prints its `traceLines` in front of all else. The exit code, the
rest of the output and the records stay the same. -/
theorem execute_run_trace (path : String) (source : Except ReadError String) :
    let traced := (Command.run path true).execute source
    let plain := (Command.run path false).execute source
    traced.exitCode = plain.exitCode ∧ traced.records = plain.records ∧
      traced.output = traceLines source ++ plain.output := by
  unfold Command.execute traceLines
  cases source with
  | error e => exact ⟨rfl, rfl, rfl⟩
  | ok text =>
    dsimp only
    cases Program.ofListing text with
    | error e => exact ⟨rfl, rfl, rfl⟩
    | ok p =>
      obtain ⟨code, output⟩ := output_runProgram_trace path p
      exact ⟨code, records_runProgram_trace path p, output⟩

/-! ## Two runs of a command -/

/-- What is written as it happens is the transcript of `respond_of_ok`, as far as it is shown. -/
theorem respondLive_of_ok {arguments : List String} {c : Command}
    (parsed : Command.ofArguments arguments = .ok c) (read : String → Except ReadError String)
    (v : Verbosity) :
    respondLive v arguments read =
      .ok ((c.execute (read c.path)).exitCode,
        ⟨(c.execute (read c.path)).output, (c.execute (read c.path)).shown v⟩) := by
  rw [respondLive, parsed]
  show Except.ok (c.live v (read c.path)) = _
  rw [Command.live_eq_execute]

/-- Observing a command does not influence it. Take arguments that ask for a command, and any files,
given by a function `read` from paths to texts or failures.

- At every verbosity the command, written down as it happens (`respondLive`), writes what its
  transcript (`respond`) says, with all records that are not of the log.
- At two verbosities, the exit code and the output are the same. The records at the smaller one are
  a subsequence of those at the larger one, and the records that are not of the log are the same.
- The trace flag can be added to a run wherever flags are read. Then the exit code and the records
  are the same at every verbosity, and the `traceLines` are printed in front of the output. -/
theorem observation_changes_nothing (arguments : List String)
    (read : String → Except ReadError String) (c : Command)
    (parsed : Command.ofArguments arguments = .ok c) :
    (∃ t, respond arguments read = .ok t ∧
      ∀ v, respondLive v arguments read = .ok (t.exitCode, ⟨t.output, t.shown v⟩) ∧
        (t.shown v).filter (!·.isLog) = t.records.filter (!·.isLog)) ∧
    (∀ v w : Verbosity, v.rank ≤ w.rank → ∃ code a b,
      respondLive v arguments read = .ok (code, a) ∧
      respondLive w arguments read = .ok (code, b) ∧
      a.output = b.output ∧ a.errors.Sublist b.errors ∧
      a.errors.filter (!·.isLog) = b.errors.filter (!·.isLog)) ∧
    (∀ path before after, c = .run path false → arguments = "run" :: (before ++ after) →
      "--" ∉ before → ∀ v, ∃ code a b,
        respondLive v arguments read = .ok (code, a) ∧
        respondLive v ("run" :: (before ++ "--trace" :: after)) read = .ok (code, b) ∧
        b.errors = a.errors ∧
        b.output = traceLines (read path) ++ a.output) := by
  refine ⟨?_, ?_, ?_⟩
  · refine ⟨_, respond_of_ok parsed read, ?_⟩
    intro v
    exact ⟨respondLive_of_ok parsed read v, Transcript.filter_isLog_shown v _⟩
  · intro v w larger
    refine ⟨_, _, _, respondLive_of_ok parsed read v, respondLive_of_ok parsed read w, rfl,
      Transcript.shown_sublist larger _, ?_⟩
    rw [Transcript.filter_isLog_shown, Transcript.filter_isLog_shown]
  · intro path before after untraced split flags v
    subst untraced split
    -- Both argument lists ask for the same path, so both commands get the same text.
    have added := Command.ofArguments_add_trace flags parsed
    obtain ⟨code, records, output⟩ := execute_run_trace path (read path)
    have live := respondLive_of_ok added read v
    rw [Command.path, code] at live
    refine ⟨_, _, _, respondLive_of_ok parsed read v, live, ?_, output⟩
    show Transcript.shown v _ = Transcript.shown v _
    unfold Transcript.shown
    rw [records]
    rfl

/-- A division by zero, seen at two verbosities, and with the trace flag behind the path. The file
lies next to the working directory. -/
theorem observation_changes_nothing_division :
    let text := "i32.const 4\ni32.const 0\ni32.div_s"
    let place : Place := ⟨.empty, [.directory [("a", .file text.toUTF8)]]⟩
    let read := place.readText
    Command.ofArguments ["run", "../a"] = .ok (.run "../a" false) ∧
    Verbosity.rank (.upTo .debug) ≤ Verbosity.rank (.upTo .trace) ∧
    (∃ code a b,
      respondLive (.upTo .debug) ["run", "../a"] read = .ok (code, a) ∧
      respondLive (.upTo .trace) ["run", "../a"] read = .ok (code, b) ∧
      a.output = b.output ∧ a.errors.Sublist b.errors ∧
      a.errors.filter (!·.isLog) = b.errors.filter (!·.isLog)) ∧
    (∃ code a b,
      respondLive .off ["run", "../a"] read = .ok (code, a) ∧
      respondLive .off ["run", "../a", "--trace"] read = .ok (code, b) ∧
      b.errors = a.errors ∧
      b.output =
        ["[0] i32.const 4 -> [i32:4]", "[1] i32.const 0 -> [i32:4, i32:0]"] ++ a.output) := by
  intro text place read
  have parsed : Command.ofArguments ["run", "../a"] = .ok (.run "../a" false) := by rfl
  have larger : Verbosity.rank (.upTo .debug) ≤ Verbosity.rank (.upTo .trace) := by decide
  have lines : traceLines (read "../a") =
      ["[0] i32.const 4 -> [i32:4]", "[1] i32.const 0 -> [i32:4, i32:0]"] := by decide +kernel
  obtain ⟨_, levels, flag⟩ := observation_changes_nothing ["run", "../a"] read _ parsed
  have traced := flag "../a" ["../a"] [] rfl rfl (by decide) .off
  rw [lines] at traced
  exact ⟨parsed, larger, levels _ _ larger, traced⟩

end CommandLine

end Straightline
