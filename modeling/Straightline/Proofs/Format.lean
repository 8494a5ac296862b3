import Straightline.Proofs.EventLog
import Straightline.Proofs.RoundTrip
import Straightline.Proofs.RunCommand

/-!
# What the format command keeps

Formatting writes the canonical listing of a program, and the canonical listing is read as the same
program (`Program.read_listing`). So nothing that a command does with the program can tell the two
texts apart. The canonical listing has one line for each instruction (`Program.lines_canonical`), so
that the number in a runtime error leads to a line.
-/

namespace Straightline

namespace Program

/-- The lines of the canonical listing are the texts of the instructions, one a line. -/
theorem lines_canonical (p : Program) :
    Text.lines p.listing.toList = p.toList.map fun i => i.text.toList :=
  Text.lines_eq_iff.mpr p.lined_listing

/-- An instruction stands on the line of its own number. -/
private theorem getElem?_lines_canonical {p : Program} {index : Nat} {i : Instruction}
    (fetched : p.get? index = some i) :
    (Text.lines p.listing.toList)[index]? = some i.text.toList := by
  rw [lines_canonical, List.getElem?_map, ← get?_eq, fetched]
  rfl

/-- `Program.run` ends early only by a trap, at an instruction of the program with the opcode
reported: the counter never leaves the program. -/
theorem trap_of_run {p : Program} {f : Fault} (h : p.run = .error f) :
    ∃ index i cause, f = .trap index i.opcode cause ∧ p.get? index = some i := by
  have failed : (Machine.load p).run.result = .error f := map_eq_error_iff.mp h
  -- The record of the run knows which instruction trapped.
  have recorded := (Machine.load p).recorded_run
  rw [failed] at recorded
  generalize (Machine.load p).run.events = events at recorded
  cases recorded with
  | trapped fetched => exact ⟨_, _, _, rfl, fetched⟩

end Program

namespace CommandLine

/-! ## Formatting -/

theorem execute_format_of_ok {text : String} {p : Program} (read : Program.ofListing text = .ok p)
    (path : String) : (Command.format path).execute (.ok text) = { output := p.lines } := by
  simp only [Command.execute, read]

theorem execute_run_of_ok {text : String} {p : Program} (read : Program.ofListing text = .ok p)
    (path : String) (trace : Bool) :
    (Command.run path trace).execute (.ok text) = runProgram path trace p := by
  simp only [Command.execute, read]

/-- A text that is no listing is rejected by every command in the same way. -/
theorem execute_of_error {text : String} {e : SyntaxError}
    (unread : Program.ofListing text = .error e) (c : Command) :
    c.execute (.ok text) = reject e.message := by
  simp only [Command.execute, unread]

/-- Formatting keeps what a listing does. Whatever arguments ask for a command and wherever its file
lies, `respond` gives the answer for the text of the file; so the rest is told by the texts.

- A listing is formatted without complaint, and the new text is a listing of the same program.
- Formatting the new text prints it again.
- Running the new text has the exit code, the output and, at each verbosity, the error stream of
  running the old one from the same path, with the trace and without.
- The new text has one line for each instruction. A runtime error is about the trap that
  `Program.run` ends with, and the number that it gives is that of the line, counted from zero, on
  which the instruction stands that trapped.
- For a text that is no listing nothing is printed, the exit code is 1, and the complaint is that of
  the run command. -/
theorem format_keeps_behaviour (text path : String) :
    let formatted := (Command.format path).execute (.ok text)
    (∀ (arguments : List String) (read : String → Except ReadError String) (c : Command)
        (held : String), Command.ofArguments arguments = .ok c → read c.path = .ok held →
      respond arguments read = .ok (c.execute (.ok held))) ∧
    (∀ p, Program.ofListing text = .ok p →
      (formatted.exitCode = 0 ∧ ∀ v, formatted.stderr v = "") ∧
      Program.ofListing formatted.stdout = .ok p ∧
      (∀ path', ((Command.format path').execute (.ok formatted.stdout)).stdout =
        formatted.stdout) ∧
      (∀ path' trace,
        let old := (Command.run path' trace).execute (.ok text)
        let new := (Command.run path' trace).execute (.ok formatted.stdout)
        new.exitCode = old.exitCode ∧ new.stdout = old.stdout ∧
          ∀ v, new.stderr v = old.stderr v) ∧
      (Text.lines formatted.stdout.toList).length = p.size ∧
      (∀ path' trace,
        let new := (Command.run path' trace).execute (.ok formatted.stdout)
        new.exitCode = 2 → ∃ index i cause,
          p.run = .error (.trap index i.opcode cause) ∧ p.get? index = some i ∧
          (∀ v, ∃ log, new.stderr v = Listing.unlines log ++
            ("runtime error: " ++ (Fault.trap index i.opcode cause).message ++ "\n")) ∧
          (Text.lines formatted.stdout.toList)[index]? = some i.text.toList)) ∧
    (∀ e, Program.ofListing text = .error e →
      formatted.stdout = "" ∧ formatted.exitCode = 1 ∧
      ∀ path' trace v,
        formatted.stderr v = ((Command.run path' trace).execute (.ok text)).stderr v) := by
  intro formatted
  refine ⟨?_, ?_, ?_⟩
  · intro arguments read c held parsed reading
    rw [respond_of_ok parsed, reading]
  · intro p read
    have shown : formatted = { output := p.lines } := execute_format_of_ok read path
    have canonical : formatted.stdout = p.listing := congrArg Transcript.stdout shown
    have readAgain : Program.ofListing formatted.stdout = .ok p := by
      rw [canonical]
      exact Program.ofListing_of_read p.read_listing
    refine ⟨?_, readAgain, ?_, ?_, ?_, ?_⟩
    · rw [shown]
      exact ⟨rfl, fun v => rfl⟩
    · intro path'
      rw [execute_format_of_ok readAgain path', canonical]
      rfl
    · intro path' trace old new
      -- Both texts are run as the same program.
      have same : new = old :=
        (execute_run_of_ok readAgain path' trace).trans (execute_run_of_ok read path' trace).symm
      rw [same]
      exact ⟨rfl, rfl, fun v => rfl⟩
    · rw [canonical, Program.lines_canonical, List.length_map, Program.length_toList]
    · intro path' trace new failed
      have answer : RunAnswer formatted.stdout trace new :=
        runAnswer_execute path' trace formatted.stdout
      -- The exit code says that the program was read and its run failed.
      obtain ⟨p', f, read', ran⟩ := answer.faults_iff.mp failed
      cases readAgain.symm.trans read'
      obtain ⟨index, i, cause, rfl, fetched⟩ := Program.trap_of_run ran
      refine ⟨index, i, cause, ran, fetched, (answer.faulted p _ readAgain ran).2, ?_⟩
      rw [canonical]
      exact Program.getElem?_lines_canonical fetched
  · intro e unread
    have rejected : formatted = reject e.message := execute_of_error unread _
    refine ⟨?_, ?_, ?_⟩
    · rw [rejected]
      rfl
    · rw [rejected]
      rfl
    · intro path' trace v
      rw [rejected, execute_of_error unread]

/-- A listing with a comment, a blank line and a number in hexadecimal, whose third instruction
underflows. -/
theorem format_keeps_behaviour_underflow :
    let text := "\ti32.const +0x10 ;; sixteen\r\n\ndrop\ndrop"
    let formatted := (Command.format "a").execute (.ok text)
    let new := (Command.run "a" false).execute (.ok formatted.stdout)
    Program.ofListing text = .ok (.ofList [.const 16, .drop, .drop]) ∧
      respond ["fmt", "a"] (FileTree.directory [("a", .file text.toUTF8)]) = .ok formatted ∧
      Program.ofListing formatted.stdout = .ok (.ofList [.const 16, .drop, .drop]) ∧
      new.exitCode = 2 ∧
      ∃ index i cause,
        (Program.ofList [.const 16, .drop, .drop]).run = .error (.trap index i.opcode cause) ∧
        (Program.ofList [.const 16, .drop, .drop]).get? index = some i ∧
        (∀ v, ∃ log, new.stderr v = Listing.unlines log ++
          ("runtime error: " ++ (Fault.trap index i.opcode cause).message ++ "\n")) ∧
        (Text.lines formatted.stdout.toList)[index]? = some i.text.toList := by
  have read : Program.ofListing "\ti32.const +0x10 ;; sixteen\r\n\ndrop\ndrop" =
      .ok (.ofList [.const 16, .drop, .drop]) := by rfl
  have held : (Place.trial (.directory
      [("a", .file "\ti32.const +0x10 ;; sixteen\r\n\ndrop\ndrop".toUTF8)])).readText "a" =
        .ok "\ti32.const +0x10 ;; sixteen\r\n\ndrop\ndrop" := by rfl
  have failed : (runProgram "a" false (.ofList [.const 16, .drop, .drop])).exitCode = 2 := by rfl
  intro text formatted new
  obtain ⟨answered, accepted, _⟩ := format_keeps_behaviour text "a"
  obtain ⟨_, readAgain, _, _, _, located⟩ := accepted _ read
  have code : new.exitCode = 2 :=
    (congrArg Transcript.exitCode (execute_run_of_ok readAgain "a" false)).trans failed
  exact ⟨read, answered ["fmt", "a"] _ (.format "a") text rfl held, readAgain, code,
    located "a" false code⟩

end CommandLine

end Straightline
