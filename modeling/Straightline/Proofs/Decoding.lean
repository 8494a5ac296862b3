import Straightline.Proofs.Format

/-!
# What the output of a run tells

The output of the run command can be read back. Its lines hold no line ends of their own, so the
text gives the lines (`eq_of_unlines_eq`). A line that shows a step starts with a bracket, and the
line of an operand does not, so the lines tell where the trace ends (`filter_isTraceLine`). In a
line of the trace, the instruction ends at the arrow (`instruction_of_traceLine`). What is printed
for an instruction or an operand tells which one it is.

So the trace determines the instructions that were carried out, and the lines behind it determine
the final stack (`eq_of_output_eq`).
-/

namespace Straightline

/-! ## Instructions and operands -/

/-- Different operands have different texts, since a numeral is read as the word it was printed
for. -/
theorem Value.text_injective {v w : Value} (same : v.text = w.text) : v = w := by
  obtain ⟨n⟩ := v
  obtain ⟨m⟩ := w
  have digits : (toString n.toInt).toList = (toString m.toInt).toList := by
    have lists := congrArg String.toList same
    simp only [text, String.toList_append] at lists
    exact List.append_cancel_left lists
  -- Each numeral is read as the word it was printed for.
  have first := Literal.read?_eq_some_iff.mpr (Literal.denotes_toString n)
  have second := Literal.read?_eq_some_iff.mpr (Literal.denotes_toString m)
  rw [digits, second] at first
  rw [Option.some.inj first]

namespace Instruction

/-- Different instructions have different texts, since each text is read as the instruction it was
printed for (`Instruction.spells_text`). -/
theorem text_injective {i j : Instruction} (same : i.text = j.text) : i = j := by
  -- Each text is read as the instruction it was printed for.
  have first := Line.read_eq_ok_iff.mpr i.spells_text
  have second := Line.read_eq_ok_iff.mpr j.spells_text
  rw [same, second] at first
  exact (Option.some.inj (Except.ok.inj first)).symm

private theorem arrow_not_mem_mnemonic (op : Opcode) : '>' ∉ op.mnemonic.toList := by
  have table : ∀ op ∈ Opcode.all, '>' ∉ op.mnemonic.toList := by decide
  exact table op (Opcode.mem_all op)

/-- The text of an instruction holds no part of an arrow that could end it too early. -/
private theorem arrow_not_mem_text (i : Instruction) : '>' ∉ i.text.toList := by
  cases i with
  | const n =>
    intro arrow
    rw [toList_text_const, List.mem_append, List.mem_cons] at arrow
    rcases arrow with name | space | number
    · exact arrow_not_mem_mnemonic .const name
    · exact absurd space (by decide)
    · rcases Literal.mem_toString number with sign | digit
      · exact absurd sign (by decide)
      · exact absurd digit (by decide)
  | nop => exact arrow_not_mem_mnemonic .nop
  | drop => exact arrow_not_mem_mnemonic .drop
  | operator op => exact arrow_not_mem_mnemonic (.operator op)

end Instruction

namespace CommandLine

/-! ## Lines -/

/-- A text of plain characters (`Plain`) and spaces, which has no line end in it. -/
def Inline (s : String) : Prop :=
  ∀ c ∈ s.toList, Plain c ∨ c = ' '

instance (c : Char) : Decidable (Plain c) :=
  inferInstanceAs (Decidable (Text.isBlank c = false ∧ c ≠ ';'))

instance (s : String) : Decidable (Inline s) :=
  List.decidableBAll (fun c => Plain c ∨ c = ' ') s.toList

theorem Inline.append {a b : String} (front : Inline a) (back : Inline b) : Inline (a ++ b) := by
  intro c hc
  rw [String.toList_append, List.mem_append] at hc
  rcases hc with inFront | inBack
  · exact front c inFront
  · exact back c inBack

theorem Inline.intercalate {sep : String} {ls : List String} (between : Inline sep)
    (each : ∀ l ∈ ls, Inline l) : Inline (sep.intercalate ls) := by
  induction ls with
  | nil => exact fun c hc => absurd hc (by simp)
  | cons l ls ih =>
    have first : Inline l := each l List.mem_cons_self
    by_cases alone : ls = []
    · rw [alone, String.intercalate_singleton]
      exact first
    · rw [String.intercalate_cons_of_ne_nil alone]
      apply (first.append between).append
      apply ih
      intro k hk
      exact each k (List.mem_cons_of_mem l hk)

private theorem inline_of_plain {s : String} (plain : ∀ c ∈ s.toList, Plain c) : Inline s :=
  fun c hc => .inl (plain c hc)

private theorem inline_value (v : Value) : Inline v.text := by
  obtain ⟨n⟩ := v
  have type : Inline "i32:" := by decide
  exact type.append (inline_of_plain plain_of_mem_toString)

private theorem inline_stackText (s : OperandStack) : Inline (stackText s) := by
  have opening : Inline "[" := by decide
  have comma : Inline ", " := by decide
  have closing : Inline "]" := by decide
  apply (opening.append _).append closing
  apply comma.intercalate
  intro l hl
  obtain ⟨v, _, text⟩ := List.mem_map.mp hl
  rw [← text]
  exact inline_value v

private theorem inline_traceLine (k : Nat) (i : Instruction) (after : OperandStack) :
    Inline (traceLine k i after) := by
  have opening : Inline "[" := by decide
  have closing : Inline "] " := by decide
  have arrow : Inline " -> " := by decide
  have number : Inline (toString k) := by
    apply inline_of_plain
    intro c hc
    rw [Nat.toString_eq_repr, Nat.toList_repr] at hc
    exact plain_of_isDigit (Nat.isDigit_of_mem_toDigits (by decide) (by decide) hc)
  have instruction : Inline i.text := fun c hc => Instruction.mem_text hc
  exact ((((opening.append number).append closing).append instruction).append arrow).append
    (inline_stackText after)

private theorem Inline.isLine {l : String} (inline : Inline l) :
    '\n' ∉ l.toList ∧ l.toList.getLast? ≠ some '\r' := by
  have newline : ¬ (Plain '\n' ∨ '\n' = ' ') := by decide
  have carriageReturn : ¬ (Plain '\r' ∨ '\r' = ' ') := by decide
  refine ⟨fun hc => newline (inline _ hc), ?_⟩
  intro last
  exact carriageReturn (inline _ (List.mem_of_getLast? last))

/-- `Listing.unlines` can be undone on lines that are `Inline`: the text gives the lines back. -/
theorem eq_of_unlines_eq {ls ks : List String} (first : ∀ l ∈ ls, Inline l)
    (second : ∀ l ∈ ks, Inline l) (same : Listing.unlines ls = Listing.unlines ks) : ls = ks := by
  have lined := Listing.lined_unlines fun l hl => (first l hl).isLine
  have lined' := Listing.lined_unlines fun l hl => (second l hl).isLine
  rw [same] at lined
  have lists : ls.map String.toList = ks.map String.toList :=
    (Text.lines_eq_iff.mpr lined).symm.trans (Text.lines_eq_iff.mpr lined')
  exact List.map_injective_iff.mpr (fun _ _ => String.toList_injective) lists

/-! ## The lines of a trace -/

/-- Whether a line shows a step. Only such a line starts with a bracket (`filter_isTraceLine`). -/
def isTraceLine (line : String) : Bool :=
  line.toList.head? == some '['

private theorem isTraceLine_traceLine (k : Nat) (i : Instruction) (after : OperandStack) :
    isTraceLine (traceLine k i after) = true := by
  simp [isTraceLine, traceLine]

private theorem isTraceLine_value (v : Value) : isTraceLine v.text = false := by
  obtain ⟨n⟩ := v
  simp [isTraceLine, Value.text]

private theorem getElem?_trace (p : Program) (n k : Nat) :
    (p.trace n)[k]? = (p.toList.take n)[k]?.map fun i =>
      traceLine k i (runAll (p.toList.take (k + 1)) ({} : OperandStack)).2 := by
  rw [trace_eq_traceFrom, traceFrom, List.getElem?_mapIdx, Nat.zero_add]

private theorem mem_trace {p : Program} {n : Nat} {line : String} (h : line ∈ p.trace n) :
    ∃ k i after, line = traceLine k i after := by
  obtain ⟨k, found⟩ := List.mem_iff_getElem?.mp h
  rw [getElem?_trace, Option.map_eq_some_iff] at found
  obtain ⟨i, _, shown⟩ := found
  exact ⟨k, i, _, shown.symm⟩

private theorem inline_output (p : Program) (n : Nat) (vs : List Value) :
    ∀ l ∈ p.trace n ++ vs.map (·.text), Inline l := by
  intro l hl
  rcases List.mem_append.mp hl with inTrace | inStack
  · obtain ⟨k, i, after, line⟩ := mem_trace inTrace
    rw [line]
    exact inline_traceLine k i after
  · obtain ⟨v, _, text⟩ := List.mem_map.mp inStack
    rw [← text]
    exact inline_value v

/-- The lines of a run are those of `Program.trace` and then those of the final stack, and
`isTraceLine` tells which of them are the trace. -/
theorem filter_isTraceLine (p : Program) (n : Nat) (vs : List Value) :
    (p.trace n ++ vs.map (·.text)).filter isTraceLine = p.trace n := by
  have steps : (p.trace n).filter isTraceLine = p.trace n := by
    apply List.filter_eq_self.mpr
    intro line hl
    obtain ⟨k, i, after, shown⟩ := mem_trace hl
    rw [shown]
    exact isTraceLine_traceLine k i after
  have operands : (vs.map (·.text)).filter isTraceLine = [] := by
    apply List.filter_eq_nil_iff.mpr
    intro line hl
    obtain ⟨v, _, text⟩ := List.mem_map.mp hl
    rw [← text, isTraceLine_value]
    exact Bool.false_ne_true
  rw [List.filter_append, steps, operands, List.append_nil]

/-- What stands in front of the first arrow does not depend on what stands behind it. -/
private theorem eq_of_append_arrow {a b x y : List Char} (first : '>' ∉ a) (second : '>' ∉ b)
    (same : a ++ '>' :: x = b ++ '>' :: y) : a = b := by
  have cut : ∀ u v : List Char, '>' ∉ u → (u ++ '>' :: v).takeWhile (· ≠ '>') = u := by
    intro u v absent
    rw [List.takeWhile_append_of_pos, List.takeWhile_cons_of_neg (by simp), List.append_nil]
    intro c hc
    simp only [decide_eq_true_eq]
    exact fun arrow => absent (arrow ▸ hc)
  rw [← cut a x first, same, cut b y second]

/-- A `traceLine` tells which instruction it shows, whatever stack is printed behind the arrow. -/
theorem instruction_of_traceLine {k : Nat} {i j : Instruction} {s t : OperandStack}
    (same : traceLine k i s = traceLine k j t) : i = j := by
  have shape : ∀ (i : Instruction) (s : OperandStack), (traceLine k i s).toList =
      ("[" ++ toString k ++ "] ").toList ++
        ((i.text.toList ++ [' ', '-']) ++ '>' :: ' ' :: (stackText s).toList) := by
    intro i s
    simp [traceLine]
  have absent : ∀ i : Instruction, '>' ∉ i.text.toList ++ [' ', '-'] := by
    intro i
    simpa using i.arrow_not_mem_text
  have lists := congrArg String.toList same
  rw [shape, shape] at lists
  have texts := eq_of_append_arrow (absent i) (absent j) (List.append_cancel_left lists)
  exact Instruction.text_injective (String.toList_injective (List.append_cancel_right texts))

/-- `Program.trace` tells the instructions that it shows, and how many there are. -/
theorem take_of_trace {p q : Program} {m n : Nat} (same : p.trace m = q.trace n) :
    p.toList.take m = q.toList.take n := by
  apply List.ext_getElem?
  intro k
  have lines := congrArg (·[k]?) same
  simp only [getElem?_trace] at lines
  -- Both traces have a line with number `k`, or none has.
  cases first : (p.toList.take m)[k]? with
  | none =>
    rw [first] at lines
    exact (Option.map_eq_none_iff.mp lines.symm).symm
  | some i =>
    rw [first] at lines
    obtain ⟨j, second, line⟩ := Option.map_eq_some_iff.mp lines.symm
    rw [second, instruction_of_traceLine line]

/-- The text of the output tells the instructions that its trace shows and the operands behind the
trace. -/
theorem eq_of_output_eq {p q : Program} {m n : Nat} {vs ws : List Value}
    (same : Listing.unlines (p.trace m ++ vs.map (·.text)) =
      Listing.unlines (q.trace n ++ ws.map (·.text))) :
    p.toList.take m = q.toList.take n ∧ vs = ws := by
  have lines : p.trace m ++ vs.map (·.text) = q.trace n ++ ws.map (·.text) :=
    eq_of_unlines_eq (inline_output p m vs) (inline_output q n ws) same
  have traces : p.trace m = q.trace n := by
    rw [← filter_isTraceLine p m vs, lines, filter_isTraceLine q n ws]
  rw [traces] at lines
  refine ⟨take_of_trace traces, ?_⟩
  exact List.map_injective_iff.mpr (fun _ _ => Value.text_injective) (List.append_cancel_left lines)

/-! ## Whole runs -/

/-- The run command, with or without the trace, answers a file that holds `text` by a transcript,
whatever arguments ask for the run and wherever the file lies: `respond` gives the transcript for
some arguments of such a run and some `read` under which its path holds the text. -/
inductive Answers (text : String) (trace : Bool) : Transcript → Prop where
  | intro {arguments : List String} {read : String → Except ReadError String} {path : String}
      {t : Transcript} (parsed : Command.ofArguments arguments = .ok (.run path trace))
      (held : read path = .ok text) (answered : respond arguments read = .ok t) :
      Answers text trace t

/-- Every text is answered, with the trace and without. -/
theorem answers_execute (text : String) (trace : Bool) :
    Answers text trace ((Command.run "a" trace).execute (.ok text)) := by
  let read : String → Except ReadError String := fun _ => .ok text
  have held : read "a" = .ok text := rfl
  cases trace with
  | false =>
    have parsed : Command.ofArguments ["run", "a"] = .ok (.run "a" false) := by rfl
    exact .intro parsed held (respond_of_ok parsed read)
  | true =>
    have parsed : Command.ofArguments ["run", "a", "--trace"] = .ok (.run "a" true) := by rfl
    exact .intro parsed held (respond_of_ok parsed read)

/-- What `respond` gives is a `RunAnswer` of the text, so nothing depends on the path. -/
theorem Answers.runAnswer {text : String} {trace : Bool} {t : Transcript}
    (h : Answers text trace t) : RunAnswer text trace t := by
  obtain ⟨parsed, held, answered⟩ := h
  rw [respond_of_ok parsed, Command.path, held] at answered
  cases answered
  exact runAnswer_execute _ trace text

/-- Traced runs that finish with the same output are runs of the same program: the trace covers it
from its first to its last instruction. -/
private theorem program_of_finished {text₁ text₂ : String} {t₁ t₂ : Transcript}
    (first : RunAnswer text₁ true t₁) (second : RunAnswer text₂ true t₂)
    (same : t₁.stdout = t₂.stdout) (done₁ : t₁.exitCode = 0) (done₂ : t₂.exitCode = 0) :
    ∃ p, Program.ofListing text₁ = .ok p ∧ Program.ofListing text₂ = .ok p := by
  obtain ⟨p, s, read₁, ran₁⟩ := first.finishes_iff.mp done₁
  obtain ⟨q, t, read₂, ran₂⟩ := second.finishes_iff.mp done₂
  rw [first.finished p s read₁ ran₁, second.finished q t read₂ ran₂] at same
  obtain ⟨instructions, _⟩ := eq_of_output_eq same
  -- The trace covers each program from its first to its last instruction.
  have whole : ∀ p : Program, p.toList.take p.size = p.toList := fun p => List.take_length
  rw [whole, whole] at instructions
  have programs : p = q := by
    rw [← p.ofList_toList, instructions, q.ofList_toList]
  exact ⟨p, read₁, programs ▸ read₂⟩

/-- There are as many instructions in front of a trap as its index says, since it is inside the
program. -/
private theorem length_take_of_trap {p : Program} {k : Nat} {op : Opcode} {cause : Trap}
    (ran : p.run = .error (.trap k op cause)) : (p.toList.take k).length = k := by
  obtain ⟨index, i, cause', trap, fetched⟩ := Program.trap_of_run ran
  cases trap
  rw [Program.get?_eq] at fetched
  obtain ⟨inside, _⟩ := List.getElem?_eq_some_iff.mp fetched
  exact List.length_take_of_le (Nat.le_of_lt inside)

/-- Traced runs that trap with the same output have carried out the same instructions. -/
private theorem prefix_of_faulted {text₁ text₂ : String} {t₁ t₂ : Transcript}
    (first : RunAnswer text₁ true t₁) (second : RunAnswer text₂ true t₂)
    (same : t₁.stdout = t₂.stdout) (failed₁ : t₁.exitCode = 2) (failed₂ : t₂.exitCode = 2) :
    ∃ p q k op₁ op₂ cause₁ cause₂,
      Program.ofListing text₁ = .ok p ∧ Program.ofListing text₂ = .ok q ∧
      p.run = .error (.trap k op₁ cause₁) ∧ q.run = .error (.trap k op₂ cause₂) ∧
      p.toList.take k = q.toList.take k := by
  obtain ⟨p, f, read₁, ran₁⟩ := first.faults_iff.mp failed₁
  obtain ⟨q, g, read₂, ran₂⟩ := second.faults_iff.mp failed₂
  obtain ⟨⟨m, op₁, cause₁, fault₁, shown₁⟩, _⟩ := first.faulted p f read₁ ran₁
  obtain ⟨⟨n, op₂, cause₂, fault₂, shown₂⟩, _⟩ := second.faulted q g read₂ ran₂
  subst fault₁ fault₂
  -- Behind the trace of a run that traps there is no operand.
  have output : Listing.unlines (p.trace m ++ [].map Value.text) =
      Listing.unlines (q.trace n ++ [].map Value.text) := by
    rw [List.map_nil, List.append_nil, List.append_nil]
    exact shown₁.symm.trans (same.trans shown₂)
  obtain ⟨instructions, _⟩ := eq_of_output_eq output
  have index : m = n := by
    rw [← length_take_of_trap ran₁, instructions, length_take_of_trap ran₂]
  subst index
  exact ⟨p, q, m, op₁, op₂, cause₁, cause₂, read₁, read₂, ran₁, ran₂, instructions⟩

/-- Runs without the trace that finish with the same output leave the same stack. -/
private theorem stack_of_finished {text₁ text₂ : String} {t₁ t₂ : Transcript}
    (first : RunAnswer text₁ false t₁) (second : RunAnswer text₂ false t₂)
    (same : t₁.stdout = t₂.stdout) (done₁ : t₁.exitCode = 0) (done₂ : t₂.exitCode = 0) :
    ∃ p q s, Program.ofListing text₁ = .ok p ∧ Program.ofListing text₂ = .ok q ∧
      p.run = .ok s ∧ q.run = .ok s := by
  obtain ⟨p, s, read₁, ran₁⟩ := first.finishes_iff.mp done₁
  obtain ⟨q, t, read₂, ran₂⟩ := second.finishes_iff.mp done₂
  rw [first.finished p s read₁ ran₁, second.finished q t read₂ ran₂] at same
  -- Without the trace, the output is that of a trace of no instruction.
  have output : Listing.unlines (p.trace 0 ++ s.toList.map (·.text)) =
      Listing.unlines (q.trace 0 ++ t.toList.map (·.text)) := same
  obtain ⟨_, operands⟩ := eq_of_output_eq output
  have left : s = t := by
    rw [← s.ofList_toList, operands, t.ofList_toList]
  exact ⟨p, q, s, read₁, read₂, ran₁, left ▸ ran₂⟩

/-- The output of the run command loses no information. Take two listings for which the command
prints the same.

- If both traced runs finish, `Program.ofListing` reads the listings as the same program.
- If both traced runs trap, they do so at the same index, and the instructions in front of it, which
  are those that were carried out, are the same in both programs.
- If both runs without the trace finish, they leave the same stack. -/
theorem output_determines_run (text₁ text₂ : String) (t₁ t₂ : Transcript)
    (same : t₁.stdout = t₂.stdout) :
    (Answers text₁ true t₁ → Answers text₂ true t₂ →
      (t₁.exitCode = 0 → t₂.exitCode = 0 →
        ∃ p, Program.ofListing text₁ = .ok p ∧ Program.ofListing text₂ = .ok p) ∧
      (t₁.exitCode = 2 → t₂.exitCode = 2 →
        ∃ p q k op₁ op₂ cause₁ cause₂,
          Program.ofListing text₁ = .ok p ∧ Program.ofListing text₂ = .ok q ∧
          p.run = .error (.trap k op₁ cause₁) ∧ q.run = .error (.trap k op₂ cause₂) ∧
          p.toList.take k = q.toList.take k)) ∧
    (Answers text₁ false t₁ → Answers text₂ false t₂ →
      t₁.exitCode = 0 → t₂.exitCode = 0 →
        ∃ p q s, Program.ofListing text₁ = .ok p ∧ Program.ofListing text₂ = .ok q ∧
          p.run = .ok s ∧ q.run = .ok s) := by
  refine ⟨?_, ?_⟩
  · intro first second
    exact ⟨program_of_finished first.runAnswer second.runAnswer same,
      prefix_of_faulted first.runAnswer second.runAnswer same⟩
  · intro first second
    exact stack_of_finished first.runAnswer second.runAnswer same

/-- Two spellings of one program; two programs that trap for different causes behind the same two
instructions; and two programs that leave the same stack. -/
theorem output_determines_run_examples :
    let run := fun (trace : Bool) (text : String) => (Command.run "a" trace).execute (.ok text)
    (let a := "i32.const 7 ;; seven"
     let b := "\ti32.const +0x7\r\n"
     (run true a).stdout = (run true b).stdout ∧ (run true a).exitCode = 0 ∧
      ∃ p, Program.ofListing a = .ok p ∧ Program.ofListing b = .ok p) ∧
    (let a := "i32.const 0\ni32.const 1\ndrop\ndrop\ndrop"
     let b := "i32.const 0\ni32.const 1\ndrop\ndrop\ni32.add\nnop"
     (run true a).stdout = (run true b).stdout ∧ (run true a).exitCode = 2 ∧
      ∃ p q k op₁ op₂ cause₁ cause₂, Program.ofListing a = .ok p ∧ Program.ofListing b = .ok q ∧
        p.run = .error (.trap k op₁ cause₁) ∧ q.run = .error (.trap k op₂ cause₂) ∧
        p.toList.take k = q.toList.take k) ∧
    (let a := "i32.const -3"
     let b := "i32.const 1\ni32.const 4\ni32.sub"
     (run false a).stdout = (run false b).stdout ∧ (run false a).exitCode = 0 ∧
      ∃ p q s, Program.ofListing a = .ok p ∧ Program.ofListing b = .ok q ∧
        p.run = .ok s ∧ q.run = .ok s) := by
  intro run
  refine ⟨?_, ?_, ?_⟩
  · intro a b
    have same : (run true a).stdout = (run true b).stdout := by decide +kernel
    have code : (run true a).exitCode = 0 ∧ (run true b).exitCode = 0 := by decide +kernel
    have determined := (output_determines_run a b _ _ same).1 (answers_execute a true)
      (answers_execute b true)
    exact ⟨same, code.1, determined.1 code.1 code.2⟩
  · intro a b
    have same : (run true a).stdout = (run true b).stdout := by decide +kernel
    have code : (run true a).exitCode = 2 ∧ (run true b).exitCode = 2 := by decide +kernel
    have determined := (output_determines_run a b _ _ same).1 (answers_execute a true)
      (answers_execute b true)
    exact ⟨same, code.1, determined.2 code.1 code.2⟩
  · intro a b
    have same : (run false a).stdout = (run false b).stdout := by decide +kernel
    have code : (run false a).exitCode = 0 ∧ (run false b).exitCode = 0 := by decide +kernel
    have determined := (output_determines_run a b _ _ same).2 (answers_execute a false)
      (answers_execute b false)
    exact ⟨same, code.1, determined code.1 code.2⟩

end CommandLine

end Straightline
