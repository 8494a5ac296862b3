import Straightline.Proofs.Bytes
import Straightline.Proofs.Observation
import Straightline.Proofs.Width

/-!
# No operation is used outside its domain

Four operations behind the commands are not defined everywhere: to cut a text at an offset in
bytes, to leave out the first of some tokens, to negate an integer of 64 bits, and to look up an
instruction by its number. Here reading and running are written down once more with these operations
as they are, so that a use outside the domain ends everything with a `Breach`. No error that a
command reports is a breach.

Each use is guarded at another place than where it stands:

- A line is cut where a search among its bytes found the comment sign.
- The first operand is left out after it was read as a number.
- A magnitude is negated after its first character was seen to be a digit, so that no sign of its
  own was read with it (`Literal.bounds_of_parse?`).
- An instruction is looked up at the counter of a machine that took a step from there
  (`Machine.fetch_of_step`).

So there is no breach, and what comes out is what the command answers
(`CommandLine.Command.executeChecked_eq`).
-/

namespace Straightline

/-! ## Partial operations -/

/-- A use of an operation outside its domain. It is no error of a listing or of a run: those are
reported to the user, and a breach would end the program. -/
inductive Breach where
  /-- The text cannot be cut at the offset. -/
  | cut (text : String) (offset : Nat)
  /-- There is no first token to leave out. -/
  | behindFirst
  /-- The negative is no integer of 64 bits. -/
  | negation (n : Int)
  /-- The program has no instruction with the number. -/
  | lookup (p : Program) (index : Nat)
  deriving DecidableEq, Repr

namespace Breach

variable {α : Type}

/-- The value of a partial operation, or the breach that its use is where there is none. -/
def guard (breach : Breach) : Option α → Except Breach α
  | some a => .ok a
  | none => .error breach

private theorem isOk_guard (breach : Breach) (x : Option α) : (guard breach x).isOk = x.isSome := by
  cases x <;> rfl

end Breach

/-- A text up to an offset in bytes, as `Text.upTo?` gives it. Its domain is `Text.isOk_cut_iff`. -/
def Text.cut (text : String) (offset : Nat) : Except Breach String :=
  Breach.guard (.cut text offset) (upTo? text offset)

/-- All tokens but the first. Its domain is `Token.isOk_behindFirst_iff`. -/
def Token.behindFirst (tokens : List Token) : Except Breach (List Token) :=
  Breach.guard .behindFirst tokens.tail?

/-- The negative of an integer of 64 bits. Its domain is `Width.isOk_negate64_iff`. -/
def Width.negate64 (n : Int) : Except Breach Int :=
  Breach.guard (.negation n) (signed64.fit? (-n))

/-- The instruction with a given number, as `Program.get?` gives it. Its domain is
`Program.isOk_fetch_iff`. -/
def Program.fetch (p : Program) (index : Nat) : Except Breach Instruction :=
  Breach.guard (.lookup p index) (p.get? index)

theorem Text.isOk_cut_iff {text : String} {offset : Nat} :
    (cut text offset).isOk ↔ String.Pos.Raw.IsValid text ⟨offset⟩ := by
  rw [cut, Breach.isOk_guard, isSome_upTo?_iff]

theorem Token.isOk_behindFirst_iff {tokens : List Token} :
    (behindFirst tokens).isOk ↔ tokens ≠ [] := by
  rw [behindFirst, Breach.isOk_guard]
  cases tokens <;> simp

theorem Width.isOk_negate64_iff {n : Int} :
    (negate64 n).isOk ↔ -2 ^ 63 ≤ -n ∧ -n ≤ 2 ^ 63 - 1 := by
  rw [negate64, Breach.isOk_guard]
  simp [fit?, signed64]

theorem Program.isOk_fetch_iff {p : Program} {index : Nat} :
    (p.fetch index).isOk ↔ index < p.size := by
  rw [fetch, Breach.isOk_guard]
  simp [get?, size]

/-! ## Reading with partial operations -/

/-- A computation with errors of its own, made of operations that are not defined everywhere. An
error of its own is a result; a `Breach` is none. -/
abbrev Checked (ε : Type) := ExceptT ε (Except Breach)

namespace Checked

variable {ε α β : Type}

private theorem liftM_ok (a : α) :
    (liftM (Except.ok a : Except Breach α) : Checked ε α) = pure a := rfl

/-- Parts that breach nothing make a whole that breaches nothing. -/
private theorem ofExcept_bind (x : Except ε α) (f : α → Except ε β) :
    (MonadExcept.ofExcept x >>= fun a => MonadExcept.ofExcept (f a) : Checked ε β) =
      MonadExcept.ofExcept (x >>= f) := by
  cases x <;> rfl

end Checked

namespace Literal

/-- What a word comes down to before its sign is applied. -/
inductive Draft where
  /-- The word does not start like a number. -/
  | name
  /-- The word starts like a number and is none. -/
  | malformed
  /-- The bits of a word. -/
  | bits (n : Int32)
  /-- A sign, and a magnitude that it is to be applied to. -/
  | signed (sign magnitude : Int)
  deriving DecidableEq, Repr

/-- Reads a magnitude with 64 bits, after a look at its first character. What is read would have a
sign of its own if it started with one (`Width.parse?`). -/
def Draft.ofMagnitude (base : Nat) (sign : Int) (digits : List Char) : Draft :=
  if startsWithDigit base digits then
    (Width.signed64.parse? base digits).elim .malformed (.signed sign)
  else .malformed

/-- Reads a word, all but its sign, in the order of the tests that tell numbers from names. -/
def draft (word : List Char) : Draft :=
  match splitSign word with
  | (sign?, digits) =>
    match afterMark? digits, sign? with
    | some digits, none => (bits? digits).elim .malformed .bits
    | some digits, some sign => .ofMagnitude 16 sign digits
    | none, some sign => .ofMagnitude 10 sign digits
    | none, none => if startsWithDigit 10 digits then .ofMagnitude 10 1 digits else .name

/-- The word of a magnitude with its sign, if there is one. A magnitude is negated by
`Width.negate64` before it is known to be a word of 32 bits. -/
def applySign (sign magnitude : Int) : Except Breach (Option Int32) := do
  let value ← if sign < 0 then Width.negate64 magnitude else .ok magnitude
  .ok ((Width.signed32.fit? value).map .ofInt)

end Literal

namespace Token

/-- The token of a word with the given text, if the word can be read. -/
def ofDraft (text : String) : Literal.Draft → Except Breach (Option Token)
  | .name => .ok (some (.name text))
  | .malformed => .ok none
  | .bits n => .ok (some (.number n text))
  | .signed sign magnitude => do
    let n? ← Literal.applySign sign magnitude
    .ok (n?.map (.number · text))

/-- Reads a word as `Token.read?` does, with the partial operations as they are. -/
def readChecked (word : List Char) : Except Breach (Option Token) :=
  ofDraft (String.ofList word) (Literal.draft word)

end Token

namespace Line

/-- A line up to its first comment sign, as `Line.beforeComment` gives it: the offset of the sign is
searched among the bytes, and the line is cut there. -/
def beforeCommentChecked (line : String) : Except Breach String :=
  match commentOffset? line with
  | some offset => Text.cut line offset
  | none => .ok line

/-- Reads words as tokens up to the first bad number, as `Line.tokens` does. -/
def tokensChecked : List (List Char) → Checked LineError (List Token)
  | [] => return []
  | word :: rest => do
    match ← liftM (Token.readChecked word) with
    | some token => return token :: (← tokensChecked rest)
    | none => throw (.invalidNumber (String.ofList word))

/-- The number that has to stand first among the operands. It is not taken out. -/
def expectNumber (opcode : Opcode) : List Token → Except LineError Int32
  | [] => .error (.missingImmediate opcode)
  | .name text :: _ => .error (.unexpectedToken text)
  | .number n _ :: _ => .ok n

/-- No operand is left. -/
def expectEnd : List Token → Except LineError Unit
  | [] => .ok ()
  | token :: _ => .error (.unexpectedToken token.text)

/-- The instruction of an opcode with the tokens that follow it, as `Line.instruction` gives it. The
immediate is left out by `Token.behindFirst` once it was read. -/
def instructionChecked (opcode : Opcode) (operands : List Token) :
    Checked LineError Instruction :=
  match Instruction.ofOpcode? opcode with
  | some i => do
    MonadExcept.ofExcept (expectEnd operands)
    return i
  | none => do
    let n ← MonadExcept.ofExcept (expectNumber opcode operands)
    let others ← liftM (Token.behindFirst operands)
    MonadExcept.ofExcept (expectEnd others)
    return .const n

/-- The instruction that the tokens of a line spell, as `Line.ofTokens` gives it; a line without
tokens has none. -/
def ofTokensChecked : List Token → Checked LineError (Option Instruction)
  | [] => return none
  | .number _ text :: _ => throw (.unexpectedToken text)
  | .name text :: operands =>
    match Opcode.ofMnemonic? text with
    | some opcode => return some (← instructionChecked opcode operands)
    | none => throw (.unknownInstruction text)

/-- Reads a line as `Line.read` does, with the partial operations as they are. -/
def readChecked (line : List Char) : Checked LineError (Option Instruction) := do
  let code ← liftM (beforeCommentChecked (String.ofList line))
  ofTokensChecked (← tokensChecked (Text.words code.toList))

end Line

/-- Reads lines as `Listing.readLines` does, the first of which has number `line`. -/
def Listing.readLinesChecked (line : Nat) :
    List (List Char) → Checked SyntaxError (List Instruction)
  | [] => return []
  | text :: rest => do
    let instruction? ← (Line.readChecked text).adapt (⟨line, ·⟩)
    return instruction?.toList ++ (← readLinesChecked (line + 1) rest)

/-- Reads a program from its listing, as `Program.ofListing` does. -/
def Program.ofListingChecked (text : String) : Checked SyntaxError Program := do
  return ofList (← Listing.readLinesChecked 1 (Text.lines text.toList))

/-! ## Running with partial operations -/

/-- A step that succeeds leaves one instruction less. -/
private theorem Machine.remaining_of_step {m : Machine} (succeeded : m.step.result = .ok ()) :
    m.remaining = m.step.machine.remaining + 1 := by
  obtain ⟨i, s, fetched, _, stepped⟩ := of_step_ok succeeded
  rw [stepped, remaining_of_current? fetched s]

namespace CommandLine

/-- The line that shows a step, if the trace is asked for. The instruction is looked up behind the
step, at the counter from before it. -/
def shownLine (trace : Bool) (m : Machine) : Except Breach (List String) :=
  if trace then do
    let i ← m.step.machine.program.fetch m.counter
    .ok [traceLine m.counter i m.step.machine.stack]
  else .ok []

/-- Follows a machine until it is finished or a step fails. Unlike `follow` it is not told how many
steps there are. -/
def followChecked (trace : Bool) (m : Machine) : Except Breach Session :=
  if m.isFinished then
    .ok ⟨[], [], .ok m.stack⟩
  else
    match _ : m.step.result with
    | .error f => .ok ⟨[], m.step.events, .error f⟩
    | .ok () => do
      let lines ← shownLine trace m
      let session ← followChecked trace m.step.machine
      .ok { session with
        trace := lines ++ session.trace
        events := m.step.events ++ session.events }
termination_by m.remaining
decreasing_by simp [Machine.remaining_of_step ‹_›]

/-- Runs a program from `path`, as `runProgram` does. -/
def runProgramChecked (path : String) (trace : Bool) (p : Program) : Except Breach Transcript := do
  let session ← followChecked trace (Machine.load p)
  .ok (Transcript.andThen { records := [.log (.running p.size path)] } (session.transcript trace))

/-- Carries out a command as `Command.execute` does, with the partial operations as they are. -/
def Command.executeChecked (c : Command) (source : Except ReadError String) :
    Except Breach Transcript :=
  match source with
  | .error e => .ok (reject ("cannot read '" ++ c.path ++ "': " ++ e.message))
  | .ok text => do
    match ← (Program.ofListingChecked text).run with
    | .error e => .ok (reject e.message)
    | .ok p =>
      match c with
      | .run path trace => runProgramChecked path trace p
      | .format _ => .ok { output := p.lines }

end CommandLine

/-! ## Magnitudes have negatives -/

private theorem Width.negate64_of_nonneg {n : Int} (lower : 0 ≤ n) (upper : n ≤ 2 ^ 63 - 1) :
    negate64 n = .ok (-n) := by
  have fits : signed64.fit? (-n) = some (-n) := by
    apply fit?_of_le
    · show -2 ^ 63 ≤ -n
      omega
    · show -n ≤ 2 ^ 63 - 1
      omega
  rw [negate64, fits]
  rfl

namespace Literal

variable {base : Nat} {digits : List Char}

/-- With a digit in front no sign is read, so what `Width.parse?` reads is not negative. -/
theorem bounds_of_parse? {magnitude : Int} (positive : 0 < base)
    (digit : startsWithDigit base digits = true)
    (parsed : Width.signed64.parse? base digits = some magnitude) :
    0 ≤ magnitude ∧ magnitude ≤ 2 ^ 63 - 1 := by
  rw [parse?_of_startsWithDigit _ digit, Width.numeral?_eq (by decide) (by decide) positive]
    at parsed
  obtain ⟨v, _, fits⟩ := Option.bind_eq_some_iff.mp parsed
  unfold Width.fit? at fits
  split at fits
  case isTrue inside =>
    cases fits
    exact ⟨Int.natCast_nonneg v, inside.2⟩
  case isFalse outside => cases fits

/-- Without the look at the first character there would be a magnitude that has no negative. -/
example : (Width.signed64.parse? 16 "-8000000000000000".toList).map Width.negate64 =
    some (.error (.negation (-2 ^ 63))) := by rfl

/-- Without the look at the first character there would be a magnitude that has no negative. -/
private theorem bounds_of_ofMagnitude {sign s magnitude : Int} (positive : 0 < base)
    (h : Draft.ofMagnitude base sign digits = .signed s magnitude) :
    0 ≤ magnitude ∧ magnitude ≤ 2 ^ 63 - 1 := by
  unfold Draft.ofMagnitude at h
  split at h
  case isTrue digit =>
    cases parsed : Width.signed64.parse? base digits with
    | none => simp [parsed] at h
    | some m =>
      obtain ⟨_, rfl⟩ : sign = s ∧ m = magnitude := by simpa [parsed] using h
      exact bounds_of_parse? positive digit parsed
  case isFalse other => simp at h

/-- Every magnitude that a sign is applied to lies between zero and the greatest integer of 64
bits. -/
private theorem bounds_of_draft {word : List Char} {sign magnitude : Int}
    (h : draft word = .signed sign magnitude) : 0 ≤ magnitude ∧ magnitude ≤ 2 ^ 63 - 1 := by
  unfold draft at h
  split at h
  split at h
  case h_1 digits _ _ =>
    -- A bit pattern has no magnitude.
    cases bits : bits? digits with
    | none => simp [bits] at h
    | some n => simp [bits] at h
  case h_2 => exact bounds_of_ofMagnitude (by simp) h
  case h_3 => exact bounds_of_ofMagnitude (by simp) h
  case h_4 =>
    split at h
    · exact bounds_of_ofMagnitude (by simp) h
    · simp at h

private theorem unit_of_splitSign {word : List Char} {sign : Int}
    (split : splitSign word = (some sign, digits)) : sign = 1 ∨ sign = -1 := by
  rcases splitSign_cases word with ⟨rest, _, minus⟩ | ⟨rest, _, plus⟩ | ⟨_, _, bare⟩
  · simp only [minus, Prod.mk.injEq, Option.some.injEq] at split
    omega
  · simp only [plus, Prod.mk.injEq, Option.some.injEq] at split
    omega
  · simp [bare] at split

private theorem applySign_eq {sign magnitude : Int} (unit : sign = 1 ∨ sign = -1)
    (lower : 0 ≤ magnitude)
    (upper : magnitude ≤ 2 ^ 63 - 1) : applySign sign magnitude = .ok (signed? sign magnitude) := by
  rcases unit with rfl | rfl
  · simp [applySign, signed?, ok_bind]
  · simp [applySign, signed?, ok_bind, Width.negate64_of_nonneg lower upper]

end Literal

namespace Token

private theorem ofDraft_ofMagnitude {base : Nat} {sign : Int} (positive : 0 < base)
    (unit : sign = 1 ∨ sign = -1) (text : String) (digits : List Char) :
    ofDraft text (.ofMagnitude base sign digits) =
      .ok ((Literal.wide? base sign digits).map (.number · text)) := by
  unfold Literal.Draft.ofMagnitude Literal.wide?
  split
  case isTrue digit =>
    cases parsed : Width.signed64.parse? base digits with
    | none => simp [ofDraft]
    | some magnitude =>
      obtain ⟨lower, upper⟩ := Literal.bounds_of_parse? positive digit parsed
      simp [ofDraft, ok_bind, Literal.applySign_eq unit lower upper]
  case isFalse other => simp [ofDraft]

/-- Reading a word negates nothing that has no negative, so it is `Token.read?`. -/
theorem readChecked_eq (word : List Char) : readChecked word = .ok (read? word) := by
  rw [← readLimited?_eq_read?]
  unfold readChecked Literal.draft readLimited?
  rcases split : Literal.splitSign word with ⟨_ | sign, digits⟩
  · cases mark : Literal.afterMark? digits with
    | none =>
      simp only [mark]
      split
      · exact ofDraft_ofMagnitude (by simp) (.inl rfl) _ _
      · simp [ofDraft]
    | some digits =>
      simp only [mark]
      cases bits : Literal.bits? digits with
      | none => simp [ofDraft]
      | some n => simp [ofDraft]
  · have unit := Literal.unit_of_splitSign split
    cases mark : Literal.afterMark? digits with
    | none =>
      simp only [mark]
      exact ofDraft_ofMagnitude (by simp) unit _ _
    | some digits =>
      simp only [mark]
      exact ofDraft_ofMagnitude (by simp) unit _ _

end Token

/-! ## Reading breaches nothing -/

namespace Line

/-- Where a search finds the comment sign, the line has a boundary between characters. -/
private theorem cut_commentOffset? {line : String} {offset : Nat}
    (found : commentOffset? line = some offset) :
    Text.cut line offset = .ok (String.ofList (beforeComment line.toList)) := by
  rw [Text.cut, upTo?_commentOffset? found]
  rfl

/-- Inside a character there is nothing to cut. -/
example : Text.cut "é;;" 1 = .error (.cut "é;;" 1) := by rfl

/-- A line is never cut inside a character, so what is left is `beforeComment` of the line. -/
theorem beforeCommentChecked_eq (line : String) :
    beforeCommentChecked line = .ok (String.ofList (beforeComment line.toList)) := by
  unfold beforeCommentChecked
  cases found : commentOffset? line with
  | none => simp [beforeComment_of_commentOffset? found]
  | some offset => simp [cut_commentOffset? found]

theorem tokensChecked_eq (ws : List (List Char)) :
    tokensChecked ws = MonadExcept.ofExcept (tokens ws) := by
  induction ws with
  | nil => rfl
  | cons word rest ih =>
    rw [tokensChecked, tokens, Token.readChecked_eq, ih]
    cases Token.read? word with
    | none => rfl
    | some token => cases tokens rest <;> rfl

/-- A number was read, so it is there to be left out. -/
private theorem ne_nil_of_expectNumber {opcode : Opcode} {operands : List Token} {n : Int32}
    (h : expectNumber opcode operands = .ok n) : operands ≠ [] := by
  rintro rfl
  simp [expectNumber] at h

theorem instructionChecked_eq (opcode : Opcode) (operands : List Token) :
    instructionChecked opcode operands = MonadExcept.ofExcept (instruction opcode operands) := by
  unfold instructionChecked instruction
  cases Instruction.ofOpcode? opcode with
  | some i => cases operands <;> rfl
  | none =>
    cases operands with
    | nil => rfl
    | cons first others =>
      cases first with
      | name text => rfl
      | number n text => cases others <;> rfl

theorem ofTokensChecked_eq (ts : List Token) :
    ofTokensChecked ts = MonadExcept.ofExcept (ofTokens ts) := by
  cases ts with
  | nil => rfl
  | cons first operands =>
    cases first with
    | number n text => rfl
    | name text =>
      rw [ofTokensChecked, ofTokens]
      cases Opcode.ofMnemonic? text with
      | none => rfl
      | some opcode =>
        simp only [instructionChecked_eq]
        cases instruction opcode operands <;> rfl

/-- Reading a line breaches nothing, so it is `Line.read`, in its instructions and in its errors. -/
theorem readChecked_eq (line : List Char) :
    readChecked line = MonadExcept.ofExcept (read line) := by
  unfold readChecked
  simp only [beforeCommentChecked_eq, Checked.liftM_ok, pure_bind, String.toList_ofList,
    tokensChecked_eq, ofTokensChecked_eq]
  exact Checked.ofExcept_bind (tokens (words line)) ofTokens

end Line

theorem Listing.readLinesChecked_eq (line : Nat) (texts : List (List Char)) :
    readLinesChecked line texts = MonadExcept.ofExcept (readLines line texts) := by
  induction texts generalizing line with
  | nil => rfl
  | cons text rest ih =>
    rw [readLinesChecked, readLines, Line.readChecked_eq, ih]
    cases Line.read text with
    | error cause => rfl
    | ok instruction? => cases readLines (line + 1) rest <;> rfl

/-- Reading a listing breaches nothing, so it is `Program.ofListing`. -/
theorem Program.ofListingChecked_eq (text : String) :
    (ofListingChecked text).run = .ok (ofListing text) := by
  unfold ofListingChecked ofListing Listing.read
  rw [Listing.readLinesChecked_eq]
  cases Listing.readLines 1 (Text.lines text.toList) <;> rfl

/-! ## Running breaches nothing -/

/-- A step that succeeds keeps the program, so its instruction is found at the counter from before
it. It is the instruction that the step announced and carried out. -/
theorem Machine.fetch_of_step {m : Machine} (succeeded : m.step.result = .ok ()) :
    ∃ i, m.current? = some i ∧ m.step.machine.program.fetch m.counter = .ok i ∧
      m.step.events = [.step m.counter i m.stack.size] ∧
      i.eval.outcome m.stack = (.ok (), m.step.machine.stack) := by
  obtain ⟨i, s, current, outcome, stepped⟩ := of_step_ok succeeded
  have found : m.program.get? m.counter = some i := current
  refine ⟨i, current, ?_, ?_, ?_⟩
  · simp [stepped, Program.fetch, found, Breach.guard]
  · rw [stepped]
  · rw [stepped, outcome]

private theorem Machine.exists_remaining_of_unfinished {m : Machine}
    (unfinished : ¬ m.isFinished = true) :
    ∃ n, m.remaining = n + 1 := by
  simp only [isFinished, decide_eq_true_eq, Nat.not_le] at unfinished
  apply Nat.exists_eq_succ_of_ne_zero
  exact Nat.sub_ne_zero_of_lt unfinished

namespace CommandLine

/-- What is shown of a session, with the trace or without it. -/
def Session.showing (trace : Bool) (s : Session) : Session :=
  { s with trace := if trace then s.trace else [] }

private theorem Session.transcript_showing (trace : Bool) (s : Session) :
    (s.showing trace).transcript trace = s.transcript trace := by
  cases trace <;> rfl

theorem shownLine_eq {m : Machine} (succeeded : m.step.result = .ok ()) (trace : Bool) :
    shownLine trace m = .ok (if trace then
      (m.current?.map fun i => traceLine m.counter i m.step.machine.stack).toList else []) := by
  obtain ⟨i, current, fetched, _, _⟩ := Machine.fetch_of_step succeeded
  cases trace with
  | false => simp [shownLine]
  | true => simp [shownLine, fetched, current, ok_bind]

/-- A machine that is followed to its end takes as many steps as there are instructions left
(`Machine.remaining`), or fails before. So `followChecked` shows what `follow` does. -/
theorem followChecked_eq (trace : Bool) (m : Machine) :
    followChecked trace m = .ok ((follow m.remaining m).showing trace) := by
  fun_induction followChecked trace m with
  | case1 m finished =>
    have none : m.remaining = 0 := by
      simp only [Machine.isFinished, decide_eq_true_eq] at finished
      simp [Machine.remaining, finished]
    simp [none, follow, Session.showing]
  | case2 m unfinished f failed =>
    obtain ⟨n, left⟩ := Machine.exists_remaining_of_unfinished unfinished
    simp [left, follow, failed, Session.showing]
  | case3 m unfinished succeeded ih =>
    -- The look-up is the only use of a partial operation in a step.
    rw [shownLine_eq succeeded, ih, Machine.remaining_of_step succeeded]
    simp only [ok_bind, follow, succeeded, Session.showing]
    cases trace <;> simp

theorem runProgramChecked_eq (path : String) (trace : Bool) (p : Program) :
    runProgramChecked path trace p = .ok (runProgram path trace p) := by
  rw [runProgramChecked, followChecked_eq, ok_bind, Session.transcript_showing,
    runProgram_eq_andThen]

/-- No command breaches anything, whatever the text of its listing is, so it is
`Command.execute`. -/
theorem Command.executeChecked_eq (c : Command) (source : Except ReadError String) :
    c.executeChecked source = .ok (c.execute source) := by
  unfold executeChecked execute
  cases source with
  | error e => rfl
  | ok text =>
    simp only [Program.ofListingChecked_eq, ok_bind]
    cases Program.ofListing text with
    | error e => rfl
    | ok p =>
      cases c with
      | run path trace => exact runProgramChecked_eq path trace p
      | format path => rfl

/-- No operation is used outside its domain. With the partial operations as they are, every command
comes to the answer of `Command.execute` without a `Breach`, and so does the reading of every text.
As for the four operations:

- A text can be cut (`Text.cut`) exactly between two characters or at an end. The offset of a
  comment in a line is such a place, and the cut leaves what stands before the comment.
- The first token can be left out (`Token.behindFirst`) exactly if there is one. There is one after
  the immediate was read.
- An integer can be negated (`Width.negate64`) exactly if the negative has 64 bits. Every magnitude
  that a sign is applied to lies between 0 and `2 ^ 63 - 1`, so it can be negated.
- An instruction can be looked up (`Program.fetch`) exactly if its number is below the size of the
  program. After a step that succeeds, the counter from before it is such a number, and the
  instruction there is the one that the step announced and carried out. -/
theorem Command.execute_without_breach :
    (∀ (c : Command) (source : Except ReadError String),
      c.executeChecked source = .ok (c.execute source)) ∧
    (∀ text : String, (Program.ofListingChecked text).run = .ok (Program.ofListing text)) ∧
    ((∀ (text : String) (offset : Nat),
        (Text.cut text offset).isOk ↔ String.Pos.Raw.IsValid text ⟨offset⟩) ∧
      ∀ (line : String) (offset : Nat), Line.commentOffset? line = some offset →
        String.Pos.Raw.IsValid line ⟨offset⟩ ∧ offset ≤ line.utf8ByteSize ∧
          Text.cut line offset = .ok (String.ofList (Line.beforeComment line.toList))) ∧
    ((∀ tokens : List Token, (Token.behindFirst tokens).isOk ↔ tokens ≠ []) ∧
      ∀ (opcode : Opcode) (operands : List Token) (n : Int32),
        Line.expectNumber opcode operands = .ok n → operands ≠ []) ∧
    ((∀ n : Int, (Width.negate64 n).isOk ↔ -2 ^ 63 ≤ -n ∧ -n ≤ 2 ^ 63 - 1) ∧
      ∀ (word : List Char) (sign magnitude : Int), Literal.draft word = .signed sign magnitude →
        0 ≤ magnitude ∧ magnitude ≤ 2 ^ 63 - 1 ∧ Width.negate64 magnitude = .ok (-magnitude)) ∧
    ((∀ (p : Program) (index : Nat), (p.fetch index).isOk ↔ index < p.size) ∧
      ∀ m : Machine, m.step.result = .ok () →
        m.counter < m.step.machine.program.size ∧
          ∃ i, m.step.machine.program.fetch m.counter = .ok i ∧
            m.step.events = [.step m.counter i m.stack.size] ∧
            i.eval.outcome m.stack = (.ok (), m.step.machine.stack)) := by
  refine ⟨executeChecked_eq, Program.ofListingChecked_eq, ⟨fun _ _ => Text.isOk_cut_iff, ?_⟩,
    ⟨fun _ => Token.isOk_behindFirst_iff, fun _ _ _ => Line.ne_nil_of_expectNumber⟩,
    ⟨fun _ => Width.isOk_negate64_iff, ?_⟩, ⟨fun _ _ => Program.isOk_fetch_iff, ?_⟩⟩
  · intro line offset found
    have cut := Line.cut_commentOffset? found
    have valid : String.Pos.Raw.IsValid line ⟨offset⟩ := by
      apply Text.isOk_cut_iff.mp
      simp [cut, Except.isOk, Except.toBool]
    exact ⟨valid, valid.le_utf8ByteSize, cut⟩
  · intro word sign magnitude drafted
    obtain ⟨lower, upper⟩ := Literal.bounds_of_draft drafted
    exact ⟨lower, upper, Width.negate64_of_nonneg lower upper⟩
  · intro m succeeded
    obtain ⟨i, _, fetched, announced, outcome⟩ := Machine.fetch_of_step succeeded
    have inside : m.counter < m.step.machine.program.size := by
      apply Program.isOk_fetch_iff.mp
      simp [fetched, Except.isOk, Except.toBool]
    exact ⟨inside, i, fetched, announced, outcome⟩

/-- A comment behind a character of two bytes, the greatest magnitude, an immediate, a step in the
middle of a program, and a traced run that fails. -/
theorem Command.execute_without_breach_examples :
    let m : Machine := ⟨.ofList [.const 7, .drop], .ofList [.i32 7], 1⟩
    let source : Except ReadError String := .ok "i32.const -7 ;; é\ndrop\ndrop"
    (Line.commentOffset? "é;;ü" = some 2 ∧ Text.cut "é;;ü" 2 = .ok "é") ∧
    (Line.expectNumber .const [.number 5 "5"] = .ok 5 ∧
      (Token.behindFirst [.number 5 "5"]).isOk) ∧
    (Literal.draft "-0x7fffffffffffffff".toList = .signed (-1) (2 ^ 63 - 1) ∧
      Width.negate64 (2 ^ 63 - 1) = .ok (-(2 ^ 63 - 1))) ∧
    (m.step.result = .ok () ∧
      ∃ i, m.step.machine.program.fetch 1 = .ok i ∧ m.step.events = [.step 1 i 1]) ∧
    ((Command.run "a" true).executeChecked source = .ok ((Command.run "a" true).execute source) ∧
      ((Command.run "a" true).execute source).output =
        ["[0] i32.const -7 -> [i32:-7]", "[1] drop -> []"]) := by
  intro m source
  obtain ⟨answers, _, ⟨_, cuts⟩, ⟨others, operands⟩, ⟨_, magnitudes⟩, ⟨_, steps⟩⟩ :=
    execute_without_breach
  have comment : Line.commentOffset? "é;;ü" = some 2 := by rfl
  have number : Line.expectNumber .const [.number 5 "5"] = .ok 5 := by rfl
  have drafted : Literal.draft "-0x7fffffffffffffff".toList = .signed (-1) (2 ^ 63 - 1) := by rfl
  have succeeded : m.step.result = .ok () := by rfl
  obtain ⟨_, i, fetched, announced, _⟩ := steps m succeeded
  exact ⟨⟨comment, (cuts _ _ comment).2.2⟩, ⟨number, (others _).mpr (operands _ _ _ number)⟩,
    ⟨drafted, (magnitudes _ _ _ drafted).2.2⟩, ⟨succeeded, i, fetched, announced⟩,
    ⟨answers _ _, by rfl⟩⟩

end CommandLine

end Straightline
