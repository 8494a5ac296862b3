import Straightline.Proofs.Grammar

/-!
# The diagnosis of a listing

What is reported about a text that is no listing, apart from how the text is read:

- `Line.Mistake ws cause`: what is wrong with the words of a line. A line can be wrong in several
  ways at once, and the relation says which of them counts.
- `Line.Wrong line cause` and `Line.Bad line`: what is wrong with a line, and that something is.
- `Listing.FirstBad text number line`: the first bad line of a text and its number.

Reading reports exactly this, for a line (`Line.read_eq_error_iff`) as for a text. Bad lines are
those outside the grammar (`Line.bad_iff_wrong`), so reading never gives up on a listing and never
passes over a mistake.
-/

namespace Straightline

/-! ## Members of lists -/

private theorem exists_of_forall₂ {α β : Type} {R : α → β → Prop} {l : List α} {m : List β}
    (h : List.Forall₂ R l m) : ∀ x ∈ l, ∃ y, R x y := by
  induction h with
  | nil => simp
  | cons head _ ih => simpa using ⟨⟨_, head⟩, ih⟩

/-- To look for the first `x` with `Q` behind members with `P`, look at the head and then at the
tail. The number of members in front is passed on to `Q`. -/
private theorem exists_first_cons {α : Type} {P : α → Prop} {Q : Nat → α → Prop} {y : α}
    {l : List α} :
    (∃ before x after, y :: l = before ++ x :: after ∧ (∀ b ∈ before, P b) ∧ Q before.length x) ↔
      Q 0 y ∨ P y ∧ ∃ before x after, l = before ++ x :: after ∧ (∀ b ∈ before, P b) ∧
        Q (before.length + 1) x := by
  constructor
  · rintro ⟨_ | ⟨b, before⟩, x, after, split, passed, found⟩
    · cases split
      exact .inl found
    · cases split
      refine .inr ⟨passed y (by simp), before, x, after, rfl, ?_, found⟩
      exact fun b hb => passed b (by simp [hb])
  · rintro (found | ⟨head, before, x, after, rfl, passed, found⟩)
    · exact ⟨[], y, l, rfl, by simp, found⟩
    · exact ⟨y :: before, x, after, rfl, by simpa [head] using passed, found⟩

/-! ## Words -/

namespace Literal

/-- A word that stands for a word of 32 bits, by the relation `Denotes` of the grammar. -/
def Valid (word : List Char) : Prop := ∃ n, Denotes word n

/-- A word that starts with a sign or a decimal digit, and is no literal (`Valid`). -/
def Malformed (word : List Char) : Prop :=
  (∃ c rest, word = c :: rest ∧ (c = '+' ∨ c = '-' ∨ '0' ≤ c ∧ c ≤ '9')) ∧ ¬ Valid word

theorem starts_iff {word : List Char} :
    starts word = true ↔
      ∃ c rest, word = c :: rest ∧ (c = '+' ∨ c = '-' ∨ '0' ≤ c ∧ c ≤ '9') := by
  cases word with
  | nil => simp [starts]
  | cons c rest =>
    simp [starts, Char.isDigit, or_assoc]
    rfl

end Literal

namespace Token

/-- `Token.read?` fails on exactly the words that are `Literal.Malformed`: any other word is a
number or a name. -/
theorem read?_eq_none_iff {word : List Char} : read? word = none ↔ Literal.Malformed word := by
  have literal : Literal.read? word = none ↔ ¬ Literal.Valid word := by
    simp [Literal.Valid, ← Literal.read?_eq_some_iff, Option.eq_none_iff_forall_ne_some]
  rw [Literal.Malformed, ← Literal.starts_iff, ← literal]
  unfold read?
  split
  case isTrue starts => simp [starts]
  case isFalse plain => simp [plain]

/-- A token that is read is a number or a name, and keeps its word. -/
private theorem of_read? {word : List Char} {t : Token} (h : read? word = some t) :
    (∃ n, Literal.Denotes word n ∧ t = .number n (String.ofList word)) ∨
      (¬ Literal.Valid word ∧ t = .name (String.ofList word)) := by
  cases t with
  | number n text =>
    obtain ⟨denotes, rfl⟩ := read?_eq_number_iff.mp h
    exact .inl ⟨n, denotes, rfl⟩
  | name text =>
    obtain ⟨plain, rfl⟩ := read?_eq_name_iff.mp h
    refine .inr ⟨?_, rfl⟩
    rintro ⟨n, denotes⟩
    rw [Literal.starts_of_denotes denotes] at plain
    cases plain

private theorem text_of_read? {word : List Char} {t : Token} (h : read? word = some t) :
    t.text = String.ofList word := by
  rcases of_read? h with ⟨n, _, rfl⟩ | ⟨_, rfl⟩
  · rfl
  · rfl

end Token

/-! ## Mistakes -/

namespace Line

/-- The words that name an instruction, written out. -/
def mnemonics : List String :=
  [ "nop", "drop", "i32.const", "i32.eq", "i32.ne", "i32.lt_s", "i32.gt_s", "i32.le_s", "i32.ge_s",
    "i32.add", "i32.sub", "i32.mul", "i32.div_s" ]

/-- What is wrong with words among which no number is malformed: the first word is a literal or
names no instruction, or the words behind it are too many, too few or of the wrong kind for the
instruction. -/
inductive Misuse : List (List Char) → LineError → Prop where
  | literal {w : List Char} {ws : List (List Char)} (literal : Literal.Valid w) :
      Misuse (w :: ws) (.unexpectedToken (String.ofList w))
  | unknown {w : List Char} {ws : List (List Char)} (name : ¬ Literal.Valid w)
      (unknown : String.ofList w ∉ mnemonics) :
      Misuse (w :: ws) (.unknownInstruction (String.ofList w))
  | surplus {name : String} {i : Instruction} {w : List Char} {ws : List (List Char)}
      (known : (name, i) ∈ bareInstructions) :
      Misuse (name.toList :: w :: ws) (.unexpectedToken (String.ofList w))
  | missing : Misuse ["i32.const".toList] (.missingImmediate .const)
  | noLiteral {w : List Char} {ws : List (List Char)} (name : ¬ Literal.Valid w) :
      Misuse ("i32.const".toList :: w :: ws) (.unexpectedToken (String.ofList w))
  | surplusConst {w w' : List Char} {ws : List (List Char)} (literal : Literal.Valid w) :
      Misuse ("i32.const".toList :: w :: w' :: ws) (.unexpectedToken (String.ofList w'))

/-- What is wrong with the words of a line. A malformed number counts before all else, and of
several the leftmost; only where there is none, a `Misuse` counts. -/
inductive Mistake : List (List Char) → LineError → Prop where
  | number {before : List (List Char)} {w : List Char} {after : List (List Char)}
      (sound : ∀ v ∈ before, ¬ Literal.Malformed v) (malformed : Literal.Malformed w) :
      Mistake (before ++ w :: after) (.invalidNumber (String.ofList w))
  | misuse {ws : List (List Char)} {cause : LineError}
      (sound : ∀ v ∈ ws, ¬ Literal.Malformed v) (misuse : Misuse ws cause) :
      Mistake ws cause

/-! ### Tokens of a line -/

/-- `tokens` stops at the leftmost word that is `Literal.Malformed`, and reports it. -/
theorem tokens_eq_error_iff {ws : List (List Char)} {cause : LineError} :
    tokens ws = .error cause ↔
      ∃ before w after, ws = before ++ w :: after ∧ (∀ v ∈ before, ¬ Literal.Malformed v) ∧
        (Literal.Malformed w ∧ cause = .invalidNumber (String.ofList w)) := by
  induction ws with
  | nil => simp [tokens]
  | cons v ws ih =>
    rw [exists_first_cons (P := fun v => ¬ Literal.Malformed v)
      (Q := fun _ w => Literal.Malformed w ∧ cause = .invalidNumber (String.ofList w)), ← ih]
    cases read : Token.read? v with
    | none =>
      have malformed : Literal.Malformed v := Token.read?_eq_none_iff.mp read
      simp [tokens, read, malformed, eq_comm]
    | some t =>
      have fine : ¬ Literal.Malformed v := by
        rw [← Token.read?_eq_none_iff, read]
        simp
      simp [tokens, read, fine, map_eq_error_iff]

private theorem sound_of_wordwise {ws : List (List Char)} {ts : List Token}
    (h : List.Forall₂ (fun w t => Token.read? w = some t) ws ts) :
    ∀ v ∈ ws, ¬ Literal.Malformed v := by
  intro v hv malformed
  obtain ⟨t, read⟩ := exists_of_forall₂ h v hv
  rw [Token.read?_eq_none_iff.mpr malformed] at read
  cases read

private theorem exists_tokens_of_sound {ws : List (List Char)}
    (sound : ∀ v ∈ ws, ¬ Literal.Malformed v) : ∃ ts, tokens ws = .ok ts := by
  cases read : tokens ws with
  | ok ts => exact ⟨ts, rfl⟩
  | error cause =>
    obtain ⟨before, w, after, rfl, _, malformed, _⟩ := tokens_eq_error_iff.mp read
    exact absurd malformed (sound w (by simp))

/-! ### The phrase of a line -/

private theorem ofMnemonic?_eq_none_iff {name : String} :
    Opcode.ofMnemonic? name = none ↔ name ∉ mnemonics := by
  have table : mnemonics = Opcode.all.map Opcode.mnemonic := rfl
  simp [table, Opcode.ofMnemonic?]

/-- Only the constant is no instruction by itself. -/
private theorem eq_const_of_ofOpcode? {op : Opcode} (h : Instruction.ofOpcode? op = none) :
    op = .const := by
  cases op with
  | const => rfl
  | nop | drop | operator op => cases h

/-- An instruction with the wrong operands. -/
private theorem misuse_of_instruction {w : List Char} {ws : List (List Char)} {ts : List Token}
    {op : Opcode} {cause : LineError} (named : Opcode.ofMnemonic? (String.ofList w) = some op)
    (wordwise : List.Forall₂ (fun w t => Token.read? w = some t) ws ts)
    (h : instruction op ts = .error cause) : Misuse (w :: ws) cause := by
  have spelled : w = op.mnemonic.toList := by
    rw [← Opcode.ofMnemonic?_eq_some_iff.mp named, String.toList_ofList]
  cases bare : Instruction.ofOpcode? op with
  | some i =>
    -- An instruction by itself: any word behind it is one too many.
    have known := mem_bareInstructions_iff.mpr ⟨op, named, bare⟩
    cases wordwise with
    | nil =>
      simp only [instruction, bare] at h
      cases h
    | @cons v t ws ts second rest =>
      simp only [instruction, bare, Token.text_of_read? second] at h
      cases h
      have misuse : Misuse ((String.ofList w).toList :: v :: ws)
          (.unexpectedToken (String.ofList v)) := .surplus known
      rwa [String.toList_ofList] at misuse
  | none =>
    -- The constant: it lacks its literal, or has another word in its place, or a word behind it.
    obtain rfl := eq_const_of_ofOpcode? bare
    subst spelled
    cases wordwise with
    | nil =>
      cases h
      exact .missing
    | @cons v t ws ts second rest =>
      rcases Token.of_read? second with ⟨n, denotes, rfl⟩ | ⟨name, rfl⟩
      · cases rest with
        | nil => cases h
        | cons third _ =>
          simp only [instruction, bare, Token.text_of_read? third] at h
          cases h
          exact .surplusConst ⟨n, denotes⟩
      · cases h
        exact .noLiteral name

/-- What is reported about the tokens of a line is what is wrong with its words. -/
private theorem misuse_of_ofTokens {ws : List (List Char)} {ts : List Token} {cause : LineError}
    (wordwise : List.Forall₂ (fun w t => Token.read? w = some t) ws ts)
    (h : ofTokens ts = .error cause) : Misuse ws cause := by
  cases wordwise with
  | nil => cases h
  | @cons w t ws ts first rest =>
    rcases Token.of_read? first with ⟨n, denotes, rfl⟩ | ⟨name, rfl⟩
    · -- A number in front is out of place, whatever follows.
      cases h
      exact .literal ⟨n, denotes⟩
    · cases named : Opcode.ofMnemonic? (String.ofList w) with
      | none =>
        simp only [ofTokens, named] at h
        cases h
        exact .unknown name (ofMnemonic?_eq_none_iff.mp named)
      | some op =>
        simp only [ofTokens, named] at h
        exact misuse_of_instruction named rest (map_eq_error_iff.mp h)

private theorem eq_name_of_read? {name : String} {t : Token}
    (plain : Literal.starts name.toList = false) (h : Token.read? name.toList = some t) :
    t = .name name := by
  have read : Token.read? name.toList = some (.name name) :=
    Token.read?_eq_name_iff.mpr ⟨plain, by simp⟩
  exact Option.some.inj (h.symm.trans read)

/-- What is wrong with the words of a line is reported about its tokens. -/
private theorem ofTokens_of_misuse {ws : List (List Char)} {ts : List Token} {cause : LineError}
    (wordwise : List.Forall₂ (fun w t => Token.read? w = some t) ws ts)
    (h : Misuse ws cause) : ofTokens ts = .error cause := by
  have const : Opcode.ofMnemonic? "i32.const" = some .const := Opcode.ofMnemonic?_mnemonic .const
  have plain : Literal.starts "i32.const".toList = false := by decide
  -- In each case the words that matter decide their tokens, and with these the report.
  cases h with
  | literal literal =>
    rcases wordwise with _ | ⟨first, _⟩
    rcases Token.of_read? first with ⟨n, _, rfl⟩ | ⟨name, rfl⟩
    · rfl
    · exact absurd literal name
  | unknown name unknown =>
    rcases wordwise with _ | ⟨first, _⟩
    rcases Token.of_read? first with ⟨n, denotes, rfl⟩ | ⟨_, rfl⟩
    · exact absurd ⟨n, denotes⟩ name
    · simp only [ofTokens, ofMnemonic?_eq_none_iff.mpr unknown]
  | surplus known =>
    rcases wordwise with _ | ⟨first, _ | ⟨second, _⟩⟩
    obtain ⟨op, named, bare⟩ := mem_bareInstructions_iff.mp known
    obtain rfl := eq_name_of_read? (not_starts_of_bare known) first
    simp only [ofTokens, named, instruction, bare, Token.text_of_read? second]
    rfl
  | missing =>
    rcases wordwise with _ | ⟨first, _ | _⟩
    obtain rfl := eq_name_of_read? plain first
    simp only [ofTokens, const]
    rfl
  | noLiteral name =>
    rcases wordwise with _ | ⟨first, _ | ⟨second, _⟩⟩
    obtain rfl := eq_name_of_read? plain first
    rcases Token.of_read? second with ⟨n, denotes, rfl⟩ | ⟨_, rfl⟩
    · exact absurd ⟨n, denotes⟩ name
    · simp only [ofTokens, const]
      rfl
  | surplusConst literal =>
    rcases wordwise with _ | ⟨first, _ | ⟨second, _ | ⟨third, _⟩⟩⟩
    obtain rfl := eq_name_of_read? plain first
    rcases Token.of_read? second with ⟨n, _, rfl⟩ | ⟨name, rfl⟩
    · simp only [ofTokens, const, instruction, Instruction.ofOpcode?, Token.text_of_read? third]
      rfl
    · exact absurd literal name

/-- Reading the words of a line, first as tokens and then as an instruction, fails exactly with the
`Mistake` that counts. -/
theorem readWords_eq_error_iff {ws : List (List Char)} {cause : LineError} :
    (do ofTokens (← tokens ws)) = .error cause ↔ Mistake ws cause := by
  rw [bind_eq_error_iff]
  constructor
  · rintro (stopped | ⟨ts, read, misused⟩)
    · obtain ⟨before, w, after, rfl, sound, malformed, rfl⟩ := tokens_eq_error_iff.mp stopped
      exact .number sound malformed
    · have wordwise := tokens_eq_ok_iff.mp read
      exact .misuse (sound_of_wordwise wordwise) (misuse_of_ofTokens wordwise misused)
  · intro mistake
    cases mistake with
    | @number before w after sound malformed =>
      exact .inl (tokens_eq_error_iff.mpr ⟨before, w, after, rfl, sound, malformed, rfl⟩)
    | misuse sound misuse =>
      obtain ⟨ts, read⟩ := exists_tokens_of_sound sound
      exact .inr ⟨ts, read, ofTokens_of_misuse (tokens_eq_ok_iff.mp read) misuse⟩

/-! ## Bad lines -/

/-- A line and what is wrong with the words in front of its comment, that is, the `Mistake` of its
words. -/
def Wrong (line : List Char) (cause : LineError) : Prop :=
  ∃ code ws, Cut line code ∧ Text.Spaced code ws ∧ Mistake ws cause

/-- A line outside the grammar: it neither spells an instruction nor is it without one
(`Spells`). -/
def Bad (line : List Char) : Prop := ∀ i?, ¬ Spells line i?

/-- `Line.read` fails exactly on a line that is `Wrong`, with the mistake that counts. -/
theorem read_eq_error_iff {line : List Char} {cause : LineError} :
    read line = .error cause ↔ Wrong line cause := by
  unfold read Wrong
  rw [readWords_eq_error_iff]
  constructor
  · intro mistake
    exact ⟨_, _, cut_beforeComment line, Text.spaced_words _, mistake⟩
  · rintro ⟨code, ws, cut, spaced, mistake⟩
    rwa [words_of_cut cut spaced]

/-- The lines outside the grammar (`Bad`) are those with a mistake (`Wrong`). -/
theorem bad_iff_wrong {line : List Char} : Bad line ↔ ∃ cause, Wrong line cause := by
  simp only [Bad, ← read_eq_ok_iff, ← read_eq_error_iff]
  cases read line <;> simp

private theorem not_bad_iff {line : List Char} : ¬ Bad line ↔ ∃ i?, read line = .ok i? := by
  simp [Bad, read_eq_ok_iff]

end Line

/-! ## Whole texts -/

namespace Listing

/-- The first bad line of a text and its number, counted from one: no line before it is
`Line.Bad`. -/
def FirstBad (text : List Char) (number : Nat) (line : List Char) : Prop :=
  ∃ before after, Text.Lined text (before ++ line :: after) ∧ (∀ l ∈ before, ¬ Line.Bad l) ∧
    Line.Bad line ∧ number = before.length + 1

theorem FirstBad.bad {text : List Char} {number : Nat} {line : List Char}
    (h : FirstBad text number line) : Line.Bad line := by
  obtain ⟨_, _, _, _, bad, _⟩ := h
  exact bad

/-- `readLines` stops at the first line that is `Line.Bad`, and the number it reports counts the
lines before it. -/
theorem readLines_eq_error_iff {number : Nat} {ls : List (List Char)} {e : SyntaxError} :
    readLines number ls = .error e ↔
      ∃ before line after, ls = before ++ line :: after ∧ (∀ l ∈ before, ¬ Line.Bad l) ∧
        (Line.Wrong line e.cause ∧ e.line = number + before.length) := by
  induction ls generalizing number with
  | nil => simp [readLines]
  | cons text rest ih =>
    rw [exists_first_cons (Q := fun k line => Line.Wrong line e.cause ∧ e.line = number + k)]
    cases read : Line.read text with
    | ok i? =>
      -- The line is fine, so the error is one of the rest, where the count is one further.
      have good : ¬ Line.Bad text := Line.not_bad_iff.mpr ⟨i?, read⟩
      have sound : ¬ Line.Wrong text e.cause := by
        rw [← Line.read_eq_error_iff, read]
        simp
      simp [readLines, read, map_eq_error_iff, ih, good, sound, Nat.add_assoc, Nat.add_comm 1]
    | error cause =>
      have bad : Line.Bad text := Line.bad_iff_wrong.mpr ⟨cause, Line.read_eq_error_iff.mp read⟩
      have wrong : Line.Wrong text e.cause ↔ cause = e.cause := by
        rw [← Line.read_eq_error_iff, read]
        simp
      obtain ⟨line, reported⟩ := e
      simp [readLines, read, bad, wrong, and_comm, eq_comm]

/-- `Listing.read` fails exactly at the `FirstBad` line of the text, with what is wrong with it. -/
theorem read_eq_error_iff {text : List Char} {e : SyntaxError} :
    read text = .error e ↔ ∃ line, FirstBad text e.line line ∧ Line.Wrong line e.cause := by
  rw [read, readLines_eq_error_iff]
  constructor
  · rintro ⟨before, line, after, split, sound, wrong, number⟩
    refine ⟨line, ⟨before, after, ?_, sound, Line.bad_iff_wrong.mpr ⟨_, wrong⟩, ?_⟩, wrong⟩
    · exact Text.lines_eq_iff.mp split
    · omega
  · rintro ⟨line, ⟨before, after, lined, sound, _, number⟩, wrong⟩
    exact ⟨before, line, after, Text.lines_eq_iff.mpr lined, sound, wrong, by omega⟩

/-- A text is refused exactly when one of its lines is bad. -/
private theorem exists_error_iff {text : List Char} :
    (∃ e, read text = .error e) ↔ ∃ ls, Text.Lined text ls ∧ ∃ line ∈ ls, Line.Bad line := by
  constructor
  · rintro ⟨e, refused⟩
    obtain ⟨line, ⟨before, after, lined, _, bad, _⟩, _⟩ := read_eq_error_iff.mp refused
    exact ⟨_, lined, line, by simp, bad⟩
  · rintro ⟨ls, lined, line, inside, bad⟩
    cases result : read text with
    | error e => exact ⟨e, rfl⟩
    | ok is =>
      -- An accepted text spells something on each of its lines, this one included.
      obtain ⟨ls', meanings, lined', spelled, _⟩ := read_eq_ok_iff.mp result
      cases (Text.lines_eq_iff.mpr lined).symm.trans (Text.lines_eq_iff.mpr lined')
      obtain ⟨i?, spells⟩ := exists_of_forall₂ spelled line inside
      exact absurd spells (bad i?)

/-- A text with this first bad line is refused with what is wrong with that line. -/
private theorem read_of_firstBad {text : List Char} {number : Nat} {line : List Char}
    {cause : LineError}
    (first : FirstBad text number line) (wrong : Line.Wrong line cause) :
    read text = .error ⟨number, cause⟩ :=
  read_eq_error_iff.mpr ⟨line, first, wrong⟩

end Listing

namespace LineError

/-- The word that a mistake quotes. Only a missing immediate quotes none. -/
def quoted? : LineError → Option String
  | .unknownInstruction token => some token
  | .missingImmediate _ => none
  | .invalidNumber token => some token
  | .unexpectedToken token => some token

end LineError

/-- A mistake quotes a word of its line as it stands there. -/
private theorem Line.Mistake.mem_of_quoted? {ws : List (List Char)} {cause : LineError}
    {token : String}
    (h : Mistake ws cause) (quoted : cause.quoted? = some token) : token.toList ∈ ws := by
  cases h with
  | number _ _ =>
    cases quoted
    simp
  | misuse _ misuse =>
    cases misuse with
    | missing => cases quoted
    | literal | unknown | surplus | noLiteral | surplusConst =>
      cases quoted
      simp

namespace Program

theorem ofListing_eq_error {text : String} {e : SyntaxError} :
    ofListing text = .error e ↔ Listing.read text.toList = .error e :=
  map_eq_error_iff

/-- The diagnosis that `ofListing` gives of a rejected text is complete.

- A text is rejected exactly when one of its lines is `Line.Bad`.
- The error has the number of the `Listing.FirstBad` line, and its cause is what is `Line.Wrong`
  with that line.
- So the cause depends on that line alone: two texts that have the same first bad line are rejected
  for the same cause, whatever stands before and behind it.
- A word that the error quotes is a word of that line as it is written there. -/
theorem ofListing_diagnosis (text : String) :
    ((∃ e, ofListing text = .error e) ↔
      ∃ ls, Text.Lined text.toList ls ∧ ∃ line ∈ ls, Line.Bad line) ∧
    (∀ e, ofListing text = .error e ↔
      ∃ line, Listing.FirstBad text.toList e.line line ∧ Line.Wrong line e.cause) ∧
    (∀ (other : String) (line : List Char) (m n : Nat),
      Listing.FirstBad text.toList m line → Listing.FirstBad other.toList n line →
        ∃ cause, ofListing text = .error ⟨m, cause⟩ ∧ ofListing other = .error ⟨n, cause⟩) ∧
    (∀ e token, ofListing text = .error e → e.cause.quoted? = some token →
      ∃ line code ws, Listing.FirstBad text.toList e.line line ∧ Line.Cut line code ∧
        Text.Spaced code ws ∧ token.toList ∈ ws) := by
  simp only [ofListing_eq_error]
  refine ⟨Listing.exists_error_iff, fun e => Listing.read_eq_error_iff, ?_, ?_⟩
  · intro other line m n first first'
    obtain ⟨cause, wrong⟩ := Line.bad_iff_wrong.mp first.bad
    exact ⟨cause, Listing.read_of_firstBad first wrong, Listing.read_of_firstBad first' wrong⟩
  · intro e token refused quoted
    obtain ⟨line, first, code, ws, cut, spaced, mistake⟩ := Listing.read_eq_error_iff.mp refused
    exact ⟨line, code, ws, first, cut, spaced, mistake.mem_of_quoted? quoted⟩

/-- A line with several mistakes: the constant has no literal, there are words too many, and two
numbers are malformed. The leftmost of these counts, on the fourth line of one text as on the only
line of another. -/
theorem ofListing_diagnosis_leftmost :
    let line := "i32.const x +0x10 +0x 99z ;; 7".toList
    let text := "nop\n;; 99z\n\ni32.const x +0x10 +0x 99z ;; 7\r\nfrob"
    let other := "i32.const x +0x10 +0x 99z ;; 7"
    (Listing.FirstBad text.toList 4 line ∧ Listing.FirstBad other.toList 1 line) ∧
      ofListing text = .error ⟨4, .invalidNumber "+0x"⟩ ∧
      ofListing other = .error ⟨1, .invalidNumber "+0x"⟩ ∧
      ∃ bad code ws, Listing.FirstBad text.toList 4 bad ∧ Line.Cut bad code ∧
        Text.Spaced code ws ∧ "+0x".toList ∈ ws := by
  have lines : Text.lines "nop\n;; 99z\n\ni32.const x +0x10 +0x 99z ;; 7\r\nfrob".toList =
      ["nop".toList, ";; 99z".toList, [], "i32.const x +0x10 +0x 99z ;; 7".toList,
        "frob".toList] := by rfl
  have lines' : Text.lines "i32.const x +0x10 +0x 99z ;; 7".toList =
      ["i32.const x +0x10 +0x 99z ;; 7".toList] := by rfl
  have wrong : Line.read "i32.const x +0x10 +0x 99z ;; 7".toList =
      .error (.invalidNumber "+0x") := by rfl
  intro line text other
  have bad : Line.Bad line := Line.bad_iff_wrong.mpr ⟨_, Line.read_eq_error_iff.mp wrong⟩
  have first : Listing.FirstBad text.toList 4 line := by
    refine ⟨["nop".toList, ";; 99z".toList, []], ["frob".toList], ?_, ?_, bad, rfl⟩
    · exact Text.lines_eq_iff.mp lines
    · simp only [List.forall_mem_cons, Line.not_bad_iff]
      exact ⟨⟨_, rfl⟩, ⟨_, rfl⟩, ⟨_, rfl⟩, by simp⟩
  have only : Listing.FirstBad other.toList 1 line :=
    ⟨[], [], Text.lines_eq_iff.mp lines', by simp, bad, rfl⟩
  obtain ⟨_, refusal, alike, quotes⟩ := ofListing_diagnosis text
  obtain ⟨cause, refused, refused'⟩ := alike other line 4 1 first only
  -- Reading the line settles which cause it is.
  have direct : ofListing text = .error ⟨4, .invalidNumber "+0x"⟩ :=
    (refusal _).mpr ⟨line, first, Line.read_eq_error_iff.mp wrong⟩
  cases refused.symm.trans direct
  exact ⟨⟨first, only⟩, refused, refused', quotes _ _ refused rfl⟩

end Program

end Straightline
