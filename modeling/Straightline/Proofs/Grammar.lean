import Mathlib.Data.List.Forall2
import Mathlib.Data.List.ReduceOption
import Straightline.Listing
import Straightline.Proofs.Literal
import Straightline.Proofs.Text

/-!
# The grammar of listings

What a listing says, line by line, apart from how it is read:

- `Line.Cut line code`: the part of a line in front of its comment.
- `Line.Phrase ws i?`: the words of a line and the instruction they are, if any.
- `Line.Spells line i?` and `Listing.Spells text is`: the meaning of a line and of a whole text.

Reading accepts exactly this grammar and gives it this meaning, for a line
(`Line.read_eq_ok_iff`) as for a text (`Listing.read_eq_ok_iff`).
-/

namespace Straightline

/-! ## Comments -/

namespace Line

/-- The sign that starts a comment. -/
def commentSign : List Char := [';', ';']

/-- A line and its part in front of the first comment sign. The sign is the first if none starts in
the part, not even with the last character of it. -/
inductive Cut : List Char → List Char → Prop where
  | whole {line : List Char} (absent : ¬ commentSign <:+: line) :
      Cut line line
  | comment {code comment : List Char} (first : ¬ commentSign <:+: code ++ [';']) :
      Cut (code ++ commentSign ++ comment) code

theorem beforeComment_cons {c : Char} {rest : List Char} (h : ¬ commentSign <+: c :: rest) :
    beforeComment (c :: rest) = c :: beforeComment rest := by
  rw [beforeComment]
  rintro comment rfl rfl
  exact h ⟨comment, rfl⟩

theorem beforeComment_of_absent {line : List Char} (absent : ¬ commentSign <:+: line) :
    beforeComment line = line := by
  induction line with
  | nil => rfl
  | cons c rest ih =>
    rw [List.infix_cons_iff, not_or] at absent
    rw [beforeComment_cons absent.1, ih absent.2]

private theorem sign_prefix_iff (c : Char) (code rest : List Char) :
    commentSign <+: c :: (code ++ ';' :: rest) ↔ commentSign <+: c :: (code ++ [';']) := by
  -- A sign that starts at `c` takes one more character: the first of the code, or the semicolon
  -- behind it.
  cases code with
  | nil => simp [commentSign, List.cons_prefix_cons]
  | cons d code => simp [commentSign, List.cons_prefix_cons]

theorem beforeComment_of_first {code : List Char} (comment : List Char)
    (first : ¬ commentSign <:+: code ++ [';']) :
    beforeComment (code ++ commentSign ++ comment) = code := by
  induction code with
  | nil => rfl
  | cons c code ih =>
    rw [List.cons_append, List.infix_cons_iff, not_or] at first
    have later : ¬ commentSign <+: c :: (code ++ commentSign ++ comment) := by
      rw [List.append_assoc]
      exact fun h => first.1 ((sign_prefix_iff c code (';' :: comment)).mp h)
    rw [List.cons_append, List.cons_append, beforeComment_cons later, ih first.2]

theorem cut_beforeComment (line : List Char) : Cut line (beforeComment line) := by
  induction line with
  | nil => exact .whole (by decide)
  | cons c rest ih =>
    by_cases here : commentSign <+: c :: rest
    · -- The line starts with its comment.
      obtain ⟨comment, hcomment⟩ := here
      rw [← hcomment]
      show Cut ([] ++ commentSign ++ comment) []
      exact .comment (by decide)
    · rw [beforeComment_cons here]
      generalize beforeComment rest = code at ih
      cases ih with
      | whole absent =>
        refine .whole ?_
        rw [List.infix_cons_iff, not_or]
        exact ⟨here, absent⟩
      | @comment _ comment first =>
        -- No sign starts with `c`, so the one found in the rest is still the first.
        have first' : ¬ commentSign <:+: c :: code ++ [';'] := by
          rw [List.cons_append, List.infix_cons_iff, not_or]
          refine ⟨fun h => here ?_, first⟩
          rw [List.append_assoc]
          exact (sign_prefix_iff c code (';' :: comment)).mpr h
        exact .comment first'

/-- `beforeComment` gives the only part that a line can be `Cut` to. -/
theorem beforeComment_eq_iff {line code : List Char} :
    beforeComment line = code ↔ Cut line code := by
  constructor
  · rintro rfl
    exact cut_beforeComment line
  · rintro (absent | ⟨first⟩)
    · exact beforeComment_of_absent absent
    · exact beforeComment_of_first _ first

end Line

/-! ## Phrases -/

/-- The words that are an instruction by themselves, written out. -/
def bareInstructions : List (String × Instruction) :=
  [ ("nop", .nop), ("drop", .drop),
    ("i32.eq", .operator .eq), ("i32.ne", .operator .ne),
    ("i32.lt_s", .operator .lt), ("i32.gt_s", .operator .gt),
    ("i32.le_s", .operator .le), ("i32.ge_s", .operator .ge),
    ("i32.add", .operator .add), ("i32.sub", .operator .sub),
    ("i32.mul", .operator .mul), ("i32.div_s", .operator .div) ]

namespace Line

/-- The words of a line and the instruction they are: none at all, a word that is an instruction by
itself (`bareInstructions`), or a constant with its literal (`Literal.Denotes`). -/
inductive Phrase : List (List Char) → Option Instruction → Prop where
  | empty : Phrase [] none
  | bare {name : String} {i : Instruction} (known : (name, i) ∈ bareInstructions) :
      Phrase [name.toList] (some i)
  | const {literal : List Char} {n : Int32} (denotes : Literal.Denotes literal n) :
      Phrase ["i32.const".toList, literal] (some (.const n))

/-- The table `bareInstructions` holds the opcodes without immediate, each under its mnemonic. -/
theorem mem_bareInstructions_iff {name : String} {i : Instruction} :
    (name, i) ∈ bareInstructions ↔
      ∃ op, Opcode.ofMnemonic? name = some op ∧ Instruction.ofOpcode? op = some i := by
  constructor
  · intro h
    have table : ∀ entry ∈ bareInstructions,
        Opcode.ofMnemonic? entry.1 = some entry.2.opcode ∧
          Instruction.ofOpcode? entry.2.opcode = some entry.2 := by decide
    exact ⟨i.opcode, table (name, i) h⟩
  · rintro ⟨op, named, bare⟩
    rw [Opcode.ofMnemonic?_eq_some_iff] at named
    subst named
    cases op with
    | operator op => cases op <;> cases bare <;> decide
    | nop | drop => cases bare; decide
    | const => cases bare

/-- No word of the table is a literal. -/
theorem not_starts_of_bare {name : String} {i : Instruction} (h : (name, i) ∈ bareInstructions) :
    Literal.starts name.toList = false := by
  have table : ∀ entry ∈ bareInstructions, Literal.starts entry.1.toList = false := by decide
  exact table (name, i) h

/-- `instruction` accepts no operand, or for the constant one number, and nothing else. -/
theorem instruction_eq_ok_iff {op : Opcode} {operands : List Token} {i : Instruction} :
    instruction op operands = .ok i ↔
      (Instruction.ofOpcode? op = some i ∧ operands = []) ∨
        (op = .const ∧ ∃ n text, operands = [.number n text] ∧ i = .const n) := by
  constructor
  · intro h
    unfold instruction at h
    split at h
    case h_1 j bare =>
      cases h
      exact .inl ⟨bare, rfl⟩
    case h_5 n text needs =>
      -- Only the constant is no instruction by itself.
      cases h
      have hop : op = .const := by
        cases op <;> first | rfl | cases needs
      exact .inr ⟨hop, n, text, rfl, rfl⟩
    -- The other branches report a missing or a superfluous operand.
    all_goals cases h
  · rintro (⟨bare, rfl⟩ | ⟨rfl, n, text, rfl, rfl⟩)
    · simp [instruction, bare]
    · rfl

theorem tokens_eq_ok_iff {ws : List (List Char)} {ts : List Token} :
    tokens ws = .ok ts ↔ List.Forall₂ (fun w t => Token.read? w = some t) ws ts := by
  constructor
  · intro h
    induction ws generalizing ts with
    | nil =>
      cases h
      exact .nil
    | cons w ws ih =>
      unfold tokens at h
      split at h
      case h_1 t read =>
        obtain ⟨ts', rest, rfl⟩ := map_eq_ok_iff.mp h
        exact .cons read (ih rest)
      case h_2 => cases h
  · intro h
    induction h with
    | nil => rfl
    | cons read _ ih =>
      rw [tokens, read, ih]
      rfl

/-- What the tokens of a line can spell for `ofTokens`: nothing, a bare instruction, or a
constant. -/
theorem ofTokens_eq_ok_iff {ts : List Token} {i? : Option Instruction} :
    ofTokens ts = .ok i? ↔
      (ts = [] ∧ i? = none) ∨
        (∃ name i, ts = [.name name] ∧ (name, i) ∈ bareInstructions ∧ i? = some i) ∨
        (∃ n text, ts = [.name "i32.const", .number n text] ∧ i? = some (.const n)) := by
  constructor
  · intro h
    unfold ofTokens at h
    split at h
    case h_1 =>
      cases h
      exact .inl ⟨rfl, rfl⟩
    case h_2 => cases h -- a number cannot come first
    case h_3 name operands =>
      split at h
      case h_1 op named =>
        obtain ⟨i, built, rfl⟩ := map_eq_ok_iff.mp h
        rcases instruction_eq_ok_iff.mp built with ⟨bare, rfl⟩ | ⟨rfl, n, text, rfl, rfl⟩
        · have known := mem_bareInstructions_iff.mpr ⟨op, named, bare⟩
          exact .inr (.inl ⟨name, i, rfl, known, rfl⟩)
        · have hname : name = "i32.const" := Opcode.ofMnemonic?_eq_some_iff.mp named
          subst hname
          exact .inr (.inr ⟨n, text, rfl, rfl⟩)
      case h_2 => cases h -- the name is no mnemonic
  · rintro (⟨rfl, rfl⟩ | ⟨name, i, rfl, known, rfl⟩ | ⟨n, text, rfl, rfl⟩)
    · rfl
    · obtain ⟨op, named, bare⟩ := mem_bareInstructions_iff.mp known
      have built : instruction op [] = .ok i := instruction_eq_ok_iff.mpr (.inl ⟨bare, rfl⟩)
      simp only [ofTokens, named, built]
      rfl
    · have named : Opcode.ofMnemonic? "i32.const" = some .const :=
        Opcode.ofMnemonic?_mnemonic .const
      simp only [ofTokens, named]
      rfl

/-- The words of a line, read first as tokens and then as an instruction, are read as the `Phrase`
they are. -/
theorem readWords_eq_ok_iff {ws : List (List Char)} {i? : Option Instruction} :
    (do ofTokens (← tokens ws)) = .ok i? ↔ Phrase ws i? := by
  rw [bind_eq_ok_iff]
  constructor
  · rintro ⟨ts, read, spelled⟩
    have wordwise := tokens_eq_ok_iff.mp read
    rcases ofTokens_eq_ok_iff.mp spelled with
      ⟨rfl, rfl⟩ | ⟨name, i, rfl, known, rfl⟩ | ⟨n, text, rfl, rfl⟩
    · cases wordwise
      exact .empty
    · -- A name token is its word, so the entry of the table is the one for this word.
      rcases wordwise with _ | ⟨first, _ | _⟩
      obtain ⟨_, rfl⟩ := Token.read?_eq_name_iff.mp first
      have phrase := Phrase.bare known
      rwa [String.toList_ofList] at phrase
    · rcases wordwise with _ | ⟨first, _ | ⟨second, _ | _⟩⟩
      obtain ⟨_, hname⟩ := Token.read?_eq_name_iff.mp first
      obtain ⟨denotes, _⟩ := Token.read?_eq_number_iff.mp second
      have phrase := Phrase.const denotes
      rwa [hname, String.toList_ofList] at phrase
  · intro phrase
    cases phrase with
    | empty => exact ⟨[], rfl, rfl⟩
    | @bare name i known =>
      have plain := not_starts_of_bare known
      have read : Token.read? name.toList = some (.name name) :=
        Token.read?_eq_name_iff.mpr ⟨plain, by simp⟩
      exact ⟨[.name name], tokens_eq_ok_iff.mpr (.cons read .nil),
        ofTokens_eq_ok_iff.mpr (.inr (.inl ⟨name, i, rfl, known, rfl⟩))⟩
    | @const literal n denotes =>
      have first : Token.read? "i32.const".toList = some (.name "i32.const") :=
        Token.read?_eq_name_iff.mpr ⟨by decide, by simp⟩
      have second : Token.read? literal = some (.number n (String.ofList literal)) :=
        Token.read?_eq_number_iff.mpr ⟨denotes, rfl⟩
      exact ⟨_, tokens_eq_ok_iff.mpr (.cons first (.cons second .nil)),
        ofTokens_eq_ok_iff.mpr (.inr (.inr ⟨n, _, rfl, rfl⟩))⟩

/-! ## Lines and listings -/

/-- A line and the instruction it holds, if any: it is `Cut` to the part in front of its comment,
that part is spaced into words, and the words are a `Phrase`. -/
def Spells (line : List Char) (i? : Option Instruction) : Prop :=
  ∃ code ws, Cut line code ∧ Text.Spaced code ws ∧ Phrase ws i?

/-- The words of a line are those that its part in front of the comment is spaced into. -/
theorem words_of_cut {line code : List Char} {ws : List (List Char)} (cut : Cut line code)
    (spaced : Text.Spaced code ws) : words line = ws := by
  rw [words, beforeComment_eq_iff.mpr cut]
  exact Text.words_eq_iff.mpr spaced

/-- `Line.read` succeeds on what the grammar allows, with the instruction that the line `Spells`. -/
theorem read_eq_ok_iff {line : List Char} {i? : Option Instruction} :
    read line = .ok i? ↔ Spells line i? := by
  unfold read Spells
  rw [readWords_eq_ok_iff]
  constructor
  · intro phrase
    exact ⟨_, _, cut_beforeComment line, Text.spaced_words _, phrase⟩
  · rintro ⟨code, ws, cut, spaced, phrase⟩
    rwa [words_of_cut cut spaced]

end Line

namespace Listing

/-- A text and the instructions it holds: those of its lines in order, where lines without an
instruction are passed over. -/
def Spells (text : List Char) (is : List Instruction) : Prop :=
  ∃ ls meanings, Text.Lined text ls ∧ List.Forall₂ Line.Spells ls meanings ∧
    is = meanings.reduceOption

/-- `readLines` succeeds if each line `Line.Spells` something, and collects what they spell. The
numbers of the lines play no part in it. -/
theorem readLines_eq_ok_iff {line : Nat} {ls : List (List Char)} {is : List Instruction} :
    readLines line ls = .ok is ↔
      ∃ meanings, List.Forall₂ Line.Spells ls meanings ∧ is = meanings.reduceOption := by
  induction ls generalizing line is with
  | nil =>
    constructor
    · intro h
      cases h
      exact ⟨[], .nil, rfl⟩
    · rintro ⟨_, _ | _, rfl⟩
      rfl
  | cons text rest ih =>
    constructor
    · intro h
      unfold readLines at h
      split at h
      case h_1 i? read =>
        -- The line contributes its instruction, if any, in front of those of the rest.
        obtain ⟨is', tail, rfl⟩ := map_eq_ok_iff.mp h
        obtain ⟨meanings, spelled, rfl⟩ := ih.mp tail
        refine ⟨i? :: meanings, .cons (Line.read_eq_ok_iff.mp read) spelled, ?_⟩
        cases i? <;> rfl
      case h_2 => cases h
    · rintro ⟨_, _ | ⟨first, tail⟩, rfl⟩
      rename_i i? meanings
      have head : Line.read text = .ok i? := Line.read_eq_ok_iff.mpr first
      have others : readLines (line + 1) rest = .ok meanings.reduceOption :=
        ih.mpr ⟨meanings, tail, rfl⟩
      rw [readLines, head, others]
      cases i? <;> rfl

/-- `Listing.read` succeeds on the texts of the grammar, with the instructions that they spell. -/
theorem read_eq_ok_iff {text : List Char} {is : List Instruction} :
    read text = .ok is ↔ Spells text is := by
  rw [read, readLines_eq_ok_iff]
  constructor
  · rintro ⟨meanings, spelled, collected⟩
    exact ⟨_, meanings, Text.lined_lines text, spelled, collected⟩
  · rintro ⟨ls, meanings, lined, spelled, collected⟩
    rw [Text.lines_eq_iff.mpr lined]
    exact ⟨meanings, spelled, collected⟩

end Listing

namespace Program

/-- `ofListing` gives a program exactly when the text spells that program (`Listing.Spells`): every
line is empty, a bare instruction or a constant with a literal in range, before a comment if there
is one, and the program holds the instructions of the lines in order. -/
theorem ofListing_eq_ok_iff (text : String) (p : Program) :
    ofListing text = .ok p ↔ Listing.Spells text.toList p.toList := by
  unfold ofListing
  rw [map_eq_ok_iff]
  constructor
  · rintro ⟨is, read, rfl⟩
    rw [toList_ofList]
    exact Listing.read_eq_ok_iff.mp read
  · intro spelled
    have read : Listing.read text.toList = .ok p.toList := Listing.read_eq_ok_iff.mpr spelled
    exact ⟨p.toList, read, ofList_toList p⟩

end Program

end Straightline
