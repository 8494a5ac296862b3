import Straightline.Proofs.Grammar

/-!
# Writing and reading back

The canonical listing of a program spells the program: each instruction is written as a line that
spells it (`Instruction.spells_text`), and the lines of the listing are the lines written
(`Program.lined_listing`). So reading a canonical listing gives the program back.
-/

namespace Straightline

/-! ## The characters of a canonical line -/

/-- A character that is neither white space nor part of a comment sign. -/
def Plain (c : Char) : Prop :=
  Text.isBlank c = false ∧ c ≠ ';'

private theorem plain_of_mem_mnemonic (op : Opcode) : ∀ c ∈ op.mnemonic.toList, Plain c := by
  have table : ∀ op ∈ Opcode.all,
      (op.mnemonic.toList.all fun c => !Text.isBlank c && c != ';') = true := by
    decide
  simpa [Plain] using table op (Opcode.mem_all op)

private theorem mnemonic_ne_nil (op : Opcode) : op.mnemonic.toList ≠ [] := by
  have table : ∀ op ∈ Opcode.all, op.mnemonic.toList ≠ [] := by decide
  exact table op (Opcode.mem_all op)

theorem plain_of_isDigit {c : Char} (h : c.isDigit = true) : Plain c := by
  have range : 48 ≤ c.toNat ∧ c.toNat ≤ 57 := by
    simpa [Char.isDigit, UInt32.le_iff_toNat_le] using h
  constructor
  · simp [Text.isBlank, Text.blankRanges]
    omega
  · rintro rfl
    exact absurd h (by decide)

/-- A number is written in decimal with `Plain` characters. -/
theorem plain_of_mem_toString {z : Int} : ∀ c ∈ (toString z).toList, Plain c := by
  intro c hc
  rcases Literal.mem_toString hc with rfl | digit
  · exact ⟨by decide, by decide⟩
  · exact plain_of_isDigit digit

namespace Instruction

/-- The text of a constant: the opcode, a space, and the immediate in decimal. -/
theorem toList_text_const (n : Int32) :
    (const n).text.toList = "i32.const".toList ++ ' ' :: (toString n.toInt).toList := by
  simp [text, Opcode.mnemonic]

/-- A line is written with `Plain` characters, and with spaces between its words. -/
theorem mem_text {i : Instruction} {c : Char} (hc : c ∈ i.text.toList) : Plain c ∨ c = ' ' := by
  cases i with
  | const n =>
    rw [toList_text_const, List.mem_append, List.mem_cons] at hc
    rcases hc with name | rfl | number
    · exact .inl (plain_of_mem_mnemonic .const c name)
    · exact .inr rfl
    · exact .inl (plain_of_mem_toString c number)
  | nop => exact .inl (plain_of_mem_mnemonic .nop c hc)
  | drop => exact .inl (plain_of_mem_mnemonic .drop c hc)
  | operator op => exact .inl (plain_of_mem_mnemonic (.operator op) c hc)

/-- Nothing in a line starts a comment or ends the line. -/
private theorem not_mem_text (i : Instruction) {c : Char} (h : c = ';' ∨ c = '\n' ∨ c = '\r') :
    c ∉ i.text.toList := by
  intro hc
  have special : ¬ (Plain c ∨ c = ' ') := by
    rcases h with rfl | rfl | rfl
    · rintro (⟨_, semicolon⟩ | space)
      · exact semicolon rfl
      · exact absurd space (by decide)
    · rintro (⟨solid, _⟩ | space)
      · exact absurd solid (by decide)
      · exact absurd space (by decide)
    · rintro (⟨solid, _⟩ | space)
      · exact absurd solid (by decide)
      · exact absurd space (by decide)
  exact special (mem_text hc)

/-! ## Lines of a canonical listing -/

/-- A line has no comment. -/
private theorem cut_text (i : Instruction) : Line.Cut i.text.toList i.text.toList := by
  refine .whole ?_
  intro sign
  -- A comment sign would bring a semicolon with it.
  have semicolon : ';' ∈ i.text.toList := sign.subset (by decide)
  exact i.not_mem_text (.inl rfl) semicolon

/-- An instruction of the table is written as the word of its entry. -/
private theorem spells_bare {i : Instruction} (known : (i.text, i) ∈ bareInstructions) :
    Line.Spells i.text.toList (some i) := by
  obtain ⟨op, named, _⟩ := Line.mem_bareInstructions_iff.mp known
  have hname : i.text = op.mnemonic := Opcode.ofMnemonic?_eq_some_iff.mp named
  have spaced : Text.Spaced i.text.toList [i.text.toList] := by
    rw [hname]
    exact .single (mnemonic_ne_nil op) fun c hc => (plain_of_mem_mnemonic op c hc).1
  exact ⟨_, _, i.cut_text, spaced, .bare known⟩

/-- A constant is written as two words with a space between them. -/
private theorem spells_const (n : Int32) : Line.Spells (const n).text.toList (some (const n)) := by
  have denotes := Literal.denotes_toString n
  have nonempty : (toString n.toInt).toList ≠ [] := by
    -- The empty text is no literal.
    intro empty
    have starts := Literal.starts_of_denotes denotes
    rw [empty] at starts
    cases starts
  have number : Text.Spaced (toString n.toInt).toList [(toString n.toInt).toList] :=
    .single nonempty fun c hc => (plain_of_mem_toString c hc).1
  have spaced : Text.Spaced (const n).text.toList
      ["i32.const".toList, (toString n.toInt).toList] := by
    rw [toList_text_const]
    have solid : ∀ c ∈ "i32.const".toList, Text.isBlank c = false :=
      fun c hc => (plain_of_mem_mnemonic .const c hc).1
    have space : Text.isBlank ' ' = true := by decide
    exact .word (mnemonic_ne_nil .const) solid (by simpa using space) (.blank space number)
  exact ⟨_, _, cut_text _, spaced, .const denotes⟩

/-- The text of each instruction is a line that `Spells` it. -/
theorem spells_text (i : Instruction) : Line.Spells i.text.toList (some i) := by
  cases i with
  | const n => exact spells_const n
  | nop | drop => exact spells_bare (by decide)
  | operator op =>
    refine spells_bare ?_
    cases op <;> decide

end Instruction

/-! ## Whole listings -/

namespace Listing

/-- Lines joined by `unlines` are the lines of the text, where none holds a newline or ends in a
carriage return. -/
theorem lined_unlines {ls : List String}
    (h : ∀ l ∈ ls, '\n' ∉ l.toList ∧ l.toList.getLast? ≠ some '\r') :
    Text.Lined (unlines ls).toList (ls.map String.toList) := by
  induction ls with
  | nil => exact .nil
  | cons l ls ih =>
    have head := h l (by simp)
    have tail := ih fun k hk => h k (by simp [hk])
    have shape : (unlines (l :: ls)).toList = l.toList ++ '\n' :: (unlines ls).toList := by
      simp [unlines]
    rw [shape]
    exact .newline head.1 head.2 tail

end Listing

namespace Program

/-- The lines of the canonical listing are the texts of the instructions. -/
theorem lined_listing (p : Program) :
    Text.Lined p.listing.toList (p.toList.map fun i => i.text.toList) := by
  have lined : Text.Lined p.listing.toList (p.lines.map String.toList) := by
    refine Listing.lined_unlines ?_
    intro l hl
    obtain ⟨i, _, rfl⟩ := List.mem_map.mp hl
    refine ⟨i.not_mem_text (.inr (.inl rfl)), fun last => ?_⟩
    exact i.not_mem_text (.inr (.inr rfl)) (List.mem_of_getLast? last)
  rwa [lines, List.map_map] at lined

/-- The canonical listing of a program `Spells` its instructions, one on each line. -/
theorem spells_listing (p : Program) : Listing.Spells p.listing.toList p.toList := by
  have spelled : List.Forall₂ Line.Spells (p.toList.map fun i => i.text.toList)
      (p.toList.map some) := by
    rw [List.forall₂_map_left_iff, List.forall₂_map_right_iff, List.forall₂_same]
    exact fun i _ => i.spells_text
  have collected : p.toList = (p.toList.map some).reduceOption := by
    simp [List.reduceOption]
  exact ⟨_, _, p.lined_listing, spelled, collected⟩

/-- `Listing.read` gives the instructions back from the characters of the canonical listing. -/
theorem read_listing (p : Program) : Listing.read p.listing.toList = .ok p.toList :=
  Listing.read_eq_ok_iff.mpr p.spells_listing

/-- A text that is read as the instructions of a program is read as that program. -/
theorem ofListing_of_read {text : String} {p : Program}
    (h : Listing.read text.toList = .ok p.toList) : ofListing text = .ok p := by
  rw [ofListing, h]
  rfl

/-- The canonical listing of a program is read as that program: `ofListing` undoes `listing`,
whatever the instructions and their immediates are. -/
theorem ofListing_listing (p : Program) : ofListing p.listing = .ok p :=
  ofListing_of_read p.read_listing

end Program

end Straightline
