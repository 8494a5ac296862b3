import Straightline.Proofs.Arithmetic
import Straightline.Proofs.Format

/-!
# Canonical listings

What a canonical text looks like, said by its characters and not by the printer:

- `Literal.Canonical word z`: the one decimal numeral of an integer that has no plus sign, no zero
  in front of other digits and no minus sign in front of zero.
- `Line.Canonical line`: a word that is an instruction by itself, or `i32.const`, one space and the
  canonical numeral of a word of 32 bits.
- `Listing.Canonical text`: such lines, each ended by one newline.

At each level these are exactly the texts that are printed (`Literal.canonical_iff`,
`Line.canonical_iff`, `Listing.canonical_iff`). So formatting leaves a text as it is if and only if
the text is canonical.
-/

namespace Straightline

/-! ## Numerals -/

namespace Literal

/-- The canonical decimal numeral of an integer. It is the numeral `0`, or digits that do not start
with a zero, or such digits behind a minus sign. -/
inductive Canonical : List Char → Int → Prop where
  | zero : Canonical ['0'] 0
  | positive {digits : List Char} {v : Nat} (numeral : Numeral 10 digits v)
      (leading : digits.head? ≠ some '0') :
      Canonical digits v
  | negative {digits : List Char} {v : Nat} (numeral : Numeral 10 digits v)
      (leading : digits.head? ≠ some '0') :
      Canonical ('-' :: digits) (-v)

/-- A decimal digit is written in one way, the way `Nat.digitChar` writes it. -/
private theorem Digit.eq_digitChar {c : Char} {d : Nat} (h : Digit 10 c d) : c = d.digitChar := by
  have table : ∀ k < 10, k.digitChar.toUpper = k.digitChar := by decide
  rcases h with ⟨below, lower | upper⟩
  · exact lower
  · rw [upper, table d below]

/-- The digits of a number that is not zero start with another digit than zero. -/
private theorem head?_toDigits {v : Nat} (positive : 0 < v) :
    (Nat.toDigits 10 v).head? ≠ some '0' := by
  -- The first digit of a larger number is the first digit of its tenth.
  induction v using Nat.strongRecOn with
  | ind v ih =>
    by_cases small : v < 10
    · rw [Nat.toDigits_of_lt_base small]
      simpa using Nat.ne_of_gt positive
    · have tenth := ih (v / 10) (by omega) (by omega)
      rw [Nat.toDigits_of_base_le (by decide) (by omega),
        List.head?_append_of_ne_nil _ Nat.toDigits_ne_nil]
      exact tenth

/-- Only a numeral that starts with zero can have the value zero. -/
theorem Numeral.pos {digits : List Char} {v : Nat} (h : Numeral 10 digits v)
    (leading : digits.head? ≠ some '0') : 0 < v := by
  induction h with
  | digit hc =>
    apply Nat.pos_of_ne_zero
    intro zero
    apply leading
    rw [hc.eq_digitChar, zero]
    rfl
  | append init _ ih =>
    rw [List.head?_append_of_ne_nil _ init.ne_nil] at leading
    have front := ih leading
    omega

/-- A numeral that does not start with zero is the text of its value: two such numerals of one value
are the same. -/
private theorem Numeral.eq_toDigits {digits : List Char} {v : Nat} (h : Numeral 10 digits v)
    (leading : digits.head? ≠ some '0') : digits = Nat.toDigits 10 v := by
  induction h with
  | digit hc =>
    rw [Nat.toDigits_of_lt_base hc.1, hc.eq_digitChar]
  | append init hc ih =>
    rw [List.head?_append_of_ne_nil _ init.ne_nil] at leading
    rw [← Nat.toDigits_append_toDigits (by decide) (init.pos leading) hc.1,
      Nat.toDigits_of_lt_base hc.1, ← ih leading, hc.eq_digitChar]

private theorem Canonical.eq_toString {word : List Char} {z : Int} (h : Canonical word z) :
    word = (toString z).toList := by
  rw [Int.toString_eq_repr, Int.repr_eq_if]
  cases h with
  | zero => rfl
  | @positive _ v numeral leading =>
    have value : (v : Int).toNat = v := Int.toNat_natCast v
    rw [if_pos (Int.natCast_nonneg v), value, Nat.toList_repr]
    exact numeral.eq_toDigits leading
  | @negative digits v numeral leading =>
    have positive : 0 < v := numeral.pos leading
    have below : ¬ 0 ≤ (-v : Int) := by omega
    have value : (-(-v : Int)).toNat = v := by omega
    rw [if_neg below, value, String.toList_append, Nat.toList_repr, ← numeral.eq_toDigits leading]
    rfl

private theorem canonical_toString (z : Int) : Canonical (toString z).toList z := by
  rw [Int.toString_eq_repr, Int.repr_eq_if]
  split
  case isTrue nonneg =>
    rw [Nat.toList_repr]
    -- Zero is the one number whose text starts with a zero.
    by_cases zero : z = 0
    · subst zero
      exact .zero
    · have value : ((z.toNat : Nat) : Int) = z := Int.toNat_of_nonneg nonneg
      have text : Canonical (Nat.toDigits 10 z.toNat) (z.toNat : Int) :=
        .positive (numeral_toDigits _) (head?_toDigits (by omega))
      rwa [value] at text
  case isFalse negative =>
    rw [String.toList_append, Nat.toList_repr]
    have value : (-((-z).toNat : Int)) = z := by omega
    have text : Canonical ('-' :: Nat.toDigits 10 (-z).toNat) (-((-z).toNat : Int)) :=
      .negative (numeral_toDigits _) (head?_toDigits (by omega))
    rwa [value] at text

/-- The canonical numeral of an integer is its decimal text (`toString`), and there is no other. -/
theorem canonical_iff {word : List Char} {z : Int} :
    Canonical word z ↔ word = (toString z).toList := by
  refine ⟨Canonical.eq_toString, ?_⟩
  intro text
  rw [text]
  exact canonical_toString z

end Literal

/-! ## Lines -/

namespace Line

/-- A canonical line: a word that is an instruction by itself (`bareInstructions`), or a constant
with one space in front of the canonical numeral of its word. -/
inductive Canonical : List Char → Prop where
  | bare {name : String} {i : Instruction} (known : (name, i) ∈ bareInstructions) :
      Canonical name.toList
  | const {numeral : List Char} {z : Int} (canonical : Literal.Canonical numeral z)
      (range : Representable z) :
      Canonical ("i32.const".toList ++ ' ' :: numeral)

/-- An instruction of the table is printed as the word of its entry. -/
private theorem text_of_bare {name : String} {i : Instruction}
    (known : (name, i) ∈ bareInstructions) :
    i.text = name := by
  have table : ∀ entry ∈ bareInstructions, entry.2.text = entry.1 := by decide
  exact table (name, i) known

/-- Every instruction but a constant is in the table, under its text. -/
private theorem mem_bareInstructions_of_ofOpcode? {i : Instruction}
    (bare : Instruction.ofOpcode? i.opcode = some i) : (i.text, i) ∈ bareInstructions := by
  have known : (i.mnemonic, i) ∈ bareInstructions := by
    apply mem_bareInstructions_iff.mpr
    exact ⟨i.opcode, Opcode.ofMnemonic?_mnemonic i.opcode, bare⟩
  rwa [text_of_bare known]

private theorem canonical_text (i : Instruction) : Canonical i.text.toList := by
  cases i with
  | const n =>
    rw [Instruction.toList_text_const]
    exact .const (Literal.canonical_iff.mpr rfl) (representable_toInt n)
  | nop => exact .bare (mem_bareInstructions_of_ofOpcode? rfl)
  | drop => exact .bare (mem_bareInstructions_of_ofOpcode? rfl)
  | operator op => exact .bare (mem_bareInstructions_of_ofOpcode? rfl)

/-- The canonical lines are those that `Instruction.text` prints for some instruction. -/
theorem canonical_iff {line : List Char} :
    Canonical line ↔ ∃ i : Instruction, line = i.text.toList := by
  refine ⟨?_, ?_⟩
  · intro canonical
    cases canonical with
    | @bare name i known =>
      refine ⟨i, ?_⟩
      rw [text_of_bare known]
    | @const numeral z canonical range =>
      obtain ⟨n, value⟩ := exists_of_representable range
      refine ⟨.const n, ?_⟩
      rw [Instruction.toList_text_const, value, Literal.canonical_iff.mp canonical]
  · intro ⟨i, printed⟩
    rw [printed]
    exact canonical_text i

end Line

/-! ## Listings -/

namespace Listing

/-- A canonical text: canonical lines, each ended by one newline. -/
inductive Canonical : List Char → Prop where
  | nil : Canonical []
  | line {line rest : List Char} (first : Line.Canonical line) (others : Canonical rest) :
      Canonical (line ++ '\n' :: rest)

private theorem toList_listing_cons (i : Instruction) (is : List Instruction) :
    (Program.ofList (i :: is)).listing.toList =
      i.text.toList ++ '\n' :: (Program.ofList is).listing.toList := by
  simp [Program.listing, Program.lines, unlines]

private theorem canonical_listing (is : List Instruction) :
    Canonical (Program.ofList is).listing.toList := by
  induction is with
  | nil => exact .nil
  | cons i is ih =>
    rw [toList_listing_cons]
    exact .line (Line.canonical_text i) ih

/-- The canonical texts are those that `Program.listing` prints for some program. -/
theorem canonical_iff {text : List Char} :
    Canonical text ↔ ∃ p : Program, text = p.listing.toList := by
  refine ⟨?_, ?_⟩
  · intro canonical
    -- One instruction for each line, in order.
    induction canonical with
    | nil => exact ⟨.ofList [], rfl⟩
    | line first _ ih =>
      obtain ⟨i, head⟩ := Line.canonical_iff.mp first
      obtain ⟨p, tail⟩ := ih
      refine ⟨.ofList (i :: p.toList), ?_⟩
      rw [toList_listing_cons, Program.ofList_toList, head, tail]
  · intro ⟨p, printed⟩
    rw [printed]
    exact canonical_listing p.toList

end Listing

namespace Program

/-- A text that is printed for some program is printed for the one that it is read as, since
`ofListing` undoes `listing` (`read_listing`). -/
theorem listing_fixed_iff {text : String} :
    (∃ p, ofListing text = .ok p ∧ p.listing = text) ↔ ∃ p : Program, text = p.listing := by
  refine ⟨?_, ?_⟩
  · intro ⟨p, _, printed⟩
    exact ⟨p, printed.symm⟩
  · intro ⟨p, printed⟩
    refine ⟨p, ?_, printed.symm⟩
    rw [printed]
    exact Program.ofListing_of_read p.read_listing

/-- The format command prints a text unchanged exactly if the text is the `listing` of what it is
read as. A text that is no listing is not printed at all. -/
theorem stdout_format_eq_iff {text path : String} :
    ((CommandLine.Command.format path).execute (.ok text)).stdout = text ↔
      ∃ p, ofListing text = .ok p ∧ p.listing = text := by
  cases read : ofListing text with
  | ok p =>
    rw [CommandLine.execute_format_of_ok read]
    refine ⟨fun printed => ⟨p, rfl, printed⟩, ?_⟩
    intro ⟨q, same, printed⟩
    cases same
    exact printed
  | error e =>
    rw [CommandLine.execute_of_error read]
    refine ⟨?_, ?_⟩
    · -- Nothing is printed, but the empty text would have been read.
      intro (empty : "" = text)
      have accepted : ofListing "" = .ok (.ofList []) := by rfl
      rw [← empty, accepted] at read
      cases read
    · intro ⟨q, same, _⟩
      cases same

/-- Canonical texts are exactly the fixed points of formatting.

- A text is the `listing` of the program that `ofListing` reads it as if and only if it is
  `Listing.Canonical`: canonical lines, each ended by one newline.
- These are also the texts that the format command prints unchanged.
- Different programs have different listings. -/
theorem canonical_iff_fixed (text : String) :
    ((∃ p, ofListing text = .ok p ∧ p.listing = text) ↔ Listing.Canonical text.toList) ∧
    (∀ path, ((CommandLine.Command.format path).execute (.ok text)).stdout = text ↔
      Listing.Canonical text.toList) ∧
    Function.Injective listing := by
  have fixed : (∃ p, ofListing text = .ok p ∧ p.listing = text) ↔
      Listing.Canonical text.toList := by
    rw [listing_fixed_iff, Listing.canonical_iff]
    simp only [String.toList_inj]
  refine ⟨fixed, ?_, ?_⟩
  · intro path
    exact stdout_format_eq_iff.trans fixed
  · intro p q same
    have read := p.read_listing
    rw [same, q.read_listing] at read
    have instructions : q.toList = p.toList := Except.ok.inj read
    rw [← p.ofList_toList, ← instructions, q.ofList_toList]

end Program

end Straightline
