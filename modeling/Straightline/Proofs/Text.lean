import Straightline.Listing

/-!
# What lines and words are

Two relations that say what it means to split a text, without saying how:

- `Spaced text ws`: the text is the words `ws` in order, with white space between and around them.
- `Lined text ls`: the text is the lines `ls` in order, each with its ending.

Splitting computes exactly these relations (`words_eq_iff`, `lines_eq_iff`), so a text has one
sequence of words and one sequence of lines.
-/

namespace Straightline.Text

/-! ## Words -/

/-- White space anywhere (`isBlank`), and words that are as long as they can be: what follows a word
is white space or the end of the text. -/
inductive Spaced : List Char → List (List Char) → Prop where
  | nil : Spaced [] []
  | blank {c : Char} {text : List Char} {ws : List (List Char)}
      (hc : isBlank c = true) (rest : Spaced text ws) :
      Spaced (c :: text) ws
  | word {w text : List Char} {ws : List (List Char)}
      (nonempty : w ≠ []) (solid : ∀ c ∈ w, isBlank c = false)
      (ends : ∀ c ∈ text.head?, isBlank c = true) (rest : Spaced text ws) :
      Spaced (w ++ text) (w :: ws)

/-- A word alone. -/
theorem Spaced.single {w : List Char} (nonempty : w ≠ []) (solid : ∀ c ∈ w, isBlank c = false) :
    Spaced w [w] := by
  have alone : Spaced (w ++ []) [w] := .word nonempty solid (by simp) .nil
  rwa [List.append_nil] at alone

/-- A text without white space is a single word. -/
private theorem words_of_solid {w : List Char} (nonempty : w ≠ [])
    (solid : ∀ c ∈ w, isBlank c = false) :
    words w = [w] := by
  unfold words
  rw [List.splitOnP_eq_singleton solid]
  simp [nonempty]

/-- White space in front of a text adds no word. -/
theorem words_cons_blank {c : Char} (hc : isBlank c = true) (text : List Char) :
    words (c :: text) = words text := by
  simpa using words_append_blank hc [] text

/-- A word that ends where white space or the end of the text follows is the first word. -/
private theorem words_word_append {w text : List Char} (nonempty : w ≠ [])
    (solid : ∀ c ∈ w, isBlank c = false) (ends : ∀ c ∈ text.head?, isBlank c = true) :
    words (w ++ text) = w :: words text := by
  cases text with
  | nil => simp [words_of_solid nonempty solid]
  | cons c rest =>
    have hc : isBlank c = true := ends c (by simp)
    rw [words_append_blank hc, words_of_solid nonempty solid, words_cons_blank hc]
    rfl

/-- Every text is `Spaced` into its `words`. -/
theorem spaced_words (text : List Char) : Spaced text (words text) := by
  -- The words after the first blank belong to a shorter text.
  induction size : text.length using Nat.strongRecOn generalizing text with
  | ind n ih =>
    cases found : text.find? isBlank with
    | none =>
      have solid : ∀ c ∈ text, isBlank c = false := by simpa using List.find?_eq_none.mp found
      by_cases empty : text = []
      · subst empty
        rw [words_nil]
        exact .nil
      · rw [words_of_solid empty solid]
        exact .single empty solid
    | some c =>
      obtain ⟨hc, w, rest, rfl, before⟩ := List.find?_eq_some_iff_append.mp found
      have solid : ∀ a ∈ w, isBlank a = false := by simpa using before
      have shorter : rest.length < n := by
        rw [← size]
        simp
        omega
      have tail : Spaced (c :: rest) (words rest) := .blank hc (ih rest.length shorter rest rfl)
      by_cases empty : w = []
      · subst empty
        rw [List.nil_append, words_cons_blank hc]
        exact tail
      · have ends : ∀ a ∈ (c :: rest).head?, isBlank a = true := by simpa using hc
        rw [words_word_append empty solid ends, words_cons_blank hc]
        exact .word empty solid ends tail

/-- The `words` of a text are the only ones it is `Spaced` into. -/
theorem words_eq_iff {text : List Char} {ws : List (List Char)} :
    words text = ws ↔ Spaced text ws := by
  constructor
  · rintro rfl
    exact spaced_words text
  · intro h
    induction h with
    | nil => exact words_nil
    | blank hc _ ih => rw [words_cons_blank hc, ih]
    | word nonempty solid ends _ ih => rw [words_word_append nonempty solid ends, ih]

/-! ## Lines -/

/-- A line ends with a newline, or with a carriage return and a newline, or with the text. A line
that ends with the text holds something; whatever it ends with is part of it. -/
inductive Lined : List Char → List (List Char) → Prop where
  | nil : Lined [] []
  | last {line : List Char} (nonempty : line ≠ []) (single : '\n' ∉ line) :
      Lined line [line]
  | newline {line text : List Char} {ls : List (List Char)}
      (single : '\n' ∉ line) (bare : line.getLast? ≠ some '\r') (rest : Lined text ls) :
      Lined (line ++ '\n' :: text) (line :: ls)
  | returnNewline {line text : List Char} {ls : List (List Char)}
      (single : '\n' ∉ line) (rest : Lined text ls) :
      Lined (line ++ '\r' :: '\n' :: text) (line :: ls)

theorem dropReturn_of_bare {line : List Char} (bare : line.getLast? ≠ some '\r') :
    dropReturn line = line := by
  simp [dropReturn, bare]

@[simp]
theorem dropReturn_append_return (line : List Char) : dropReturn (line ++ ['\r']) = line := by
  simp [dropReturn]

/-- Text without a newline is one line, unless it is empty. -/
private theorem lines_of_single {line : List Char} (nonempty : line ≠ []) (single : '\n' ∉ line) :
    lines line = [line] := by
  unfold lines
  rw [List.splitOn_eq_singleton single]
  simp [linesOfPieces, nonempty]

/-- Every text is made of its `lines` with their endings. -/
theorem lined_lines (text : List Char) : Lined text (lines text) := by
  -- The lines after the first newline belong to a shorter text.
  induction size : text.length using Nat.strongRecOn generalizing text with
  | ind n ih =>
    by_cases broken : '\n' ∈ text
    · obtain ⟨line, rest, rfl, single⟩ := List.eq_append_cons_of_mem broken
      have shorter : rest.length < n := by
        rw [← size]
        simp
        omega
      have tail : Lined rest (lines rest) := ih rest.length shorter rest rfl
      rw [lines_append_newline single]
      by_cases bare : line.getLast? = some '\r'
      · obtain ⟨inner, rfl⟩ := List.getLast?_eq_some_iff.mp bare
        have innerSingle : '\n' ∉ inner := fun h => single (by simp [h])
        rw [dropReturn_append_return, List.append_assoc]
        exact .returnNewline innerSingle tail
      · rw [dropReturn_of_bare bare]
        exact .newline single bare tail
    · by_cases empty : text = []
      · subst empty
        rw [lines_nil]
        exact .nil
      · rw [lines_of_single empty broken]
        exact .last empty broken

/-- The `lines` of a text are the only ones it is made of (`Lined`). -/
theorem lines_eq_iff {text : List Char} {ls : List (List Char)} :
    lines text = ls ↔ Lined text ls := by
  constructor
  · rintro rfl
    exact lined_lines text
  · intro h
    induction h with
    | nil => exact lines_nil
    | last nonempty single => exact lines_of_single nonempty single
    | newline single bare _ ih => rw [lines_append_newline single, dropReturn_of_bare bare, ih]
    | @returnNewline line text ls single _ ih =>
      have singleReturn : '\n' ∉ line ++ ['\r'] := by simpa using single
      have split := lines_append_newline singleReturn text
      rw [List.append_assoc, dropReturn_append_return, ih] at split
      exact split

end Straightline.Text
