import Straightline.Proofs.Layout

/-!
# Listings one below the other

A text that ends with the end of a line can have another text put below it. Then the lines of both
are the lines of the whole (`Text.lines_append`), so the whole is read as the first text and then as
the second one, with the line numbers of the first one going on (`Listing.read_append`). These count
all lines, also those that hold no instruction; there are as many as there are newlines
(`Text.length_lines`).
-/

namespace Straightline

/-! ## Lines -/

namespace Text

private theorem lineStart_iff {text : List Char} :
    LineStart text ↔ ∀ c ∈ text.getLast?, c = '\n' := by
  refine ⟨?_, ?_⟩
  · intro starts
    cases starts with
    | text => simp
    | newline front => simp
  · intro ends
    rcases text.eq_nil_or_concat with rfl | ⟨front, c, rfl⟩
    · exact .text
    · rw [List.concat_eq_append] at ends ⊢
      rw [ends c (by simp)]
      exact .newline front

/-- The rest of a text ends with the end of a line if the whole text does. -/
private theorem LineStart.of_suffix {rest text : List Char} (starts : LineStart text)
    (suffix : rest <:+ text) : LineStart rest := by
  obtain ⟨front, rfl⟩ := suffix
  rw [lineStart_iff] at starts ⊢
  intro c last
  apply starts c
  simp only [Option.mem_def] at last ⊢
  simp [last]

/-- The last line of such a text has its newline, so it is not one that ends with the text. -/
private theorem LineStart.mem_newline {line : List Char} (starts : LineStart line)
    (nonempty : line ≠ []) :
    '\n' ∈ line := by
  have last := List.getLast?_eq_some_getLast nonempty
  have newline := lineStart_iff.mp starts _ last
  rw [← newline]
  exact List.getLast_mem nonempty

/-- Texts one below the other have the lines of both, if the upper one ends with the end of a line
(`LineStart`): then no line runs across the seam. -/
theorem Lined.append {a b : List Char} {above below : List (List Char)} (first : Lined a above)
    (starts : LineStart a) (second : Lined b below) : Lined (a ++ b) (above ++ below) := by
  -- Line by line through the first text, to the second one behind its last newline.
  induction first with
  | nil => exact second
  | last nonempty single => exact absurd (starts.mem_newline nonempty) single
  | @newline line text _ single bare _ ih =>
    have rest : LineStart text := starts.of_suffix ⟨line ++ ['\n'], by simp⟩
    rw [List.append_assoc]
    exact .newline single bare (ih rest)
  | @returnNewline line text _ single _ ih =>
    have rest : LineStart text := starts.of_suffix ⟨line ++ ['\r', '\n'], by simp⟩
    rw [List.append_assoc]
    exact .returnNewline single (ih rest)

/-- Each line has one newline, and no newline is anywhere else. -/
private theorem Lined.length_eq_count {a : List Char} {ls : List (List Char)} (lined : Lined a ls)
    (starts : LineStart a) : ls.length = a.count '\n' := by
  induction lined with
  | nil => rfl
  | last nonempty single => exact absurd (starts.mem_newline nonempty) single
  | @newline line text _ single bare _ ih =>
    have rest : LineStart text := starts.of_suffix ⟨line ++ ['\n'], by simp⟩
    rw [List.length_cons, ih rest, List.count_append, List.count_eq_zero_of_not_mem single,
      List.count_cons_self, Nat.zero_add]
  | @returnNewline line text _ single _ ih =>
    -- The carriage return is part of the ending, but it is not what is counted.
    have rest : LineStart text := starts.of_suffix ⟨line ++ ['\r', '\n'], by simp⟩
    rw [List.length_cons, ih rest, List.count_append, List.count_eq_zero_of_not_mem single,
      List.count_cons_of_ne (by decide), List.count_cons_self, Nat.zero_add]

/-- `lines` of two texts one below the other: `Lined.append` for the function. -/
theorem lines_append {a : List Char} (starts : LineStart a) (b : List Char) :
    lines (a ++ b) = lines a ++ lines b := by
  apply lines_eq_iff.mpr
  exact (lined_lines a).append starts (lined_lines b)

theorem length_lines {a : List Char} (starts : LineStart a) :
    (lines a).length = a.count '\n' :=
  (lined_lines a).length_eq_count starts

end Text

/-! ## Reading -/

/-- The mistake as it is reported when `n` lines are put above the text: the same mistake, `n` lines
further down. -/
def SyntaxError.movedBy (n : Nat) (e : SyntaxError) : SyntaxError :=
  { e with line := e.line + n }

namespace Listing

open Text (LineStart)

/-- Where the numbering starts shows in the number of an error only. -/
private theorem readLines_add (number n : Nat) (ls : List (List Char)) :
    readLines (number + n) ls = (readLines number ls).mapError (·.movedBy n) := by
  induction n with
  | zero => cases readLines number ls <;> rfl
  | succ n ih =>
    rw [← Nat.add_assoc, readLines_succ, ih]
    cases readLines number ls <;> rfl

/-- `readLines` of lines below others: those below are read if those above can be read, with the
numbers going on. -/
theorem readLines_append (number : Nat) (above below : List (List Char)) :
    readLines number (above ++ below) =
      readLines number above >>= fun is =>
        (readLines (number + above.length) below).map (is ++ ·) := by
  induction above generalizing number with
  | nil =>
    rw [List.nil_append, readLines]
    cases readLines number below with
    | error e => rfl
    | ok js => rfl
  | cons line above ih =>
    rw [List.cons_append, readLines, readLines]
    cases Line.read line with
    | error cause => rfl
    | ok i? =>
      -- The instruction of this line comes in front of all that is read later.
      have place : number + 1 + above.length = number + (line :: above).length := by
        rw [List.length_cons]
        omega
      dsimp only
      rw [ih, place]
      cases readLines (number + 1) above with
      | error e => rfl
      | ok is =>
        cases readLines (number + (line :: above).length) below with
        | error e => rfl
        | ok js => simp [Except.map, bind, Except.bind]

/-- `read` of a text below another one: what is read of the upper text comes first, and an error of
the lower one is `SyntaxError.movedBy` the number of newlines in the upper one. -/
theorem read_append {a : List Char} (starts : LineStart a) (b : List Char) :
    read (a ++ b) =
      read a >>= fun is => ((read b).mapError (·.movedBy (a.count '\n'))).map (is ++ ·) := by
  rw [read, read, read, Text.lines_append starts, readLines_append, readLines_add,
    Text.length_lines starts]

end Listing

/-! ## Listings -/

namespace Program

/-- Two listings, one below the other, read by `ofListing`. The first one is empty or ends with a
newline.

- If the first one has a mistake, the whole has this mistake, whatever comes below.
- If only the second one has a mistake, the whole has it too, moved down by as many lines as the
  first listing has newlines.
- If neither has, the whole is the listing of both programs, one behind the other. -/
theorem ofListing_append (a b : String) (ended : a = "" ∨ ∃ front, a = front ++ "\n") :
    (∀ e, ofListing a = .error e → ofListing (a ++ b) = .error e) ∧
    (∀ p, ofListing a = .ok p →
      (∀ e, ofListing b = .error e →
        ofListing (a ++ b) = .error ⟨e.line + a.toList.count '\n', e.cause⟩) ∧
      (∀ q, ofListing b = .ok q → ofListing (a ++ b) = .ok (.ofList (p.toList ++ q.toList)))) := by
  have starts : Text.LineStart a.toList := by
    rcases ended with rfl | ⟨front, rfl⟩
    · exact .text
    · rw [String.toList_append]
      exact .newline front.toList
  have whole : ofListing (a ++ b) = (Listing.read (a.toList ++ b.toList)).map ofList := by
    rw [ofListing, String.toList_append]
  rw [whole, Listing.read_append starts]
  refine ⟨?_, ?_⟩
  · intro e refused
    rw [map_eq_error_iff.mp refused]
    rfl
  · intro p first
    obtain ⟨is, readFirst, rfl⟩ := map_eq_ok_iff.mp first
    rw [readFirst]
    refine ⟨?_, ?_⟩
    · intro e refused
      rw [map_eq_error_iff.mp refused]
      rfl
    · intro q second
      obtain ⟨js, readSecond, rfl⟩ := map_eq_ok_iff.mp second
      rw [readSecond]
      rfl

/-- Four lines, two of them without an instruction, above a listing with a mistake in its second
line and above one without mistakes; and a listing with a mistake above them. -/
theorem ofListing_append_mistake :
    let a := "nop\r\n;; drop\n\r\ni32.const 1\n"
    let bad := "drop\n\tfrob\n"
    ofListing a = .ok (.ofList [.nop, .const 1]) ∧
      ofListing bad = .error ⟨2, .unknownInstruction "frob"⟩ ∧
      ofListing (a ++ bad) = .error ⟨6, .unknownInstruction "frob"⟩ ∧
      ofListing (bad ++ a) = .error ⟨2, .unknownInstruction "frob"⟩ ∧
      ofListing (a ++ "drop") = .ok (.ofList [.nop, .const 1, .drop]) := by
  have first : ofListing "nop\r\n;; drop\n\r\ni32.const 1\n" = .ok (.ofList [.nop, .const 1]) := by
    rfl
  have refused : ofListing "drop\n\tfrob\n" = .error ⟨2, .unknownInstruction "frob"⟩ := by rfl
  have second : ofListing "drop" = .ok (.ofList [.drop]) := by rfl
  have four : "nop\r\n;; drop\n\r\ni32.const 1\n".toList.count '\n' = 4 := by decide
  intro a bad
  have newlines : a.toList.count '\n' = 4 := four
  have endedFirst : a = "" ∨ ∃ front, a = front ++ "\n" :=
    .inr ⟨"nop\r\n;; drop\n\r\ni32.const 1", by decide⟩
  have endedBad : bad = "" ∨ ∃ front, bad = front ++ "\n" := .inr ⟨"drop\n\tfrob", by decide⟩
  refine ⟨first, refused, ?_, ?_, ?_⟩
  · have moved := ((ofListing_append a bad endedFirst).2 _ first).1 _ refused
    rwa [newlines] at moved
  · exact (ofListing_append bad a endedBad).1 _ refused
  · exact ((ofListing_append a "drop" endedFirst).2 _ first).2 _ second

end Program

end Straightline
