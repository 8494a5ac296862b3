import Straightline.Proofs.Grammar

/-!
# Layout does not matter

What a text is read as depends on its words between newlines, and on nothing else
(`Listing.read_congr`). So a text may be laid out anew, by white space beside white space or at the
ends of lines, by comments, and by carriage returns in front of newlines, and is read as before: as
the same program, or with the same mistake on the same line. A line without words that is put
between the lines moves the mistakes below it, and nothing else.

Rows take the place of lines in this module. The rows of a text are simply what stands between its
newlines; a carriage return at the end of a row is white space like any other, and a row without
words at the end of the text makes no difference.
-/

namespace Straightline

/-! ## Places for white space -/

namespace Text

/-- White space that is put between two texts joins no words and parts none: one of the texts has
white space there (`isBlank`), or nothing. -/
def Loose (front back : List Char) : Prop :=
  (∀ c ∈ front.getLast?, isBlank c = true) ∨ (∀ c ∈ back.head?, isBlank c = true)

private theorem Loose.nil_right (front : List Char) : Loose front [] := .inr (by simp)

private theorem Loose.of_blank {c : Char} (blank : isBlank c = true) (front back : List Char) :
    Loose front (c :: back) := .inr (by simpa using blank)

private theorem words_append_of_loose {front back : List Char} (loose : Loose front back) :
    words (front ++ back) = words front ++ words back := by
  rcases loose with left | right
  · rcases front.eq_nil_or_concat with rfl | ⟨inner, c, rfl⟩
    · rfl
    · have blank : isBlank c = true := left c (by simp)
      have single := words_append_blank blank inner []
      rw [List.concat_eq_append, single, words_nil, List.append_nil, List.append_assoc]
      exact words_append_blank blank inner back
  · cases back with
    | nil => simp
    | cons c back =>
      have blank : isBlank c = true := right c (by simp)
      rw [words_append_blank blank, words_cons_blank blank]

end Text

/-! ## Inside a line -/

namespace Line

open Text (Loose)

/-- What stands behind a comment sign is not read. -/
private theorem beforeComment_append_of_sign {front : List Char} (sign : commentSign <:+: front)
    (back : List Char) : beforeComment (front ++ back) = beforeComment front := by
  have cut := cut_beforeComment front
  generalize beforeComment front = code at cut ⊢
  cases cut with
  | whole absent => exact absurd sign absent
  | @comment _ comment first =>
    rw [List.append_assoc]
    exact beforeComment_of_first (comment ++ back) first

/-- The comment of a line is that of its second part, unless a sign starts in the first. A sign has
two characters, so one character of the second part decides this. -/
private theorem beforeComment_append_of_absent {front back : List Char}
    (absent : ¬ commentSign <:+: front ++ back.take 1) :
    beforeComment (front ++ back) = front ++ beforeComment back := by
  induction front with
  | nil => rfl
  | cons c front ih =>
    rw [List.cons_append, List.infix_cons_iff, not_or] at absent
    -- Whether a sign starts at `c` is decided by the character behind it.
    have here : ¬ commentSign <+: c :: (front ++ back) := by
      intro sign
      apply absent.1
      cases front with
      | cons d front => simpa [commentSign, List.cons_prefix_cons] using sign
      | nil =>
        cases back with
        | nil => exact sign
        | cons d back => simpa [commentSign, List.cons_prefix_cons] using sign
    rw [List.cons_append, beforeComment_cons here, ih absent.2]
    rfl

/-- No comment sign lies across a place for white space. -/
private theorem absent_of_loose {front back : List Char} (absent : ¬ commentSign <:+: front)
    (loose : Loose front back) : ¬ commentSign <:+: front ++ back.take 1 := by
  cases back with
  | nil => simpa using absent
  | cons d back =>
    have solid : Text.isBlank ';' ≠ true := by decide
    rw [List.take_succ_cons, List.take_zero, List.infix_concat_iff, not_or]
    refine ⟨?_, absent⟩
    intro across
    -- The second semicolon is `d`, and the first is the last character in front of it.
    rcases List.suffix_concat_iff.mp across with impossible | ⟨first, split, ends⟩
    · cases impossible
    · have halves : [';'] ++ [';'] = first ++ [d] := split
      obtain ⟨rfl, second⟩ := List.append_inj' halves rfl
      cases second
      obtain ⟨inner, rfl⟩ := ends
      rcases loose with left | right
      · exact solid (left ';' (by simp))
      · exact solid (right ';' (by simp))

private theorem loose_beforeComment {front back : List Char} (loose : Loose front back) :
    Loose front (beforeComment back) := by
  rcases loose with left | right
  · exact .inl left
  · refine .inr fun c first => right c ?_
    have cut := cut_beforeComment back
    generalize beforeComment back = code at cut first
    cases cut with
    | whole _ => exact first
    | comment _ =>
      simp only [Option.mem_def] at first ⊢
      simp [first]

/-- The words on both sides of a place for white space, as long as no comment sign is in front. -/
private theorem words_append_of_loose {front back : List Char} (absent : ¬ commentSign <:+: front)
    (loose : Loose front back) : words (front ++ back) = Text.words front ++ words back := by
  unfold words
  rw [beforeComment_append_of_absent (absent_of_loose absent loose),
    Text.words_append_of_loose (loose_beforeComment loose)]

theorem words_cons_blank {c : Char} (blank : Text.isBlank c = true) (back : List Char) :
    words (c :: back) = words back := by
  have here : ¬ commentSign <+: c :: back := by
    intro sign
    obtain ⟨rfl, _⟩ := List.cons_prefix_cons.mp sign
    exact absurd blank (by decide)
  rw [words, beforeComment_cons here]
  exact Text.words_cons_blank blank _

/-- White space at a place for it (`Text.Loose`) changes no word of a line. -/
theorem words_insert_blank {c : Char} (blank : Text.isBlank c = true) {front back : List Char}
    (loose : Loose front back) : words (front ++ c :: back) = words (front ++ back) := by
  by_cases sign : commentSign <:+: front
  · -- All of this happens inside a comment.
    rw [words, words, beforeComment_append_of_sign sign, beforeComment_append_of_sign sign]
  · rw [words_append_of_loose sign (.of_blank blank front back), words_append_of_loose sign loose,
      words_cons_blank blank]

/-- A comment behind white space adds no word to a line, whatever it says. -/
theorem words_append_comment {c : Char} (blank : Text.isBlank c = true)
    (front comment : List Char) : words (front ++ c :: (commentSign ++ comment)) = words front := by
  by_cases sign : commentSign <:+: front
  · rw [words, words, beforeComment_append_of_sign sign]
  · have code := words_append_of_loose sign (.nil_right front)
    have none : words (commentSign ++ comment) = words [] := rfl
    rw [List.append_nil] at code
    rw [words_append_of_loose sign (.of_blank blank front _), words_cons_blank blank, none, ← code]

theorem words_append_return (line : List Char) : words (line ++ ['\r']) = words line := by
  have blank : Text.isBlank '\r' = true := by decide
  have inserted := words_insert_blank blank (.nil_right line)
  rwa [List.append_nil] at inserted

private theorem words_dropReturn (line : List Char) :
    words (Text.dropReturn line) = words line := by
  by_cases bare : line.getLast? = some '\r'
  · obtain ⟨inner, rfl⟩ := List.getLast?_eq_some_iff.mp bare
    rw [Text.dropReturn_append_return, words_append_return]
  · rw [Text.dropReturn_of_bare bare]

/-- A line is read by its `words`, that is, by the words in front of its comment. -/
theorem read_congr {line line' : List Char} (same : words line = words line') :
    read line = read line' := by
  unfold read
  rw [same]

private theorem read_of_words_nil {line : List Char} (vacant : words line = []) :
    read line = .ok none := by
  unfold read
  rw [vacant]
  rfl

end Line

/-! ## Rows -/

namespace Listing

/-- The words of a text, row by row. Rows are cut at newlines only, so there is one more of them
than there are newlines. -/
def rows (text : List Char) : List (List (List Char)) :=
  (text.splitOn '\n').map Line.words

private theorem rows_of_single {line : List Char} (single : '\n' ∉ line) :
    rows line = [Line.words line] := by
  rw [rows, List.splitOn_eq_singleton single]
  rfl

private theorem rows_append_newline (above below : List Char) :
    rows (above ++ '\n' :: below) = rows above ++ rows below := by
  simp [rows, List.splitOn_append_cons_self]

/-- Lines with the same words are read alike. -/
private theorem readLines_congr {number : Nat} {ls ls' : List (List Char)}
    (same : ls.map Line.words = ls'.map Line.words) :
    readLines number ls = readLines number ls' := by
  induction ls generalizing number ls' with
  | nil =>
    rw [List.map_nil, eq_comm, List.map_eq_nil_iff] at same
    rw [same]
  | cons line rest ih =>
    obtain ⟨line', rest', rfl, head, tail⟩ := List.map_eq_cons_iff.mp same.symm
    rw [readLines, readLines, Line.read_congr head, ih tail.symm]

/-- Reading the pieces between newlines comes to the same as reading lines: the carriage return of a
line ending is white space, and a last piece that is empty holds no instruction. -/
private theorem readLines_linesOfPieces (number : Nat) (pieces : List (List Char)) :
    readLines number (Text.linesOfPieces pieces) = readLines number pieces := by
  induction pieces generalizing number with
  | nil => rfl
  | cons piece rest ih =>
    cases rest with
    | nil =>
      cases piece with
      | nil => rfl
      | cons c piece => rfl
    | cons next rest =>
      rw [Text.linesOfPieces, readLines, readLines, ih,
        Line.read_congr (Line.words_dropReturn piece)]
      exact List.cons_ne_nil next rest

private theorem read_eq_readLines_splitOn (text : List Char) :
    read text = readLines 1 (text.splitOn '\n') :=
  readLines_linesOfPieces 1 (text.splitOn '\n')

/-- A text is read by its `rows`: by the words between its newlines, and by nothing else. -/
theorem read_congr {text text' : List Char} (same : rows text = rows text') :
    read text = read text' := by
  rw [read_eq_readLines_splitOn, read_eq_readLines_splitOn]
  exact readLines_congr same

/-! ## Edits inside a row -/

/-- The text up to a place ends with the front part of the row at that place. -/
def EndsWithRow (text front : List Char) : Prop :=
  '\n' ∉ front ∧ (text = front ∨ ∃ above, text = above ++ '\n' :: front)

/-- The text from a place on starts with the back part of the row at that place. -/
def StartsWithRow (text back : List Char) : Prop :=
  '\n' ∉ back ∧ (text = back ∨ ∃ below, text = back ++ '\n' :: below)

private theorem exists_startsWithRow (text : List Char) : ∃ back, StartsWithRow text back := by
  by_cases broken : '\n' ∈ text
  · obtain ⟨back, below, rfl, single⟩ := List.eq_append_cons_of_mem broken
    exact ⟨back, single, .inr ⟨below, rfl⟩⟩
  · exact ⟨text, broken, .inl rfl⟩

private theorem exists_endsWithRow (text : List Char) : ∃ front, EndsWithRow text front := by
  -- The last newline of a text is the first one of its reverse.
  obtain ⟨back, single, whole | ⟨below, split⟩⟩ := exists_startsWithRow text.reverse
  · refine ⟨back.reverse, by simpa using single, .inl ?_⟩
    rw [← whole, List.reverse_reverse]
  · refine ⟨back.reverse, by simpa using single, .inr ⟨below.reverse, ?_⟩⟩
    rw [← List.reverse_reverse text, split]
    simp

/-- What is put behind a text, if it holds no newline, goes to the last row. -/
private theorem rows_at_end (before : List Char) :
    ∃ front above, EndsWithRow before front ∧ ∀ middle, '\n' ∉ middle →
      rows (before ++ middle) = above ++ [Line.words (front ++ middle)] := by
  obtain ⟨front, single, split⟩ := exists_endsWithRow before
  have row : ∀ middle, '\n' ∉ middle → rows (front ++ middle) = [Line.words (front ++ middle)] :=
    fun middle inside => rows_of_single (by simp [single, inside])
  rcases split with rfl | ⟨above, rfl⟩
  · exact ⟨before, [], ⟨single, .inl rfl⟩, row⟩
  · refine ⟨front, rows above, ⟨single, .inr ⟨above, rfl⟩⟩, ?_⟩
    intro middle inside
    rw [List.append_assoc, List.cons_append, rows_append_newline, row middle inside]

/-- What is put at a place of a text, if it holds no newline, goes to the row at that place. -/
private theorem rows_at_place (before after : List Char) :
    ∃ front back above below, EndsWithRow before front ∧ StartsWithRow after back ∧
      ∀ middle, '\n' ∉ middle →
        rows (before ++ middle ++ after) =
          above ++ [Line.words (front ++ (middle ++ back))] ++ below := by
  obtain ⟨front, above, ends, last⟩ := rows_at_end before
  obtain ⟨back, single, split⟩ := exists_startsWithRow after
  have row : ∀ middle, '\n' ∉ middle →
      rows (before ++ (middle ++ back)) = above ++ [Line.words (front ++ (middle ++ back))] :=
    fun middle inside => last (middle ++ back) (by simp [single, inside])
  rcases split with rfl | ⟨below, rfl⟩
  · refine ⟨front, after, above, [], ends, ⟨single, .inl rfl⟩, ?_⟩
    intro middle inside
    rw [List.append_assoc, row middle inside, List.append_nil]
  · refine ⟨front, back, above, rows below, ends, ⟨single, .inr ⟨below, rfl⟩⟩, ?_⟩
    intro middle inside
    rw [← List.append_assoc, rows_append_newline, List.append_assoc, row middle inside]

private theorem loose_of_rows {before after front back : List Char}
    (loose : Text.Loose before after)
    (ends : EndsWithRow before front) (starts : StartsWithRow after back) :
    Text.Loose front back := by
  -- Next to the place, the row has the same character as the text, or none.
  rcases loose with left | right
  · refine .inl fun c last => left c ?_
    rcases ends with ⟨_, rfl | ⟨above, rfl⟩⟩
    · exact last
    · simp only [Option.mem_def] at last ⊢
      simp [List.getLast?_cons, last]
  · refine .inr fun c first => right c ?_
    rcases starts with ⟨_, rfl | ⟨below, rfl⟩⟩
    · exact first
    · simp only [Option.mem_def] at first ⊢
      simp [first]

/-- White space other than a newline, at a place for it, changes no word of a text. -/
private theorem rows_insert_blank {c : Char} (blank : Text.isBlank c = true) (inline : c ≠ '\n')
    {before after : List Char} (loose : Text.Loose before after) :
    rows (before ++ c :: after) = rows (before ++ after) := by
  obtain ⟨front, back, above, below, ends, starts, split⟩ := rows_at_place before after
  have inserted := split [c] (by simpa using inline.symm)
  have plain := split [] (by simp)
  rw [List.append_assoc, List.singleton_append, List.singleton_append] at inserted
  rw [List.append_nil, List.nil_append] at plain
  rw [inserted, plain, Line.words_insert_blank blank (loose_of_rows loose ends starts)]

end Listing

/-! ## Edits of the layout -/

namespace Text

/-- The text with a carriage return in front of every newline. -/
def withReturns (text : List Char) : List Char :=
  text.flatMap fun c => if c = '\n' then ['\r', '\n'] else [c]

/-- What follows the last character of a line: the end of the text, a newline, or a carriage return
and a newline. -/
inductive LineEnd : List Char → Prop where
  | text : LineEnd []
  | newline (rest : List Char) : LineEnd ('\n' :: rest)
  | returnNewline (rest : List Char) : LineEnd ('\r' :: '\n' :: rest)

/-- What precedes the first character of a line: the start of the text, or a newline. -/
inductive LineStart : List Char → Prop where
  | text : LineStart []
  | newline (front : List Char) : LineStart (front ++ ['\n'])

/-- A text and the same text after one edit of its layout: a carriage return in front of every
newline (`withReturns`), a comment behind white space at a `LineEnd`, or white space at a
`LineStart`, at a `LineEnd` or beside white space. -/
inductive Relaid : List Char → List Char → Prop where
  | returns (text : List Char) : Relaid text (withReturns text)
  | comment {c : Char} (blank : isBlank c = true) (inline : c ≠ '\n') {comment : List Char}
      (single : '\n' ∉ comment) (before : List Char) {after : List Char} (ends : LineEnd after) :
      Relaid (before ++ after) (before ++ (c :: (Line.commentSign ++ comment)) ++ after)
  | lineStart {c : Char} (blank : isBlank c = true) (inline : c ≠ '\n')
      {before : List Char} (starts : LineStart before) (after : List Char) :
      Relaid (before ++ after) (before ++ c :: after)
  | lineEnd {c : Char} (blank : isBlank c = true) (inline : c ≠ '\n')
      (before : List Char) {after : List Char} (ends : LineEnd after) :
      Relaid (before ++ after) (before ++ c :: after)
  | afterBlank {c d : Char} (blank : isBlank c = true) (inline : c ≠ '\n')
      (existing : isBlank d = true) (before after : List Char) :
      Relaid (before ++ d :: after) (before ++ d :: c :: after)
  | beforeBlank {c d : Char} (blank : isBlank c = true) (inline : c ≠ '\n')
      (existing : isBlank d = true) (before after : List Char) :
      Relaid (before ++ d :: after) (before ++ c :: d :: after)

/-- A line with no word in front of its comment. -/
def Vacant (line : List Char) : Prop :=
  '\n' ∉ line ∧ ∃ code, Line.Cut line code ∧ Spaced code []

/-- The part of a text above some place between lines, the text, and the text with a vacant line at
that place. The new line comes with its own ending; at the end of the text it may go without, and
where the last line of the text has no ending yet, a newline is put between the two. -/
inductive Widened : List Char → List Char → List Char → Prop where
  | between {above : List Char} (starts : LineStart above) {line : List Char} (vacant : Vacant line)
      {ending : List Char} (ends : ending = ['\n'] ∨ ending = ['\r', '\n']) (below : List Char) :
      Widened above (above ++ below) (above ++ (line ++ ending) ++ below)
  | atEnd {text : List Char} (starts : LineStart text) {line : List Char} (vacant : Vacant line) :
      Widened text text (text ++ line)
  | behindLast (text : List Char) {line : List Char} (vacant : Vacant line) :
      Widened text text (text ++ '\n' :: line)

private theorem LineEnd.loose {after : List Char} (ends : LineEnd after) (before : List Char) :
    Loose before after := by
  cases ends with
  | text => exact .nil_right before
  | newline rest => exact .of_blank isBlank_newline before rest
  | returnNewline rest => exact .of_blank (by decide) before _

private theorem LineStart.loose {before : List Char} (starts : LineStart before)
    (after : List Char) :
    Loose before after := by
  cases starts with
  | text => exact .inl (by simp)
  | newline front => exact .inl (by simpa using isBlank_newline)

theorem Vacant.words {line : List Char} (vacant : Vacant line) : Line.words line = [] := by
  obtain ⟨_, code, cut, spaced⟩ := vacant
  exact Line.words_of_cut cut spaced

end Text

namespace Listing

open Text (withReturns LineEnd LineStart Relaid Vacant Widened)

/-! ### Edits that keep the rows -/

private theorem rows_withReturns (text : List Char) : rows (withReturns text) = rows text := by
  -- By induction on the text, with the row so far in front of what is left.
  suffices carried : ∀ front, '\n' ∉ front →
      rows (front ++ withReturns text) = rows (front ++ text) by
    simpa using carried [] (by simp)
  induction text with
  | nil =>
    intro front _
    rfl
  | cons c text ih =>
    intro front single
    by_cases newline : c = '\n'
    · subst newline
      have split : front ++ withReturns ('\n' :: text) =
          (front ++ ['\r']) ++ '\n' :: withReturns text := by
        simp [withReturns]
      have rest : rows (withReturns text) = rows text := by simpa using ih [] (by simp)
      rw [split, rows_append_newline, rows_append_newline, rest,
        rows_of_single (by simpa using single), rows_of_single single, Line.words_append_return]
    · have split : front ++ withReturns (c :: text) = (front ++ [c]) ++ withReturns text := by
        simp [withReturns, newline]
      have longer : '\n' ∉ front ++ [c] := by simp [single, Ne.symm newline]
      rw [split, ih _ longer, List.append_assoc]
      rfl

/-- A line ending finishes the last row of a text and changes nothing in it. -/
private theorem rows_append_lineEnd {after : List Char} (ends : LineEnd after) :
    ∃ below, ∀ text, rows (text ++ after) = rows text ++ below := by
  cases ends with
  | text => exact ⟨[], fun text => by simp⟩
  | newline rest => exact ⟨rows rest, fun text => rows_append_newline text rest⟩
  | returnNewline rest =>
    refine ⟨rows rest, fun text => ?_⟩
    have blank : Text.isBlank '\r' = true := by decide
    have inserted := rows_insert_blank blank (by decide) (.nil_right text)
    have split := rows_append_newline (text ++ ['\r']) rest
    rw [List.append_nil] at inserted
    rw [inserted, List.append_assoc] at split
    exact split

/-- A comment behind white space at the end of a line adds no word. -/
private theorem rows_append_comment {c : Char} (blank : Text.isBlank c = true) (inline : c ≠ '\n')
    {comment : List Char} (single : '\n' ∉ comment) (before : List Char) {after : List Char}
    (ends : LineEnd after) :
    rows (before ++ (c :: (Line.commentSign ++ comment)) ++ after) = rows (before ++ after) := by
  obtain ⟨below, finished⟩ := rows_append_lineEnd ends
  obtain ⟨front, above, _, last⟩ := rows_at_end before
  have commented := last (c :: (Line.commentSign ++ comment))
    (by simp [inline.symm, Line.commentSign, single])
  have plain := last [] (by simp)
  rw [List.append_nil, List.append_nil] at plain
  rw [finished, finished, commented, plain, Line.words_append_comment blank]

/-- Edits of the layout (`Relaid`) keep the `rows` of a text, one lemma for each kind of edit. -/
theorem rows_of_relaid {text text' : List Char} (relaid : Relaid text text') :
    rows text' = rows text := by
  cases relaid with
  | returns => exact rows_withReturns text
  | comment blank inline single before ends =>
    exact rows_append_comment blank inline single before ends
  | lineStart blank inline starts after =>
    exact rows_insert_blank blank inline (starts.loose after)
  | lineEnd blank inline before ends =>
    exact rows_insert_blank blank inline (ends.loose before)
  | @afterBlank c d blank inline existing before after =>
    have loose : Text.Loose (before ++ [d]) after := .inl (by simpa using existing)
    simpa using rows_insert_blank blank inline loose
  | @beforeBlank c d blank inline existing before after =>
    exact rows_insert_blank blank inline (.of_blank existing before after)

end Listing

/-! ## Vacant lines -/

/-- The mistake as it is reported after a line was put in front of line `number`: one line further
down, unless it is above the new line. -/
def SyntaxError.movedFrom (number : Nat) (e : SyntaxError) : SyntaxError :=
  if number ≤ e.line then { e with line := e.line + 1 } else e

namespace Listing

open Text (LineStart Vacant Widened)

/-- An error of reading lines has the number of one of them. -/
private theorem line_of_readLines_error {number : Nat} {ls : List (List Char)} {e : SyntaxError}
    (h : readLines number ls = .error e) : number ≤ e.line ∧ e.line < number + ls.length := by
  induction ls generalizing number with
  | nil => cases h
  | cons line rest ih =>
    rw [readLines] at h
    rw [List.length_cons]
    cases read : Line.read line with
    | ok i? =>
      rw [read] at h
      have later := ih (map_eq_error_iff.mp h)
      omega
    | error cause =>
      rw [read] at h
      cases h
      exact ⟨Nat.le_refl number, Nat.lt_add_of_pos_right (Nat.succ_pos _)⟩

/-- Where the numbering starts shows in the number of an error only. -/
theorem readLines_succ (number : Nat) (ls : List (List Char)) :
    readLines (number + 1) ls =
      (readLines number ls).mapError fun e => { e with line := e.line + 1 } := by
  induction ls generalizing number with
  | nil => rfl
  | cons line rest ih =>
    rw [readLines, readLines]
    cases Line.read line with
    | ok i? =>
      dsimp only
      rw [ih, map_mapError]
    | error cause => rfl

/-- A line without words moves the mistakes from its place on, and nothing else. -/
private theorem readLines_insert {line : List Char} (empty : Line.words line = []) (number : Nat)
    (above below : List (List Char)) :
    readLines number (above ++ line :: below) =
      (readLines number (above ++ below)).mapError (·.movedFrom (number + above.length)) := by
  induction above generalizing number with
  | nil =>
    have skipped : readLines number (line :: below) = readLines (number + 1) below := by
      rw [readLines, Line.read_of_words_nil empty]
      cases readLines (number + 1) below <;> rfl
    rw [List.nil_append, List.nil_append, skipped, readLines_succ]
    cases result : readLines number below with
    | ok is => rfl
    | error e =>
      have late : number ≤ e.line := (line_of_readLines_error result).1
      simp [Except.mapError, SyntaxError.movedFrom, late]
  | cons first above ih =>
    rw [List.cons_append, List.cons_append, readLines, readLines]
    cases Line.read first with
    | ok i? =>
      have place : number + 1 + above.length = number + (first :: above).length := by
        rw [List.length_cons]
        omega
      dsimp only
      rw [ih, map_mapError, place]
    | error cause =>
      -- The mistake is above the new line, so its number is too small to be moved.
      simp [Except.mapError, SyntaxError.movedFrom]

/-- The pieces of a text above a place between lines are its lines, as far as their number goes. -/
private theorem length_linesOfPieces_concat (pieces : List (List Char)) :
    (Text.linesOfPieces (pieces ++ [[]])).length = pieces.length := by
  induction pieces with
  | nil => rfl
  | cons piece rest ih =>
    rw [List.cons_append, Text.linesOfPieces, List.length_cons, ih, List.length_cons]
    simp

private theorem splitOn_of_lineStart {above : List Char} (starts : LineStart above) :
    ∃ pieces, pieces.length = (Text.lines above).length ∧
      ∀ below, (above ++ below).splitOn '\n' = pieces ++ below.splitOn '\n' := by
  cases starts with
  | text =>
    refine ⟨[], ?_, fun below => rfl⟩
    rw [Text.lines_nil]
  | newline front =>
    refine ⟨front.splitOn '\n', ?_, ?_⟩
    · rw [Text.lines, List.splitOn_append_cons_self, List.splitOn_nil, length_linesOfPieces_concat]
    · intro below
      rw [List.append_assoc]
      exact List.splitOn_append_cons_self front below

/-- No mistake of a text is below its last line. -/
private theorem mapError_movedFrom_end (ls : List (List Char)) :
    (readLines 1 ls).mapError (·.movedFrom (ls.length + 1)) = readLines 1 ls := by
  cases result : readLines 1 ls with
  | ok is => rfl
  | error e =>
    have last : ¬ ls.length + 1 ≤ e.line := by
      have bound := line_of_readLines_error result
      omega
    simp [Except.mapError, SyntaxError.movedFrom, last]

/-- A vacant line put into a text (`Widened`) moves the mistakes below it by
`SyntaxError.movedFrom`, and changes nothing else. -/
theorem read_of_widened {above text text' : List Char} (widened : Widened above text text') :
    read text' = (read text).mapError (·.movedFrom ((Text.lines above).length + 1)) := by
  cases widened with
  | @between starts line vacant ending ends below =>
    -- With its carriage return, if it has one, the line is a row without words.
    obtain ⟨row, single, empty, split⟩ : ∃ row, '\n' ∉ row ∧ Line.words row = [] ∧
        line ++ ending = row ++ ['\n'] := by
      rcases ends with rfl | rfl
      · exact ⟨line, vacant.1, vacant.words, rfl⟩
      · refine ⟨line ++ ['\r'], by simpa using vacant.1, ?_, by simp⟩
        rw [Line.words_append_return, vacant.words]
    obtain ⟨pieces, length, pieceAbove⟩ := splitOn_of_lineStart starts
    have pieceRow : (row ++ ['\n'] ++ below).splitOn '\n' = row :: below.splitOn '\n' := by
      rw [List.append_assoc]
      exact List.splitOn_append_cons_self_of_not_mem single below
    rw [read_eq_readLines_splitOn, read_eq_readLines_splitOn, split, List.append_assoc, pieceAbove,
      pieceAbove, pieceRow, readLines_insert empty, length, Nat.add_comm 1]
  | @atEnd starts line vacant =>
    -- The line fills the last row of the text, which had no words either.
    obtain ⟨pieces, _, pieceAbove⟩ := splitOn_of_lineStart starts
    have unchanged : rows (above ++ line) = rows above := by
      have plain := pieceAbove []
      rw [List.append_nil, List.splitOn_nil] at plain
      rw [rows, rows, pieceAbove, plain, List.splitOn_eq_singleton vacant.1, List.map_append,
        List.map_append, List.map_singleton, vacant.words]
      rfl
    rw [read_congr unchanged, read, mapError_movedFrom_end]
  | @behindLast line vacant =>
    -- The line is one more row at the end, and all mistakes are above it.
    have pieces : (above ++ '\n' :: line).splitOn '\n' = above.splitOn '\n' ++ [line] := by
      rw [List.splitOn_append_cons_self, List.splitOn_eq_singleton vacant.1]
    have inserted := readLines_insert vacant.words 1 (above.splitOn '\n') []
    rw [List.append_nil, Nat.add_comm 1, mapError_movedFrom_end] at inserted
    rw [read_eq_readLines_splitOn (above ++ '\n' :: line), pieces, inserted,
      ← read_eq_readLines_splitOn, read, mapError_movedFrom_end]

end Listing

/-! ## The layout of a listing -/

namespace Program

/-- The layout of a text does not matter to `ofListing`.

- An edit of the layout (`Text.Relaid`) keeps the result: the same program, or the same mistake on
  the same line.
- A line without words, put between the lines (`Text.Widened`), keeps the program of a listing. A
  mistake stays the same, and its line is one further if the new line is above it, that is, if fewer
  lines are above the new one than the number of the line with the mistake. -/
theorem ofListing_layout (text : String) :
    (∀ relaid : String, Text.Relaid text.toList relaid.toList →
      ofListing relaid = ofListing text) ∧
    (∀ (above : List Char) (widened : String), Text.Widened above text.toList widened.toList →
      (∀ p, ofListing text = .ok p → ofListing widened = .ok p) ∧
      (∀ e, ofListing text = .error e → ofListing widened =
        .error ⟨if (Text.lines above).length < e.line then e.line + 1 else e.line, e.cause⟩)) := by
  constructor
  · intro relaid edit
    rw [ofListing, ofListing, Listing.read_congr (Listing.rows_of_relaid edit)]
  · intro above widened edit
    have moved := Listing.read_of_widened edit
    have result : ofListing widened =
        (ofListing text).mapError (·.movedFrom ((Text.lines above).length + 1)) := by
      rw [ofListing, ofListing, moved, map_mapError]
    constructor
    · intro p read
      rw [result, read]
      rfl
    · intro e refused
      rw [result, refused]
      by_cases below : (Text.lines above).length < e.line
      · simp [Except.mapError, SyntaxError.movedFrom, below, Nat.succ_le_of_lt below]
      · have unmoved : ¬ (Text.lines above).length + 1 ≤ e.line := below
        simp [Except.mapError, SyntaxError.movedFrom, below, unmoved]

/-- An unknown instruction with a lone semicolon behind it: a comment leaves the mistake where it
is, and a line above moves it. -/
theorem ofListing_layout_mistake :
    let text := "nop\n\tfrob ;\r\nnop"
    Text.Relaid text.toList "nop\n\tfrob ;\r;; comment\r\r\nnop".toList ∧
      Text.Widened "nop\n".toList text.toList "nop\n ;; drop\r\n\tfrob ;\r\nnop".toList ∧
      ofListing text = .error ⟨2, .unknownInstruction "frob"⟩ ∧
      ofListing "nop\n\tfrob ;\r;; comment\r\r\nnop" = .error ⟨2, .unknownInstruction "frob"⟩ ∧
      ofListing "nop\n ;; drop\r\n\tfrob ;\r\nnop" = .error ⟨3, .unknownInstruction "frob"⟩ := by
  have refused : ofListing "nop\n\tfrob ;\r\nnop" = .error ⟨2, .unknownInstruction "frob"⟩ := by rfl
  have words : Line.words " ;; drop".toList = [] := by decide
  have vacant : Text.Vacant " ;; drop".toList :=
    ⟨by decide, _, Line.cut_beforeComment _, Text.words_eq_iff.mp words⟩
  have relaid : Text.Relaid "nop\n\tfrob ;\r\nnop".toList
      "nop\n\tfrob ;\r;; comment\r\r\nnop".toList := by
    have old : "nop\n\tfrob ;\r\nnop".toList = "nop\n\tfrob ;".toList ++ "\r\nnop".toList := by rfl
    have new : "nop\n\tfrob ;\r;; comment\r\r\nnop".toList = "nop\n\tfrob ;".toList ++
        ('\r' :: (Line.commentSign ++ " comment\r".toList)) ++ "\r\nnop".toList := by rfl
    rw [old, new]
    exact .comment (by decide) (by decide) (by decide) _ (.returnNewline "nop".toList)
  have widened : Text.Widened "nop\n".toList "nop\n\tfrob ;\r\nnop".toList
      "nop\n ;; drop\r\n\tfrob ;\r\nnop".toList := by
    have old : "nop\n\tfrob ;\r\nnop".toList = "nop\n".toList ++ "\tfrob ;\r\nnop".toList := by rfl
    have new : "nop\n ;; drop\r\n\tfrob ;\r\nnop".toList = "nop\n".toList ++
        (" ;; drop".toList ++ ['\r', '\n']) ++ "\tfrob ;\r\nnop".toList := by rfl
    rw [old, new]
    exact .between (.newline "nop".toList) vacant (.inr rfl) _
  intro text
  obtain ⟨kept, moved⟩ := ofListing_layout text
  refine ⟨relaid, widened, refused, ?_, ?_⟩
  · exact (kept _ relaid).trans refused
  · exact (moved _ _ widened).2 _ refused

end Program

end Straightline
