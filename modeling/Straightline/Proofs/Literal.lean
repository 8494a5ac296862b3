import Mathlib.Data.List.Induction
import Straightline.Listing

/-!
# What a literal means

The meaning of number literals as a grammar with values, apart from how they are read:

- `Digit base c d`: the character `c` is the digit of value `d`, in either letter case.
- `Numeral base word v`: a sequence of digits and its value by position.
- `Denotes word n`: a literal and the word of 32 bits it stands for.

Reading a literal finds exactly what it denotes (`read?_eq_some_iff`), for digit sequences of any
length. A word printed in decimal denotes itself (`denotes_toString`).
-/

namespace Straightline.Literal

/-! ## Digits -/

/-- A digit below `base`, written with a letter of either case from ten on. Its value is `d`. -/
def Digit (base : Nat) (c : Char) (d : Nat) : Prop :=
  d < base ∧ (c = d.digitChar ∨ c = d.digitChar.toUpper)

/-- A character between two others is known by its distance from the first. -/
private theorem eq_of_between {first last c : Char} (inside : first ≤ c ∧ c ≤ last)
    (spell : Nat → Char)
    (table : ∀ k ≤ last.toNat - first.toNat, Char.ofNat (first.toNat + k) = spell k) :
    c = spell (c.toNat - first.toNat) := by
  have lower : first.toNat ≤ c.toNat := inside.1
  have upper : c.toNat ≤ last.toNat := inside.2
  rw [← table (c.toNat - first.toNat) (by omega), Nat.add_sub_cancel' lower, Char.ofNat_toNat]

/-- A smaller base has the digits of base sixteen that lie below it. -/
private theorem digit?_eq_filter {base : Nat} (small : base ≤ 16) (c : Char) :
    digit? base c = (digit? 16 c).filter (· < base) := by
  simp only [digit?, Option.filter_filter]
  congr
  funext d
  simp
  omega

private theorem digit?_digitChar :
    ∀ d < 16, digit? 16 d.digitChar = some d ∧ digit? 16 d.digitChar.toUpper = some d := by
  decide

private theorem digit_of_digit? {base : Nat} {c : Char} {d : Nat} (h : digit? base c = some d) :
    Digit base c d := by
  simp only [digit?, Option.filter_eq_some_iff, decide_eq_true_eq] at h
  obtain ⟨value, below⟩ := h
  refine ⟨below, ?_⟩
  -- The three ranges in turn: decimal digits, small letters, capital letters.
  split at value
  case isTrue inside =>
    cases value
    exact .inl (eq_of_between inside Nat.digitChar (by decide))
  case isFalse =>
    split at value
    case isTrue inside =>
      cases value
      exact .inl (eq_of_between inside (fun k => (k + 10).digitChar) (by decide))
    case isFalse =>
      split at value
      case isTrue inside =>
        cases value
        exact .inr (eq_of_between inside (fun k => (k + 10).digitChar.toUpper) (by decide))
      case isFalse => cases value

/-- `digit?` finds the value of a `Digit`, in every base up to sixteen, and of no other
character. -/
theorem digit?_eq_some_iff {base : Nat} (small : base ≤ 16) {c : Char} {d : Nat} :
    digit? base c = some d ↔ Digit base c d := by
  constructor
  · exact digit_of_digit?
  · rintro ⟨below, spelled⟩
    have found := digit?_digitChar d (by omega)
    rw [digit?_eq_filter small]
    rcases spelled with rfl | rfl
    · simp [found.1, below]
    · simp [found.2, below]

/-- The digits of base ten are the decimal ones. -/
theorem isDigit_of_digit? {c : Char} {d : Nat} (h : digit? 10 c = some d) : c.isDigit = true := by
  have table : ∀ k < 10, k.digitChar.isDigit = true ∧ k.digitChar.toUpper.isDigit = true := by
    decide
  obtain ⟨below, spelled⟩ := digit_of_digit? h
  rcases spelled with rfl | rfl
  · exact (table d below).1
  · exact (table d below).2

/-! ## Numerals -/

/-- One digit, or a numeral with one more digit behind it, and the value by position. There may be
zeros in front, and there is no limit to the length. -/
inductive Numeral (base : Nat) : List Char → Nat → Prop where
  | digit {c : Char} {d : Nat} (hc : Digit base c d) :
      Numeral base [c] d
  | append {word : List Char} {v : Nat} {c : Char} {d : Nat}
      (init : Numeral base word v) (hc : Digit base c d) :
      Numeral base (word ++ [c]) (base * v + d)

theorem Numeral.ne_nil {base : Nat} {word : List Char} {v : Nat} (h : Numeral base word v) :
    word ≠ [] := by
  cases h <;> simp

/-- Reading digits can be interrupted and taken up again. -/
private theorem digits?_append (base v : Nat) (front back : List Char) :
    digits? base v (front ++ back) = (digits? base v front).bind (digits? base · back) := by
  induction front generalizing v with
  | nil => rfl
  | cons c front ih =>
    simp only [List.cons_append, digits?, Option.bind_eq_bind, Option.bind_assoc]
    congr
    funext d
    exact ih (base * v + d)

private theorem numeral?_eq_digits? {base : Nat} {word : List Char} (nonempty : word ≠ []) :
    numeral? base word = digits? base 0 word := by
  simp [numeral?, nonempty]

private theorem numeral?_append_digit {base : Nat} (word : List Char) (c : Char) :
    numeral? base (word ++ [c]) =
      (digits? base 0 word).bind fun v => (digit? base c).map fun d => base * v + d := by
  rw [numeral?_eq_digits? (by simp), digits?_append]
  congr
  funext v
  rw [digits?]
  cases digit? base c <;> rfl

/-- `numeral?` finds the value of a `Numeral`, and of no other word. -/
theorem numeral?_eq_some_iff {base : Nat} (small : base ≤ 16) {word : List Char} {v : Nat} :
    numeral? base word = some v ↔ Numeral base word v := by
  constructor
  · -- The value builds up from the left, so the last digit is split off first.
    induction word using List.reverseRecOn generalizing v with
    | nil => simp [numeral?]
    | append_singleton word c ih =>
      intro h
      rw [numeral?_append_digit] at h
      simp only [Option.bind_eq_some_iff, Option.map_eq_some_iff] at h
      obtain ⟨u, init, d, digit, rfl⟩ := h
      have hc : Digit base c d := digit_of_digit? digit
      by_cases empty : word = []
      · subst empty
        cases init
        simpa using Numeral.digit hc
      · rw [← numeral?_eq_digits? empty] at init
        exact .append (ih init) hc
  · intro h
    induction h with
    | digit hc =>
      have digit := (digit?_eq_some_iff small).mpr hc
      simp [numeral?, digits?, digit]
    | append init hc ih =>
      rw [numeral?_eq_digits? init.ne_nil] at ih
      have digit := (digit?_eq_some_iff small).mpr hc
      rw [numeral?_append_digit, ih, digit]
      rfl

/-! ## Literals -/

/-- A literal without its sign, decimal or hexadecimal behind its mark, and its value. -/
inductive Magnitude : List Char → Nat → Prop where
  | decimal {digits : List Char} {v : Nat} (numeral : Numeral 10 digits v) :
      Magnitude digits v
  | hexadecimal {x : Char} {digits : List Char} {v : Nat}
      (mark : x = 'x' ∨ x = 'X') (numeral : Numeral 16 digits v) :
      Magnitude ('0' :: x :: digits) v

/-- A literal and the word it stands for. A decimal literal and a literal with a sign stand for
their value, which must be that of a word. A hexadecimal literal without a sign stands for the word
with these 32 bits. -/
inductive Denotes : List Char → Int32 → Prop where
  | decimal {digits : List Char} {v : Nat} {n : Int32}
      (numeral : Numeral 10 digits v) (value : n.toInt = v) :
      Denotes digits n
  | pattern {x : Char} {digits : List Char} {v : Nat} {n : Int32}
      (mark : x = 'x' ∨ x = 'X') (numeral : Numeral 16 digits v) (bits : n.toUInt32.toNat = v) :
      Denotes ('0' :: x :: digits) n
  | plus {word : List Char} {v : Nat} {n : Int32}
      (magnitude : Magnitude word v) (value : n.toInt = v) :
      Denotes ('+' :: word) n
  | minus {word : List Char} {v : Nat} {n : Int32}
      (magnitude : Magnitude word v) (value : n.toInt = -v) :
      Denotes ('-' :: word) n

theorem word?_eq_some_iff {z : Int} {n : Int32} : word? z = some n ↔ n.toInt = z := by
  have lower := n.le_toInt
  have upper := n.toInt_lt
  simp only [word?, Int32.toInt_minValue, Int32.toInt_maxValue, Option.ite_none_right_eq_some,
    Option.some.injEq]
  constructor
  · rintro ⟨⟨least, greatest⟩, rfl⟩
    exact Int32.toInt_ofInt_of_le least (by omega)
  · rintro rfl
    exact ⟨by omega, Int32.ofInt_toInt n⟩

theorem pattern?_eq_some_iff {v : Nat} {n : Int32} :
    pattern? v = some n ↔ n.toUInt32.toNat = v := by
  simp only [pattern?, Option.ite_none_right_eq_some, Option.some.injEq]
  constructor
  · rintro ⟨below, rfl⟩
    rw [Int32.toUInt32_ofNat', UInt32.toNat_ofNat_of_lt' below]
  · rintro rfl
    refine ⟨n.toUInt32.toNat_lt, ?_⟩
    rw [← UInt32.toInt32_ofNat', UInt32.ofNat_toNat, Int32.toInt32_toUInt32]

/-! A decimal numeral starts with no sign and no mark of base sixteen, so it is read as such. -/

private theorem magnitude?_of_decimal {digits : List Char} {v : Nat}
    (h : numeral? 10 digits = some v) :
    magnitude? digits = some v := by
  unfold magnitude?
  -- In the first two cases the second character is the mark, which is no digit.
  split
  · simp [numeral?, digits?, digit?] at h
  · simp [numeral?, digits?, digit?] at h
  · exact h

theorem read?_of_decimal {digits : List Char} {v : Nat} (h : numeral? 10 digits = some v) :
    read? digits = word? v := by
  unfold read?
  -- Likewise for a sign in front.
  split
  · simp [numeral?, digits?, digit?] at h
  · simp [numeral?, digits?, digit?] at h
  · simp [numeral?, digits?, digit?] at h
  · simp [numeral?, digits?, digit?] at h
  · simp [h]

theorem magnitude?_eq_some_iff {word : List Char} {v : Nat} :
    magnitude? word = some v ↔ Magnitude word v := by
  constructor
  · intro h
    unfold magnitude? at h
    split at h
    · exact .hexadecimal (.inl rfl) ((numeral?_eq_some_iff (by decide)).mp h)
    · exact .hexadecimal (.inr rfl) ((numeral?_eq_some_iff (by decide)).mp h)
    · exact .decimal ((numeral?_eq_some_iff (by decide)).mp h)
  · rintro (numeral | ⟨rfl | rfl, numeral⟩)
    · exact magnitude?_of_decimal ((numeral?_eq_some_iff (by decide)).mpr numeral)
    · exact (numeral?_eq_some_iff (by decide)).mpr numeral
    · exact (numeral?_eq_some_iff (by decide)).mpr numeral

/-- A hexadecimal literal without a sign, behind its mark. -/
private theorem readPattern_eq_some_iff {digits : List Char} {n : Int32} :
    (do pattern? (← numeral? 16 digits)) = some n ↔
      ∃ v, Numeral 16 digits v ∧ n.toUInt32.toNat = v := by
  simp only [Option.bind_eq_bind, Option.bind_eq_some_iff, pattern?_eq_some_iff,
    numeral?_eq_some_iff (show 16 ≤ 16 by decide)]

/-- `read?` finds the word that a literal `Denotes`, and nothing where there is none. -/
theorem read?_eq_some_iff {word : List Char} {n : Int32} :
    read? word = some n ↔ Denotes word n := by
  constructor
  · intro h
    unfold read? at h
    split at h
    · obtain ⟨v, magnitude, value⟩ := Option.bind_eq_some_iff.mp h
      exact .minus (magnitude?_eq_some_iff.mp magnitude) (word?_eq_some_iff.mp value)
    · obtain ⟨v, magnitude, value⟩ := Option.bind_eq_some_iff.mp h
      exact .plus (magnitude?_eq_some_iff.mp magnitude) (word?_eq_some_iff.mp value)
    · obtain ⟨v, numeral, bits⟩ := readPattern_eq_some_iff.mp h
      exact .pattern (.inl rfl) numeral bits
    · obtain ⟨v, numeral, bits⟩ := readPattern_eq_some_iff.mp h
      exact .pattern (.inr rfl) numeral bits
    · obtain ⟨v, numeral, value⟩ := Option.bind_eq_some_iff.mp h
      exact .decimal ((numeral?_eq_some_iff (by decide)).mp numeral) (word?_eq_some_iff.mp value)
  · intro h
    cases h with
    | decimal numeral value =>
      rw [read?_of_decimal ((numeral?_eq_some_iff (by decide)).mpr numeral)]
      exact word?_eq_some_iff.mpr value
    | pattern mark numeral bits =>
      rcases mark with rfl | rfl
      · exact readPattern_eq_some_iff.mpr ⟨_, numeral, bits⟩
      · exact readPattern_eq_some_iff.mpr ⟨_, numeral, bits⟩
    | plus magnitude value =>
      exact Option.bind_eq_some_iff.mpr
        ⟨_, magnitude?_eq_some_iff.mpr magnitude, word?_eq_some_iff.mpr value⟩
    | minus magnitude value =>
      exact Option.bind_eq_some_iff.mpr
        ⟨_, magnitude?_eq_some_iff.mpr magnitude, word?_eq_some_iff.mpr value⟩

/-- A literal starts with a sign or with a decimal digit, so `starts` misses none. -/
theorem starts_of_denotes {word : List Char} {n : Int32} (h : Denotes word n) :
    starts word = true := by
  cases h with
  | decimal numeral _ =>
    have read := (numeral?_eq_some_iff (by decide)).mpr numeral
    cases word with
    | nil => exact absurd rfl numeral.ne_nil
    | cons c rest =>
      -- The first character of a decimal numeral is one of its digits.
      simp only [numeral?, digits?, List.isEmpty_cons, Bool.false_eq_true,
        if_false, Option.bind_eq_bind, Option.bind_eq_some_iff] at read
      obtain ⟨d, digit, _⟩ := read
      simp [starts, isDigit_of_digit? digit]
  | pattern _ _ _ => rfl
  | plus _ _ => rfl
  | minus _ _ => rfl

/-! ## Decimal text -/

theorem digit_digitChar {base d : Nat} (below : d < base) : Digit base d.digitChar d :=
  ⟨below, .inl rfl⟩

/-- A number written in decimal (`Nat.toDigits`) is a `Numeral` of that value. -/
theorem numeral_toDigits (v : Nat) : Numeral 10 (Nat.toDigits 10 v) v := by
  -- The text of a larger number is the text of its tenth with the last digit behind it.
  induction v using Nat.strongRecOn with
  | ind v ih =>
    by_cases small : v < 10
    · rw [Nat.toDigits_of_lt_base small]
      exact .digit (digit_digitChar small)
    · have whole : 10 * (v / 10) + v % 10 = v := Nat.div_add_mod v 10
      rw [Nat.toDigits_of_base_le (by decide) (by omega)]
      nth_rewrite 3 [← whole]
      exact .append (ih (v / 10) (by omega)) (digit_digitChar (Nat.mod_lt v (by decide)))

/-- A word written in decimal `Denotes` itself. -/
theorem denotes_toString (n : Int32) : Denotes (toString n.toInt).toList n := by
  rw [Int.toString_eq_repr, Int.repr_eq_if]
  split
  case isTrue nonneg =>
    rw [Nat.toList_repr]
    exact .decimal (numeral_toDigits _) (by omega)
  case isFalse neg =>
    rw [String.toList_append, Nat.toList_repr]
    exact .minus (.decimal (numeral_toDigits _)) (by omega)

/-- The decimal text of a number holds digits and possibly a minus sign. -/
theorem mem_toString {z : Int} {c : Char} (h : c ∈ (toString z).toList) :
    c = '-' ∨ c.isDigit = true := by
  rw [Int.toString_eq_repr, Int.repr_eq_if] at h
  split at h
  · rw [Nat.toList_repr] at h
    exact .inr (Nat.isDigit_of_mem_toDigits (by decide) (by decide) h)
  · rw [String.toList_append, Nat.toList_repr, List.mem_append] at h
    rcases h with sign | digits
    · exact .inl (by simpa using sign)
    · exact .inr (Nat.isDigit_of_mem_toDigits (by decide) (by decide) digits)

end Straightline.Literal

/-! ## Tokens -/

namespace Straightline.Token

/-- `Token.read?` gives a number exactly for a literal, with the word it denotes and its own
text. -/
theorem read?_eq_number_iff {word : List Char} {n : Int32} {text : String} :
    read? word = some (.number n text) ↔ Literal.Denotes word n ∧ text = String.ofList word := by
  constructor
  · intro h
    unfold read? at h
    split at h
    · obtain ⟨value, read, same⟩ := Option.map_eq_some_iff.mp h
      cases same
      exact ⟨Literal.read?_eq_some_iff.mp read, rfl⟩
    · cases h
  · rintro ⟨denotes, rfl⟩
    have starts := Literal.starts_of_denotes denotes
    have read := Literal.read?_eq_some_iff.mpr denotes
    simp [read?, starts, read]

theorem read?_eq_name_iff {word : List Char} {text : String} :
    read? word = some (.name text) ↔
      Literal.starts word = false ∧ text = String.ofList word := by
  constructor
  · intro h
    unfold read? at h
    split at h
    · obtain ⟨value, _, same⟩ := Option.map_eq_some_iff.mp h
      cases same
    case isFalse plain =>
      cases h
      exact ⟨by simpa using plain, rfl⟩
  · rintro ⟨plain, rfl⟩
    simp [read?, plain]

end Straightline.Token
