import Straightline.Proofs.Arithmetic
import Straightline.Proofs.Diagnosis
import Straightline.Proofs.Width

/-!
# Number tokens

Which token a word is, in plain integers. A word that starts like a number is a number if it is a
literal in range, and a mistake otherwise; every other word is a name. There are two kinds of
literals:

- `Literal.Exact word z`: a decimal literal, or a hexadecimal one with a sign, stands for its exact
  value `z`, which has to be a word of 32 bits.
- `Literal.Pattern word v`: a hexadecimal literal without a sign stands for the word congruent to
  its value `v`, which has to lie below two to the power 32.

Zeros in front of the digits change nothing (`Literal.read?_zeros`), and nothing depends on the
integers having any size at all (`Token.readLimited?_eq_read?`).
-/

namespace Straightline

namespace Literal

/-! ## Literals in integers -/

/-- A literal that stands for its exact value: a decimal one, or one of either base behind a
sign. -/
inductive Exact : List Char → Int → Prop where
  | bare {digits : List Char} {v : Nat} (numeral : Numeral 10 digits v) :
      Exact digits v
  | plus {word : List Char} {v : Nat} (magnitude : Magnitude word v) :
      Exact ('+' :: word) v
  | minus {word : List Char} {v : Nat} (magnitude : Magnitude word v) :
      Exact ('-' :: word) (-v)

/-- A literal that stands for 32 bits: a hexadecimal one without a sign. -/
inductive Pattern : List Char → Nat → Prop where
  | marked {x : Char} {digits : List Char} {v : Nat} (mark : x = 'x' ∨ x = 'X')
      (numeral : Numeral 16 digits v) :
      Pattern ('0' :: x :: digits) v

/-- A literal whose value is in range: `Representable` if the literal is `Exact`, below two to the
power 32 if it is a `Pattern`. -/
def InRange (word : List Char) : Prop :=
  (∃ z, Exact word z ∧ Representable z) ∨ ∃ v, Pattern word v ∧ v < 2 ^ 32

/-- The word that a literal `InRange` stands for: the one with this value, or the one congruent to
it. -/
def Means (word : List Char) (n : Int32) : Prop :=
  (∃ z, Exact word z ∧ Representable z ∧ n.toInt = z) ∨
    ∃ v : Nat, Pattern word v ∧ v < 2 ^ 32 ∧ Residue v n

private theorem residue_ofNat (v : Nat) : Residue v (Int32.ofNat v) :=
  residue_of_toInt Int32.toInt_ofNat'

/-- The word with the bits of a number is the one congruent to it. -/
private theorem bits_iff_residue {v : Nat} {n : Int32} :
    n.toUInt32.toNat = v ↔ v < 2 ^ 32 ∧ Residue v n := by
  rw [← pattern?_eq_some_iff]
  simp only [pattern?, Option.ite_none_right_eq_some, Option.some.injEq]
  refine and_congr_right fun _ => ?_
  constructor
  · rintro rfl
    exact residue_ofNat v
  · intro residue
    exact (residue (Int32.ofNat v)).mp ((residue_ofNat v (Int32.ofNat v)).mpr rfl)

/-- The literals in bits (`Denotes`) and in integers (`Means`) stand for the same words. -/
theorem denotes_iff_means {word : List Char} {n : Int32} : Denotes word n ↔ Means word n := by
  constructor
  · intro h
    cases h with
    | decimal numeral value =>
      exact .inl ⟨_, .bare numeral, value ▸ representable_toInt n, value⟩
    | plus magnitude value =>
      exact .inl ⟨_, .plus magnitude, value ▸ representable_toInt n, value⟩
    | minus magnitude value =>
      exact .inl ⟨_, .minus magnitude, value ▸ representable_toInt n, value⟩
    | pattern mark numeral bits =>
      exact .inr ⟨_, .marked mark numeral, bits_iff_residue.mp bits⟩
  · rintro (⟨z, exactly, _, value⟩ | ⟨v, ⟨mark, numeral⟩, bits⟩)
    · cases exactly with
      | bare numeral => exact .decimal numeral value
      | plus magnitude => exact .plus magnitude value
      | minus magnitude => exact .minus magnitude value
    · exact .pattern mark numeral (bits_iff_residue.mpr bits)

theorem valid_iff_inRange {word : List Char} : Valid word ↔ InRange word := by
  constructor
  · rintro ⟨n, denotes⟩
    rcases denotes_iff_means.mp denotes with ⟨z, exactly, range, _⟩ | ⟨v, pattern, range, _⟩
    · exact .inl ⟨z, exactly, range⟩
    · exact .inr ⟨v, pattern, range⟩
  · rintro (⟨z, exactly, range⟩ | ⟨v, pattern, range⟩)
    · obtain ⟨n, value⟩ := exists_of_representable range
      exact ⟨n, denotes_iff_means.mpr (.inl ⟨z, exactly, range, value⟩)⟩
    · exact ⟨_, denotes_iff_means.mpr (.inr ⟨v, pattern, range, residue_ofNat v⟩)⟩

/-! ## Zeros in front -/

private theorem numeral_zeros {base : Nat} (positive : 0 < base) (k : Nat) :
    Numeral base (List.replicate (k + 1) '0') 0 := by
  have zero : Digit base '0' 0 := digit_digitChar positive
  induction k with
  | zero => exact .digit zero
  | succ k ih =>
    rw [List.replicate_succ']
    exact .append ih zero

private theorem Numeral.zeros_append {base : Nat} (positive : 0 < base) {digits : List Char}
    {v : Nat}
    (h : Numeral base digits v) (k : Nat) : Numeral base (List.replicate k '0' ++ digits) v := by
  induction h with
  | @digit c d hc =>
    -- A numeral is not empty, so without zeros there is nothing to put the digit behind.
    cases k with
    | zero => exact .digit hc
    | succ k =>
      have behind := Numeral.append (numeral_zeros positive k) hc
      rwa [Nat.mul_zero, Nat.zero_add] at behind
  | append _ hc ih =>
    rw [← List.append_assoc]
    exact .append ih hc

/-- What can stand in front of the digits of a literal, and the base of the digits behind it. -/
def fronts : List (List Char × Nat) :=
  [ ([], 10), (['+'], 10), (['-'], 10), (['0', 'x'], 16), (['0', 'X'], 16), (['+', '0', 'x'], 16),
    (['+', '0', 'X'], 16), (['-', '0', 'x'], 16), (['-', '0', 'X'], 16) ]

private theorem read?_of_exact {word : List Char} {z : Int} (h : Exact word z) :
    read? word = word? z := by
  cases h with
  | bare numeral => exact read?_of_decimal ((numeral?_eq_some_iff (by decide)).mpr numeral)
  | plus magnitude => simp [read?, magnitude?_eq_some_iff.mpr magnitude]
  | minus magnitude => simp [read?, magnitude?_eq_some_iff.mpr magnitude]

private theorem read?_of_pattern {word : List Char} {v : Nat} (h : Pattern word v) :
    read? word = pattern? v := by
  obtain ⟨rfl | rfl, numeral⟩ := h
  · simp [read?, (numeral?_eq_some_iff (show 16 ≤ 16 by decide)).mpr numeral]
  · simp [read?, (numeral?_eq_some_iff (show 16 ≤ 16 by decide)).mpr numeral]

/-- Of the digits behind a front, only their value counts. -/
private theorem read?_of_front {front : List Char} {base : Nat} (h : (front, base) ∈ fronts) :
    0 < base ∧ ∃ meaning : Nat → Option Int32,
      ∀ digits v, Numeral base digits v → read? (front ++ digits) = meaning v := by
  simp only [fronts, List.mem_cons, Prod.mk.injEq, List.not_mem_nil, or_false] at h
  rcases h with ⟨rfl, rfl⟩ | ⟨rfl, rfl⟩ | ⟨rfl, rfl⟩ | ⟨rfl, rfl⟩ | ⟨rfl, rfl⟩ | ⟨rfl, rfl⟩ |
    ⟨rfl, rfl⟩ | ⟨rfl, rfl⟩ | ⟨rfl, rfl⟩
  · exact ⟨by decide, _, fun _ _ h => read?_of_exact (.bare h)⟩
  · exact ⟨by decide, _, fun _ _ h => read?_of_exact (.plus (.decimal h))⟩
  · exact ⟨by decide, _, fun _ _ h => read?_of_exact (.minus (.decimal h))⟩
  · exact ⟨by decide, _, fun _ _ h => read?_of_pattern (.marked (.inl rfl) h)⟩
  · exact ⟨by decide, _, fun _ _ h => read?_of_pattern (.marked (.inr rfl) h)⟩
  · exact ⟨by decide, _, fun _ _ h => read?_of_exact (.plus (.hexadecimal (.inl rfl) h))⟩
  · exact ⟨by decide, _, fun _ _ h => read?_of_exact (.plus (.hexadecimal (.inr rfl) h))⟩
  · exact ⟨by decide, _, fun _ _ h => read?_of_exact (.minus (.hexadecimal (.inl rfl) h))⟩
  · exact ⟨by decide, _, fun _ _ h => read?_of_exact (.minus (.hexadecimal (.inr rfl) h))⟩

/-- Any number of zeros may stand in front of the digits of a literal, behind each of the
`fronts`. -/
theorem read?_zeros {front : List Char} {base : Nat} (h : (front, base) ∈ fronts)
    {digits : List Char} {v : Nat} (numeral : Numeral base digits v) (k : Nat) :
    read? (front ++ (List.replicate k '0' ++ digits)) = read? (front ++ digits) := by
  obtain ⟨positive, meaning, reads⟩ := read?_of_front h
  rw [reads _ v (numeral.zeros_append positive k), reads _ v numeral]

end Literal

/-! ## Tokens in integers -/

namespace Line

private theorem tokens_singleton_eq_ok_iff {word : List Char} {token : Token} :
    tokens [word] = .ok [token] ↔ Token.read? word = some token := by
  rw [tokens]
  cases Token.read? word with
  | none => simp
  | some found => simp [tokens, Except.map]

private theorem tokens_singleton_eq_error_iff {word : List Char} {cause : LineError} :
    tokens [word] = .error cause ↔
      Token.read? word = none ∧ cause = .invalidNumber (String.ofList word) := by
  rw [tokens]
  cases Token.read? word with
  | none => simp [eq_comm]
  | some found => simp [tokens, Except.map]

/-- The token that `tokens` finds for a word.

- A word is a name, kept as it is, if it starts with no sign and no decimal digit.
- It is a number if it is a literal `InRange`, and then the number it `Means`: the exact value of a
  decimal literal and of one with a sign, the only word congruent to any other one.
- Every other word is a malformed number, and reported as it stands.
- Zeros in front of the digits do not matter.
- A reader with 64 and 32 bits for its integers (`readLimited?`) finds the same token. -/
theorem tokens_word (word : List Char) :
    let likeNumber := ∃ c rest, word = c :: rest ∧ (c = '+' ∨ c = '-' ∨ '0' ≤ c ∧ c ≤ '9')
    (∀ text, tokens [word] = .ok [.name text] ↔ ¬ likeNumber ∧ text = String.ofList word) ∧
    ((∃ n text, tokens [word] = .ok [.number n text]) ↔ Literal.InRange word) ∧
    (∀ n text, tokens [word] = .ok [.number n text] ↔
      Literal.Means word n ∧ text = String.ofList word) ∧
    (∀ cause, tokens [word] = .error cause ↔
      (likeNumber ∧ ¬ Literal.InRange word) ∧ cause = .invalidNumber (String.ofList word)) ∧
    (∀ front base, (front, base) ∈ Literal.fronts → ∀ digits v, Literal.Numeral base digits v →
      ∀ k, Literal.read? (front ++ (List.replicate k '0' ++ digits)) =
        Literal.read? (front ++ digits)) ∧
    Token.readLimited? word = Token.read? word := by
  intro likeNumber
  refine ⟨?_, ?_, ?_, ?_, ?_, Token.readLimited?_eq_read? word⟩
  · intro text
    rw [tokens_singleton_eq_ok_iff, Token.read?_eq_name_iff, ← Bool.not_eq_true,
      Literal.starts_iff]
  · simp only [tokens_singleton_eq_ok_iff, Token.read?_eq_number_iff, exists_and_left,
      exists_eq, and_true]
    exact Literal.valid_iff_inRange
  · intro n text
    rw [tokens_singleton_eq_ok_iff, Token.read?_eq_number_iff, Literal.denotes_iff_means]
  · intro cause
    rw [tokens_singleton_eq_error_iff, Token.read?_eq_none_iff, Literal.Malformed,
      Literal.valid_iff_inRange]
  · intro front base member digits v numeral k
    exact Literal.read?_zeros member numeral k

/-- The least word in hexadecimal, also with zeros in front of its digits. -/
theorem tokens_word_least :
    let front := ['-', '0', 'x']
    let digits := ['8', '0', '0', '0', '0', '0', '0', '0']
    ((front, 16) ∈ Literal.fronts ∧ Literal.Numeral 16 digits (2 ^ 31)) ∧
      tokens [front ++ digits] =
        .ok [.number Int32.minValue (String.ofList (front ++ digits))] ∧
      Literal.read? (front ++ (List.replicate 40 '0' ++ digits)) = some Int32.minValue := by
  intro front digits
  have member : (front, 16) ∈ Literal.fronts := by decide
  have numeral : Literal.Numeral 16 digits (2 ^ 31) :=
    (Literal.numeral?_eq_some_iff (by decide)).mp (by decide)
  have least : Literal.Means (front ++ digits) Int32.minValue :=
    .inl ⟨_, .minus (.hexadecimal (.inl rfl) numeral), by decide, rfl⟩
  obtain ⟨_, _, number, _, zeros, _⟩ := tokens_word (front ++ digits)
  refine ⟨⟨member, numeral⟩, (number _ _).mpr ⟨least, rfl⟩, ?_⟩
  rw [zeros front 16 member digits _ numeral 40]
  decide

end Line

end Straightline
