import Mathlib.Algebra.Ring.Int.Defs
import Straightline.Proofs.Literal

/-!
# Reading numbers with integers of limited width

Literals are read with numbers of any size, and only the final value is held against the bounds of
a word. A reader for a machine has no such numbers: every product and every sum it makes has to fit
its integers, and it fails at the first that does not. `Token.readLimited?` is this reader, with 32
bits for a bit pattern and 64 bits for everything else. Its integers also read signs of their own,
so it looks at the first character before it uses them.

Both readers give the same token on every word (`Token.readLimited?_eq_read?`): the limits on the
way never turn away a literal whose value is a word, and never let one pass whose value is not.
-/

namespace Straightline

/-- A type of integers, given by its bounds. -/
structure Width where
  least : Int
  greatest : Int

namespace Width

/-- Signed words of 32 bits. -/
def signed32 : Width := ⟨-2 ^ 31, 2 ^ 31 - 1⟩

/-- Unsigned words of 32 bits. -/
def unsigned32 : Width := ⟨0, 2 ^ 32 - 1⟩

/-- Signed words of 64 bits. -/
def signed64 : Width := ⟨-2 ^ 63, 2 ^ 63 - 1⟩

/-- An integer, if it lies within the bounds of `w`. -/
def fit? (w : Width) (z : Int) : Option Int :=
  if w.least ≤ z ∧ z ≤ w.greatest then some z else none

/-- Reads digits after those that amount to `z`, away from zero in the direction of `sign`. Both the
product and the sum for a digit have to lie within the bounds. -/
def digits? (w : Width) (base : Nat) (sign z : Int) : List Char → Option Int
  | [] => some z
  | c :: rest => do
    let d ← Literal.digit? base c
    let shifted ← w.fit? (z * base)
    let next ← w.fit? (shifted + sign * d)
    w.digits? base sign next rest

/-- Reads one or more digits. -/
def numeral? (w : Width) (base : Nat) (sign : Int) (digits : List Char) : Option Int :=
  if digits.isEmpty then none else w.digits? base sign 0 digits

/-- Reads an integer, which may have a sign of its own, though a minus only where there are negative
ones. -/
def parse? (w : Width) (base : Nat) : List Char → Option Int
  | '+' :: digits => w.numeral? base 1 digits
  | '-' :: digits => if w.least < 0 then w.numeral? base (-1) digits else none
  | digits => w.numeral? base 1 digits

end Width

namespace Literal

/-- Whether the first character is a digit. -/
def startsWithDigit (base : Nat) : List Char → Bool
  | c :: _ => (digit? base c).isSome
  | [] => false

/-- The sign in front of a word, if there is one, and what follows it. -/
def splitSign : List Char → Option Int × List Char
  | '-' :: rest => (some (-1), rest)
  | '+' :: rest => (some 1, rest)
  | word => (none, word)

/-- What follows a mark of base sixteen. -/
def afterMark? : List Char → Option (List Char)
  | '0' :: 'x' :: digits => some digits
  | '0' :: 'X' :: digits => some digits
  | _ => none

/-- The word of a magnitude with its sign. -/
def signed? (sign magnitude : Int) : Option Int32 :=
  (Width.signed32.fit? (sign * magnitude)).map .ofInt

/-- The word with the bits of an unsigned number of base sixteen. The look at the first character
keeps `Width.parse?` from reading a sign. -/
def bits? (digits : List Char) : Option Int32 :=
  if startsWithDigit 16 digits then (Width.unsigned32.parse? 16 digits).map .ofInt else none

/-- The word of a magnitude that is read with 64 bits, and its sign. -/
def wide? (base : Nat) (sign : Int) (digits : List Char) : Option Int32 :=
  if startsWithDigit base digits then (Width.signed64.parse? base digits).bind (signed? sign)
  else none

end Literal

namespace Token

/-- Reads a word with integers of limited width: 32 bits for a bit pattern (`Literal.bits?`), and 64
bits for everything else (`Literal.wide?`). -/
def readLimited? (word : List Char) : Option Token :=
  let number (n? : Option Int32) : Option Token :=
    n?.map fun n => .number n (String.ofList word)
  match Literal.splitSign word with
  | (sign?, digits) =>
    match Literal.afterMark? digits, sign? with
    | some digits, none => number (Literal.bits? digits)
    | some digits, some sign => number (Literal.wide? 16 sign digits)
    | none, some sign => number (Literal.wide? 10 sign digits)
    | none, none =>
      if Literal.startsWithDigit 10 digits then number (Literal.wide? 10 1 digits)
      else some (.name (String.ofList word))

end Token

/-! ## Limits on the way -/

/-- More digits never make a number smaller. -/
private theorem Literal.le_of_digits? {base : Nat} (positive : 0 < base) {n v : Nat}
    {digits : List Char}
    (h : digits? base n digits = some v) : n ≤ v := by
  induction digits generalizing n with
  | nil => exact Nat.le_of_eq (Option.some.inj h)
  | cons c rest ih =>
    obtain ⟨d, _, rest⟩ := Option.bind_eq_some_iff.mp h
    calc n ≤ base * n := Nat.le_mul_of_pos_left n positive
      _ ≤ base * n + d := Nat.le_add_right _ d
      _ ≤ v := ih rest

namespace Width

variable {w : Width} {base : Nat}

theorem fit?_of_le {z : Int} (lower : w.least ≤ z) (upper : z ≤ w.greatest) :
    w.fit? z = some z := if_pos ⟨lower, upper⟩

private theorem fit?_of_not {z : Int} (outside : ¬ (w.least ≤ z ∧ z ≤ w.greatest)) :
    w.fit? z = none :=
  if_neg outside

private theorem fit?_of_lt {z : Int} (above : w.greatest < z) : w.fit? z = none :=
  fit?_of_not fun inside => absurd inside.2 (Int.not_le.mpr above)

/-- One digit: the product and the sum fit just when the sum does. -/
private theorem bind_fit? {α : Type} (lower : w.least ≤ 0) (n d : Nat) (f : Int → Option α) :
    ((w.fit? (n * base)).bind fun shifted => (w.fit? (shifted + 1 * d)).bind f) =
      (w.fit? ((base * n + d : Nat) : Int)).bind f := by
  have sum : (n * base + 1 * d : Int) = ((base * n + d : Nat) : Int) := by
    push_cast
    rw [Int.mul_comm, Int.one_mul]
  by_cases fits : (n * base : Int) ≤ w.greatest
  · rw [fit?_of_le (by omega) fits, Option.bind_some, sum]
  · have outside : w.greatest < ((base * n + d : Nat) : Int) := by omega
    rw [fit?_of_lt (Int.not_le.mp fits), fit?_of_lt outside]
    rfl

/-- Limits on the way are limits on the final value: what is too large once stays too large. So the
limited reader of digits is the one without limits, and `fit?` behind it. -/
theorem digits?_eq (lower : w.least ≤ 0) (positive : 0 < base) {n : Nat} (fits : n ≤ w.greatest)
    (digits : List Char) :
    w.digits? base 1 n digits = (Literal.digits? base n digits).bind fun v => w.fit? v := by
  -- The value read so far lies within the bounds: this is kept from digit to digit.
  induction digits generalizing n with
  | nil => exact (fit?_of_le (by omega) fits).symm
  | cons c rest ih =>
    simp only [digits?, Literal.digits?, Option.bind_eq_bind, Option.bind_assoc, bind_fit? lower]
    congr
    funext d
    by_cases inside : ((base * n + d : Nat) : Int) ≤ w.greatest
    · rw [fit?_of_le (by omega) inside]
      exact ih inside
    · have outside := Int.not_le.mp inside
      rw [fit?_of_lt outside]
      -- Whatever the rest of the digits amounts to lies above the bound as well.
      cases value : Literal.digits? base (base * n + d) rest with
      | none => rfl
      | some v =>
        have larger := Literal.le_of_digits? positive value
        exact (fit?_of_lt (by omega)).symm

/-- A numeral is read within limits as it is without them, where its value fits. -/
theorem numeral?_eq (lower : w.least ≤ 0) (upper : 0 ≤ w.greatest) (positive : 0 < base)
    (digits : List Char) :
    w.numeral? base 1 digits = (Literal.numeral? base digits).bind fun v => w.fit? v := by
  unfold numeral? Literal.numeral?
  split
  · rfl
  · exact digits?_eq lower positive upper digits

end Width

/-! ## The first character -/

namespace Literal

variable {base : Nat} {digits : List Char}

private theorem isSome_digit? (c : Char) : (digit? 10 c).isSome = c.isDigit := by
  rw [Bool.eq_iff_iff, Option.isSome_iff_exists]
  constructor
  · rintro ⟨d, digit⟩
    exact isDigit_of_digit? digit
  · intro decimal
    simp only [Char.isDigit, Bool.and_eq_true, decide_eq_true_eq] at decimal
    have inside : '0' ≤ c ∧ c ≤ '9' := decimal
    have below : c.toNat - 48 < 10 := by
      have upper : c.toNat ≤ 57 := inside.2
      omega
    exact ⟨c.toNat - 48, by simp [digit?, inside, below]⟩

private theorem numeral?_of_not_startsWithDigit (h : startsWithDigit base digits = false) :
    numeral? base digits = none := by
  cases digits with
  | nil => rfl
  | cons c rest =>
    have noDigit : digit? base c = none := by simpa [startsWithDigit] using h
    simp [numeral?, digits?, noDigit]

/-- A digit is no sign, so none is read where the first character is a digit. -/
theorem parse?_of_startsWithDigit (w : Width) (h : startsWithDigit base digits = true) :
    w.parse? base digits = w.numeral? base 1 digits := by
  unfold Width.parse?
  split
  · have noDigit : digit? base '+' = none := rfl
    rw [startsWithDigit, noDigit] at h
    cases h
  · have noDigit : digit? base '-' = none := rfl
    rw [startsWithDigit, noDigit] at h
    cases h
  · rfl

/-- What is read behind a look at the first character is the numeral, where it fits. -/
private theorem guarded_parse?_eq {α : Type} {w : Width} (lower : w.least ≤ 0)
    (upper : 0 ≤ w.greatest)
    (positive : 0 < base) (f : Int → Option α) :
    (if startsWithDigit base digits then (w.parse? base digits).bind f else none) =
      (numeral? base digits).bind fun v => (w.fit? v).bind f := by
  split
  case isTrue digit =>
    rw [parse?_of_startsWithDigit w digit, Width.numeral?_eq lower upper positive,
      Option.bind_assoc]
  case isFalse other =>
    rw [numeral?_of_not_startsWithDigit (by simpa using other)]
    rfl

private theorem word?_eq_fit? (z : Int) : word? z = (Width.signed32.fit? z).map .ofInt := by
  by_cases inside : -2 ^ 31 ≤ z ∧ z ≤ 2 ^ 31 - 1
  · rw [Width.fit?_of_le inside.1 inside.2]
    exact if_pos inside
  · rw [Width.fit?_of_not inside]
    exact if_neg inside

private theorem pattern?_eq_fit? (v : Nat) : pattern? v = (Width.unsigned32.fit? v).map .ofInt := by
  by_cases below : v < UInt32.size
  · have upper : (v : Int) ≤ 2 ^ 32 - 1 := by
      rw [UInt32.size] at below
      omega
    rw [Width.fit?_of_le (Int.natCast_nonneg v) upper, Option.map_some, Int32.ofInt_eq_ofNat]
    exact if_pos below
  · have above : (2 ^ 32 - 1 : Int) < v := by
      rw [UInt32.size] at below
      omega
    rw [Width.fit?_of_lt above]
    exact if_neg below

/-- The magnitude of a word has room in 64 bits, so the wider bound turns no word away. -/
private theorem fit?_bind_signed? {sign : Int} (unit : sign = 1 ∨ sign = -1) (v : Nat) :
    (Width.signed64.fit? v).bind (signed? sign) = word? (sign * v) := by
  rw [word?_eq_fit?]
  by_cases fits : (v : Int) ≤ 2 ^ 63 - 1
  · have lower : (-2 ^ 63 : Int) ≤ v := by omega
    rw [Width.fit?_of_le lower fits]
    rfl
  · -- With either sign, what is too large for 64 bits is too large for 32.
    have outside : ¬ ((-2 ^ 31 : Int) ≤ sign * v ∧ sign * v ≤ 2 ^ 31 - 1) := by
      rcases unit with rfl | rfl
      · omega
      · omega
    rw [Width.fit?_of_lt (Int.not_le.mp fits), Width.fit?_of_not outside]
    rfl

/-- The reader of bit patterns without limits is `Literal.pattern?` behind `Literal.numeral?`. -/
theorem bits?_eq : bits? digits = (numeral? 16 digits).bind pattern? := by
  simp only [bits?, Option.map_eq_bind]
  rw [guarded_parse?_eq (by decide) (by decide) (by decide)]
  simp only [← Option.map_eq_bind, ← pattern?_eq_fit?]

/-- The reader of magnitudes without limits is `Literal.word?` behind `Literal.numeral?`. -/
theorem wide?_eq {sign : Int} (positive : 0 < base) (unit : sign = 1 ∨ sign = -1) :
    wide? base sign digits = (numeral? base digits).bind fun v => word? (sign * v) := by
  rw [wide?, guarded_parse?_eq (by decide) (by decide) positive]
  simp only [fit?_bind_signed? unit]

/-! ## The whole word -/

theorem splitSign_cases (word : List Char) :
    (∃ rest, word = '-' :: rest ∧ splitSign word = (some (-1), rest)) ∨
    (∃ rest, word = '+' :: rest ∧ splitSign word = (some 1, rest)) ∨
    ((∀ rest, word ≠ '-' :: rest) ∧ (∀ rest, word ≠ '+' :: rest) ∧
      splitSign word = (none, word)) := by
  unfold splitSign
  split
  case h_1 rest => exact .inl ⟨rest, rfl, rfl⟩
  case h_2 rest => exact .inr (.inl ⟨rest, rfl, rfl⟩)
  case h_3 minus plus => exact .inr (.inr ⟨minus, plus, rfl⟩)

private theorem afterMark?_cases (word : List Char) :
    (∃ digits, word = '0' :: 'x' :: digits ∧ afterMark? word = some digits) ∨
    (∃ digits, word = '0' :: 'X' :: digits ∧ afterMark? word = some digits) ∨
    ((∀ digits, word ≠ '0' :: 'x' :: digits) ∧ (∀ digits, word ≠ '0' :: 'X' :: digits) ∧
      afterMark? word = none) := by
  unfold afterMark?
  split
  case h_1 digits => exact .inl ⟨digits, rfl, rfl⟩
  case h_2 digits => exact .inr (.inl ⟨digits, rfl, rfl⟩)
  case h_3 small capital => exact .inr (.inr ⟨small, capital, rfl⟩)

private theorem starts_of_bare {word : List Char} (minus : ∀ rest, word ≠ '-' :: rest)
    (plus : ∀ rest, word ≠ '+' :: rest) : starts word = startsWithDigit 10 word := by
  cases word with
  | nil => rfl
  | cons c rest =>
    have noMinus : (c == '-') = false := beq_eq_false_iff_ne.mpr fun h => minus rest (h ▸ rfl)
    have noPlus : (c == '+') = false := beq_eq_false_iff_ne.mpr fun h => plus rest (h ▸ rfl)
    rw [starts, startsWithDigit, noPlus, noMinus, isSome_digit?]
    rfl

end Literal

namespace Token

/-- A word with a sign is a number or nothing, and its magnitude is read with 64 bits. -/
private theorem readLimited?_of_sign {word rest : List Char} {sign : Int}
    (split : Literal.splitSign word = (some sign, rest)) (unit : sign = 1 ∨ sign = -1) :
    readLimited? word =
      ((Literal.magnitude? rest).bind fun v => Literal.word? (sign * v)).map
        fun n => .number n (String.ofList word) := by
  unfold readLimited?
  rw [split]
  rcases Literal.afterMark?_cases rest with ⟨digits, rfl, mark⟩ | ⟨digits, rfl, mark⟩ |
    ⟨small, capital, mark⟩
  · simp only [mark, Literal.wide?_eq (show 0 < 16 by decide) unit, Literal.magnitude?]
  · simp only [mark, Literal.wide?_eq (show 0 < 16 by decide) unit, Literal.magnitude?]
  · rw [Literal.magnitude?]
    · simp only [mark, Literal.wide?_eq (show 0 < 10 by decide) unit]
    · exact small
    · exact capital

/-- Limited integers read the same tokens as numbers of any size: `readLimited?` is `read?` on every
word. -/
theorem readLimited?_eq_read? (word : List Char) : readLimited? word = read? word := by
  rcases Literal.splitSign_cases word with ⟨rest, rfl, split⟩ | ⟨rest, rfl, split⟩ |
    ⟨minus, plus, split⟩
  · rw [readLimited?_of_sign split (.inr rfl)]
    simp [read?, Literal.starts, Literal.read?]
  · rw [readLimited?_of_sign split (.inl rfl)]
    simp [read?, Literal.starts, Literal.read?]
  · -- Without a sign, a mark in front decides between a bit pattern and a decimal numeral.
    unfold readLimited? read?
    rw [split, Literal.starts_of_bare minus plus]
    rcases Literal.afterMark?_cases word with ⟨digits, rfl, mark⟩ | ⟨digits, rfl, mark⟩ |
      ⟨small, capital, mark⟩
    · simp only [mark, Literal.bits?_eq]
      rfl
    · simp only [mark, Literal.bits?_eq]
      rfl
    · rw [Literal.read?]
      · simp only [mark, Literal.wide?_eq (show 0 < 10 by decide) (.inl rfl), Int.one_mul]
        rfl
      · exact minus
      · exact plus
      · exact small
      · exact capital

end Token

end Straightline
