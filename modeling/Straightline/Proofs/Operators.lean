import Straightline.Proofs.Arithmetic
import Straightline.Proofs.Evaluation

/-!
# Operators on a stack

What an operator leaves on a stack that ends in its two operands, told in integers without bounds:

- a sum, a difference or a product leaves the only word congruent to the exact result (`Residue`);
- a division leaves the quotient rounded toward zero, known by its defining equation
  (`IsQuotient`), and traps where there is none or where it is no word (`Divides`);
- a comparison leaves one or zero as the order of the integers says (`Compares`).

The stack below the operands plays no part, and a trap leaves exactly that stack.
-/

namespace Straightline

/-! ## Quotients -/

/-- `q` is the quotient of `a` by `b` rounded toward zero: what remains is smaller than the divisor,
and it is zero or has the sign of `a`. -/
def IsQuotient (a b q : Int) : Prop :=
  ∃ r, a = b * q + r ∧ |r| < |b| ∧ (r = 0 ∨ r.sign = a.sign)

private theorem IsQuotient.ne_zero {a b q : Int} (h : IsQuotient a b q) : b ≠ 0 := by
  rintro rfl
  obtain ⟨r, _, smaller, _⟩ := h
  exact absurd smaller (not_lt.mpr (by simp))

private theorem isQuotient_tdiv {a b : Int} (nonzero : b ≠ 0) : IsQuotient a b (a.tdiv b) := by
  refine ⟨a.tmod b, (Int.mul_tdiv_add_tmod a b).symm, ?_, ?_⟩
  · rw [Int.abs_eq_natAbs, Int.abs_eq_natAbs, Int.natAbs_tmod]
    exact_mod_cast Nat.mod_lt _ (Int.natAbs_pos.mpr nonzero)
  · rw [Int.sign_tmod]
    split
    case isTrue divides => exact .inl (Int.tmod_eq_zero_of_dvd divides)
    case isFalse => exact .inr rfl

private theorem remainder_sign {a r : Int} (h : r = 0 ∨ r.sign = a.sign) :
    (0 ≤ a → 0 ≤ r) ∧ (a ≤ 0 → r ≤ 0) := by
  rcases h with rfl | same
  · exact ⟨fun _ => le_rfl, fun _ => le_rfl⟩
  · have nonneg : 0 ≤ r ↔ 0 ≤ a := by rw [← Int.sign_nonneg_iff, same, Int.sign_nonneg_iff]
    have nonpos : r ≤ 0 ↔ a ≤ 0 := by rw [← Int.sign_nonpos_iff, same, Int.sign_nonpos_iff]
    exact ⟨nonneg.mpr, nonpos.mpr⟩

/-- The defining equation has one solution only. -/
private theorem IsQuotient.eq_tdiv {a b q : Int} (h : IsQuotient a b q) : q = a.tdiv b := by
  have nonzero := h.ne_zero
  obtain ⟨r, whole, smaller, sign⟩ := h
  obtain ⟨nonneg, nonpos⟩ := remainder_sign sign
  rw [← Int.natCast_natAbs b, abs_lt] at smaller
  have sum : r + b * q = a := by rw [whole, add_comm]
  -- The remainder lies on the same side of zero as the dividend.
  rcases le_total 0 a with positive | negative
  · have unique := Int.tdiv_tmod_unique (r := r) (q := q) positive nonzero
    exact (unique.mpr ⟨sum, nonneg positive, smaller.2⟩).1.symm
  · have unique := Int.tdiv_tmod_unique' (r := r) (q := q) negative nonzero
    exact (unique.mpr ⟨sum, smaller.1, nonpos negative⟩).1.symm

/-- The defining equation of a quotient has `Int.tdiv` as its only solution, and none for a divisor
of zero. -/
theorem isQuotient_iff {a b q : Int} : IsQuotient a b q ↔ b ≠ 0 ∧ q = a.tdiv b := by
  constructor
  · intro h
    exact ⟨h.ne_zero, h.eq_tdiv⟩
  · rintro ⟨nonzero, rfl⟩
    exact isQuotient_tdiv nonzero

/-- The three ways a division can go, by its quotient. -/
private theorem exactQuotient_cases (a b : Int) :
    (b = 0 ∧ exactQuotient a b = .error .divisionByZero) ∨
    (∃ q, IsQuotient a b q ∧ Representable q ∧ exactQuotient a b = .ok q) ∨
    (∃ q, IsQuotient a b q ∧ ¬ Representable q ∧
      exactQuotient a b = .error .integerOverflow) := by
  unfold exactQuotient
  by_cases zero : b = 0
  · exact .inl ⟨zero, if_pos zero⟩
  · have quotient := isQuotient_tdiv (a := a) zero
    rw [if_neg zero]
    by_cases fits : Representable (a.tdiv b)
    · exact .inr (.inl ⟨_, quotient, fits, if_pos (representable_iff.mp fits)⟩)
    · exact .inr (.inr ⟨_, quotient, fits, if_neg (mt representable_iff.mpr fits)⟩)

/-- Among words, only the least one divided by minus one has a quotient that is not
`Representable`. -/
theorem overflows_iff (a b : Int32) :
    (∃ q, IsQuotient a.toInt b.toInt q ∧ ¬ Representable q) ↔
      a.toInt = -2 ^ 31 ∧ b.toInt = -1 := by
  have least : a.toInt = -2 ^ 31 ↔ a = Int32.minValue := Int32.toInt_inj (y := Int32.minValue)
  have minusOne : b.toInt = -1 ↔ b = -1 := Int32.toInt_inj (y := -1)
  rw [least, minusOne]
  constructor
  · rintro ⟨q, quotient, outside⟩
    by_contra defined
    apply outside
    rw [quotient.eq_tdiv, ← toInt_div_of_defined defined]
    exact representable_toInt (a / b)
  · rintro ⟨rfl, rfl⟩
    refine ⟨_, isQuotient_tdiv (by decide), ?_⟩
    rw [representable_iff]
    decide

/-! ## One operator -/

namespace Operator

/-- An operator evaluated with the operands `a` and `b` on top of `t`: its result and the stack it
leaves. -/
def on (op : Operator) (t : OperandStack) (a b : Int32) : Except Trap Unit × OperandStack :=
  (Instruction.operator op).eval.outcome ((t.push (.i32 a)).push (.i32 b))

/-- The operator succeeds and leaves `n` on `t`, in the place of its operands. -/
def Leaves (op : Operator) (t : OperandStack) (a b n : Int32) : Prop :=
  op.on t a b = (.ok (), t.push (.i32 n))

variable {op : Operator} {t : OperandStack} {a b : Int32}

/-- All that an operator can do with its operands: it leaves the exact result, or it traps where
that is undefined, and the operands are gone. -/
private theorem on_cases (op : Operator) (t : OperandStack) (a b : Int32) :
    (∃ n : Int32, op.exact a.toInt b.toInt = .ok n.toInt ∧ op.Leaves t a b n) ∨
    (∃ cause, op.exact a.toInt b.toInt = .error cause ∧ op.on t a b = (.error cause, t)) := by
  have exactly := op.toInt_apply a b
  cases result : op.apply a b with
  | ok n =>
    rw [result] at exactly
    exact .inl ⟨n, exactly.symm, Instruction.outcome_operator_of_ok t result⟩
  | error cause =>
    rw [result] at exactly
    exact .inr ⟨cause, exactly.symm, Instruction.outcome_operator_of_error t result⟩

private theorem leaves_of_exact {n : Int32} (h : op.exact a.toInt b.toInt = .ok n.toInt) :
    op.Leaves t a b n := by
  rcases op.on_cases t a b with ⟨m, value, leaves⟩ | ⟨cause, undefined, _⟩
  · rw [h] at value
    obtain rfl : n = m := Int32.toInt_inj.mp (Except.ok.inj value)
    exact leaves
  · rw [h] at undefined
    cases undefined

private theorem on_of_undefined {cause : Trap} (h : op.exact a.toInt b.toInt = .error cause) :
    op.on t a b = (.error cause, t) := by
  rcases op.on_cases t a b with ⟨m, value, _⟩ | ⟨cause', undefined, traps⟩
  · rw [h] at value
    cases value
  · rw [h] at undefined
    cases undefined
    exact traps

/-- An operator leaves one word at most. -/
theorem Leaves.unique {m n : Int32} (hm : op.Leaves t a b m) (hn : op.Leaves t a b n) : m = n := by
  have same : t.push (.i32 m) = t.push (.i32 n) := congrArg Prod.snd (hm.symm.trans hn)
  simpa [OperandStack.push] using same

/-- An operator that reduces an integer to a word leaves the word congruent to that integer. -/
private theorem leaves_residue {z : Int} (h : op.exact a.toInt b.toInt = .ok (wrap z)) :
    ∃ n, op.Leaves t a b n ∧ Residue z n := by
  rcases op.on_cases t a b with ⟨n, value, leaves⟩ | ⟨cause, undefined, _⟩
  · rw [h] at value
    exact ⟨n, leaves, residue_of_toInt (Except.ok.inj value).symm⟩
  · rw [h] at undefined
    cases undefined

/-- A comparison leaves one or zero, as what it compares holds or not. -/
private theorem leaves_truth {p : Prop} [Decidable p]
    (h : op.exact a.toInt b.toInt = .ok (if p then 1 else 0)) :
    op.Leaves t a b (if p then 1 else 0) := by
  apply leaves_of_exact
  rw [h]
  split
  · rfl
  · rfl

end Operator

/-! ## Division -/

/-- What `Operator.div` does with the operands `a` and `b` on top of `t`. -/
structure Divides (t : OperandStack) (a b : Int32) : Prop where
  /-- It divides by zero just when the divisor is zero. -/
  byZero : (Operator.div.on t a b).1 = .error .divisionByZero ↔ b.toInt = 0
  /-- It overflows just when the quotient is no word. -/
  overflow : (Operator.div.on t a b).1 = .error .integerOverflow ↔
    ∃ q, IsQuotient a.toInt b.toInt q ∧ ¬ Representable q
  /-- This happens for one pair of operands. -/
  onlyLeast : (∃ q, IsQuotient a.toInt b.toInt q ∧ ¬ Representable q) ↔
    a.toInt = -2 ^ 31 ∧ b.toInt = -1
  /-- Either trap leaves `t`, and otherwise the one quotient is left on it. -/
  outcome : Operator.div.on t a b = (.error .divisionByZero, t) ∨
    Operator.div.on t a b = (.error .integerOverflow, t) ∨
    ∃ n, Operator.div.Leaves t a b n ∧ ∀ q, IsQuotient a.toInt b.toInt q ↔ q = n.toInt

/-- `Divides` holds of all words on every stack, by the three ways that a division can go. -/
theorem divides (t : OperandStack) (a b : Int32) : Divides t a b := by
  rcases exactQuotient_cases a.toInt b.toInt with ⟨zero, undefined⟩ |
    ⟨q, quotient, fits, value⟩ | ⟨q, quotient, outside, undefined⟩
  · have traps : Operator.div.on t a b = (.error .divisionByZero, t) :=
      Operator.on_of_undefined undefined
    have noQuotient : ¬ ∃ q, IsQuotient a.toInt b.toInt q ∧ ¬ Representable q := by
      rintro ⟨q, quotient, _⟩
      exact quotient.ne_zero zero
    refine ⟨?_, ?_, overflows_iff a b, .inl traps⟩
    · simp [traps, zero]
    · simpa [traps] using noQuotient
  · -- The quotient is a word, so it is the one that the division leaves.
    obtain ⟨n, rfl⟩ := exists_of_representable fits
    have leaves : Operator.div.Leaves t a b n := Operator.leaves_of_exact value
    have only : ∀ q, IsQuotient a.toInt b.toInt q ↔ q = n.toInt := by
      intro q
      rw [isQuotient_iff, ← quotient.eq_tdiv]
      exact and_iff_right quotient.ne_zero
    refine ⟨?_, ?_, overflows_iff a b, .inr (.inr ⟨n, leaves, only⟩)⟩
    · simpa [show Operator.div.on t a b = _ from leaves] using quotient.ne_zero
    · simp [show Operator.div.on t a b = _ from leaves, only, fits]
  · have traps : Operator.div.on t a b = (.error .integerOverflow, t) :=
      Operator.on_of_undefined undefined
    refine ⟨?_, ?_, overflows_iff a b, .inr (.inl traps)⟩
    · simpa [traps] using quotient.ne_zero
    · simpa [traps] using ⟨q, quotient, outside⟩

/-! ## Comparisons -/

/-- What the six comparisons do with the operands `a` and `b` on top of `t`: they leave one or zero,
as the order of the integers says. -/
structure Compares (t : OperandStack) (a b : Int32) : Prop where
  eq : Operator.eq.Leaves t a b (if a.toInt = b.toInt then 1 else 0)
  ne : Operator.ne.Leaves t a b (if a.toInt ≠ b.toInt then 1 else 0)
  lt : Operator.lt.Leaves t a b (if a.toInt < b.toInt then 1 else 0)
  gt : Operator.gt.Leaves t a b (if b.toInt < a.toInt then 1 else 0)
  le : Operator.le.Leaves t a b (if a.toInt ≤ b.toInt then 1 else 0)
  ge : Operator.ge.Leaves t a b (if b.toInt ≤ a.toInt then 1 else 0)

private theorem compares (t : OperandStack) (a b : Int32) : Compares t a b where
  eq := Operator.leaves_truth rfl
  ne := Operator.leaves_truth rfl
  lt := Operator.leaves_truth rfl
  gt := Operator.leaves_truth rfl
  le := Operator.leaves_truth rfl
  ge := Operator.leaves_truth rfl

/-- A comparison leaves one just when what it compares holds. -/
private theorem Operator.Leaves.one_iff {op : Operator} {t : OperandStack} {a b : Int32} {p : Prop}
    [Decidable p] (h : op.Leaves t a b (if p then 1 else 0)) : op.Leaves t a b 1 ↔ p := by
  constructor
  · intro one
    by_contra fails
    rw [if_neg fails] at h
    exact absurd (one.unique h) (by decide)
  · intro holds
    rwa [if_pos holds] at h

namespace Compares

variable {t : OperandStack} {a b : Int32}

private theorem mem_and_one_iff (h : Compares t a b) (op : Operator) :
    op ∈ [Operator.lt, .eq, .gt] ∧ op.Leaves t a b 1 ↔
      (op = .lt ∧ a.toInt < b.toInt) ∨ (op = .eq ∧ a.toInt = b.toInt) ∨
        (op = .gt ∧ b.toInt < a.toInt) := by
  rw [← h.lt.one_iff, ← h.eq.one_iff, ← h.gt.one_iff]
  simp only [List.mem_cons, List.not_mem_nil, or_false, or_and_right]
  refine or_congr (and_congr_right ?_) (or_congr (and_congr_right ?_) (and_congr_right ?_))
  · rintro rfl
    rfl
  · rintro rfl
    rfl
  · rintro rfl
    rfl

/-- Two words are in exactly one of the three orders. -/
private theorem existsUnique_one (h : Compares t a b) :
    ∃! op, op ∈ [Operator.lt, .eq, .gt] ∧ op.Leaves t a b 1 := by
  simp only [h.mem_and_one_iff]
  rcases lt_trichotomy a.toInt b.toInt with less | same | greater
  · refine ⟨.lt, .inl ⟨rfl, less⟩, ?_⟩
    rintro op (⟨rfl, _⟩ | ⟨_, same⟩ | ⟨_, greater⟩)
    · rfl
    · exact absurd same less.ne
    · exact absurd greater less.asymm
  · refine ⟨.eq, .inr (.inl ⟨rfl, same⟩), ?_⟩
    rintro op (⟨_, less⟩ | ⟨rfl, _⟩ | ⟨_, greater⟩)
    · exact absurd same less.ne
    · rfl
    · exact absurd same greater.ne'
  · refine ⟨.gt, .inr (.inr ⟨rfl, greater⟩), ?_⟩
    rintro op (⟨_, less⟩ | ⟨_, same⟩ | ⟨rfl, _⟩)
    · exact absurd less greater.asymm
    · exact absurd same greater.ne'
    · rfl

private theorem le_one_iff (h : Compares t a b) :
    Operator.le.Leaves t a b 1 ↔ Operator.lt.Leaves t a b 1 ∨ Operator.eq.Leaves t a b 1 := by
  rw [h.le.one_iff, h.lt.one_iff, h.eq.one_iff]
  exact le_iff_lt_or_eq

private theorem ge_one_iff (h : Compares t a b) :
    Operator.ge.Leaves t a b 1 ↔ Operator.gt.Leaves t a b 1 ∨ Operator.eq.Leaves t a b 1 := by
  rw [h.ge.one_iff, h.gt.one_iff, h.eq.one_iff, eq_comm (a := a.toInt)]
  exact le_iff_lt_or_eq

private theorem exists_eq_ne (h : Compares t a b) :
    ∃ n, Operator.eq.Leaves t a b n ∧ Operator.ne.Leaves t a b (1 - n) := by
  refine ⟨_, h.eq, ?_⟩
  have opposite : (1 - if a.toInt = b.toInt then 1 else 0 : Int32) =
      if a.toInt ≠ b.toInt then 1 else 0 := by
    by_cases same : a.toInt = b.toInt
    · simp [same]
    · simp [same]
  rw [opposite]
  exact h.ne

end Compares

/-! ## All operators -/

/-- The operators agree with the integers, whatever the two operands and the stack below them.

- Sums, differences and products leave the only word congruent to the exact result (`Residue`).
- A division leaves the quotient rounded toward zero or traps, as `Divides` tells.
- The comparisons follow the order of the integers, as `Compares` tells. So exactly one of less,
  equal and greater holds, the other three come from these, and exchanging the operands turns an
  order around. -/
theorem operators_exact (t : OperandStack) (a b : Int32) :
    ((∃ n, Operator.add.Leaves t a b n ∧ Residue (a.toInt + b.toInt) n) ∧
      (∃ n, Operator.sub.Leaves t a b n ∧ Residue (a.toInt - b.toInt) n) ∧
      (∃ n, Operator.mul.Leaves t a b n ∧ Residue (a.toInt * b.toInt) n)) ∧
    Divides t a b ∧
    Compares t a b ∧
    ((∃! op, op ∈ [Operator.lt, .eq, .gt] ∧ op.Leaves t a b 1) ∧
      (Operator.le.Leaves t a b 1 ↔
        Operator.lt.Leaves t a b 1 ∨ Operator.eq.Leaves t a b 1) ∧
      (Operator.ge.Leaves t a b 1 ↔
        Operator.gt.Leaves t a b 1 ∨ Operator.eq.Leaves t a b 1) ∧
      (∃ n, Operator.eq.Leaves t a b n ∧ Operator.ne.Leaves t a b (1 - n))) ∧
    (Operator.lt.on t a b = Operator.gt.on t b a ∧ Operator.gt.on t a b = Operator.lt.on t b a ∧
      Operator.le.on t a b = Operator.ge.on t b a ∧
      Operator.ge.on t a b = Operator.le.on t b a) := by
  have comparisons := compares t a b
  have exchanged := compares t b a
  refine ⟨⟨?_, ?_, ?_⟩, divides t a b, comparisons, ⟨?_, ?_, ?_, ?_⟩, ?_, ?_, ?_, ?_⟩
  · exact Operator.leaves_residue rfl
  · exact Operator.leaves_residue rfl
  · exact Operator.leaves_residue rfl
  · exact comparisons.existsUnique_one
  · exact comparisons.le_one_iff
  · exact comparisons.ge_one_iff
  · exact comparisons.exists_eq_ne
  · exact comparisons.lt.trans exchanged.gt.symm
  · exact comparisons.gt.trans exchanged.lt.symm
  · exact comparisons.le.trans exchanged.ge.symm
  · exact comparisons.ge.trans exchanged.le.symm

end Straightline
