import Mathlib.Data.Int.ModEq
import Straightline.Evaluation

/-!
# Words and integers

The operators on words against the integers they stand for. `Operator.exact` gives an operator its
meaning on integers: sums, differences and products are reduced to the signed range of 32 bits,
comparisons follow the order of the integers, and a quotient is exact or undefined. The operators on
words compute exactly this (`Operator.toInt_apply`), so only a division can be undefined
(`Operator.eq_div_of_apply_error`). Reduction finds the only word that is congruent to an integer
(`residue_of_toInt`).
-/

namespace Straightline

/-! ## The meaning on integers -/

/-- The integer of the signed range of 32 bits that is congruent to `z` modulo two to the power 32
(`modEq_iff_eq_wrap`). -/
def wrap (z : Int) : Int := z.bmod UInt32.size

/-- The quotient of integers rounded toward zero (`Int.tdiv`), undefined for the divisor zero and
where the quotient leaves the signed range of 32 bits. -/
def exactQuotient (a b : Int) : Except Trap Int :=
  if b = 0 then .error .divisionByZero
  else if Int32.minValue.toInt ≤ a.tdiv b ∧ a.tdiv b ≤ Int32.maxValue.toInt then .ok (a.tdiv b)
  else .error .integerOverflow

theorem cause_of_exactQuotient {a b : Int} {cause : Trap}
    (h : exactQuotient a b = .error cause) :
    cause = .divisionByZero ∨ cause = .integerOverflow := by
  unfold exactQuotient at h
  split at h
  · cases h
    exact .inl rfl
  · split at h
    · cases h
    · cases h
      exact .inr rfl

namespace Operator

/-- The meaning of an operator on the integers its operands stand for. Comparisons give one or zero,
sums, differences and products are reduced by `wrap`, and a division is an `exactQuotient`. -/
def exact : Operator → Int → Int → Except Trap Int
  | .eq, a, b => .ok (if a = b then 1 else 0)
  | .ne, a, b => .ok (if a ≠ b then 1 else 0)
  | .lt, a, b => .ok (if a < b then 1 else 0)
  | .gt, a, b => .ok (if b < a then 1 else 0)
  | .le, a, b => .ok (if a ≤ b then 1 else 0)
  | .ge, a, b => .ok (if b ≤ a then 1 else 0)
  | .add, a, b => .ok (wrap (a + b))
  | .sub, a, b => .ok (wrap (a - b))
  | .mul, a, b => .ok (wrap (a * b))
  | .div, a, b => exactQuotient a b

end Operator

/-! ## Words compute the meaning -/

/-- A comparison leaves one where the integers compare in the same way, and zero where not. Each of
the six comparisons is a case of this. -/
private theorem toInt_test {b : Bool} {p : Prop} [Decidable p] (h : b = true ↔ p) :
    (Except.ok (wordOfBool b) : Except Trap Int32).map Int32.toInt =
      .ok (if p then 1 else 0) := by
  by_cases holds : p
  · rw [h.mpr holds, if_pos holds]
    rfl
  · rw [Bool.eq_false_iff.mpr (mt h.mp holds), if_neg holds]
    rfl

/-- Division of words is `Int.tdiv` on their integers, but for the least word divided by minus one,
the only quotient that leaves the signed range. -/
theorem toInt_div_of_defined {a b : Int32} (defined : ¬ (a = Int32.minValue ∧ b = -1)) :
    (a / b).toInt = a.toInt.tdiv b.toInt := by
  by_cases least : a = Int32.minValue
  · exact Int32.toInt_div_of_ne_right a b fun minusOne => defined ⟨least, minusOne⟩
  · exact Int32.toInt_div_of_ne_left a b least

/-- `quotient` on words is `exactQuotient` on their integers, in its values and in its traps. -/
theorem toInt_quotient (a b : Int32) :
    (quotient a b).map Int32.toInt = exactQuotient a.toInt b.toInt := by
  have zero : b.toInt = 0 ↔ b = 0 := by
    rw [← Int32.toInt_zero, Int32.toInt_inj]
  unfold quotient exactQuotient
  by_cases divisor : b = 0
  · simp [divisor, Except.map]
  · by_cases overflow : a = Int32.minValue ∧ b = -1
    · -- The exact quotient is two to the power 31, one too large.
      obtain ⟨rfl, rfl⟩ := overflow
      rfl
    · have value := toInt_div_of_defined overflow
      have inside : Int32.minValue.toInt ≤ a.toInt.tdiv b.toInt ∧
          a.toInt.tdiv b.toInt ≤ Int32.maxValue.toInt := by
        rw [← value]
        exact ⟨(a / b).minValue_le_toInt, (a / b).toInt_le⟩
      rw [if_neg divisor, if_neg overflow, if_neg (mt zero.mp divisor), if_pos inside]
      exact congrArg Except.ok value

namespace Operator

/-- `Operator.apply` on words computes `Operator.exact` on their integers: where that is defined,
the result is the word that stands for it, and where it is not, the operator traps for the same
cause. -/
theorem toInt_apply (op : Operator) (a b : Int32) :
    (op.apply a b).map Int32.toInt = op.exact a.toInt b.toInt := by
  cases op with
  | div => exact toInt_quotient a b
  | add => exact congrArg Except.ok (Int32.toInt_add a b)
  | sub => exact congrArg Except.ok (Int32.toInt_sub a b)
  | mul => exact congrArg Except.ok (Int32.toInt_mul a b)
  | eq => exact toInt_test (beq_iff_eq.trans Int32.toInt_inj.symm)
  | ne => exact toInt_test (bne_iff_ne.trans (not_congr Int32.toInt_inj.symm))
  | lt | gt => exact toInt_test (decide_eq_true_iff.trans Int32.lt_iff_toInt_lt)
  | le | ge => exact toInt_test (decide_eq_true_iff.trans Int32.le_iff_toInt_le)

/-- `Operator.apply` traps in two cases only: on a division by zero, and on the division of the
least word by minus one. -/
theorem apply_eq_error_iff {op : Operator} {a b : Int32} {cause : Trap} :
    op.apply a b = .error cause ↔
      op = .div ∧ (cause = .divisionByZero ∧ b = 0 ∨
        cause = .integerOverflow ∧ a = Int32.minValue ∧ b = -1) := by
  cases op with
  | div =>
    show quotient a b = .error cause ↔ _
    unfold quotient
    split
    case isTrue zero =>
      subst zero
      simp [eq_comm]
    case isFalse nonzero =>
      split
      case isTrue overflow => simp [overflow, eq_comm]
      case isFalse defined => simp [nonzero, defined]
  -- Every other operator has a result on all words.
  | eq | ne | lt | gt | le | ge | add | sub | mul => simp [apply, meaning]

/-- Only a division can be undefined, and then for one of two causes. -/
theorem eq_div_of_apply_error {op : Operator} {a b : Int32} {cause : Trap}
    (h : op.apply a b = .error cause) :
    op = .div ∧ (cause = .divisionByZero ∨ cause = .integerOverflow) := by
  obtain ⟨division, ⟨zero, _⟩ | ⟨overflow, _⟩⟩ := apply_eq_error_iff.mp h
  · exact ⟨division, .inl zero⟩
  · exact ⟨division, .inr overflow⟩

end Operator

/-! ## Words among the integers -/

/-- An integer in the signed range of 32 bits, that is, one that some word stands for
(`exists_of_representable`). -/
def Representable (z : Int) : Prop := -2 ^ 31 ≤ z ∧ z < 2 ^ 31

instance (z : Int) : Decidable (Representable z) :=
  inferInstanceAs (Decidable (-2 ^ 31 ≤ z ∧ z < 2 ^ 31))

/-- `n` is the only word congruent to `z` modulo two to the power 32. -/
def Residue (z : Int) (n : Int32) : Prop :=
  ∀ m : Int32, m.toInt ≡ z [ZMOD 2 ^ 32] ↔ m = n

theorem representable_iff {z : Int} :
    Representable z ↔ Int32.minValue.toInt ≤ z ∧ z ≤ Int32.maxValue.toInt := by
  have least : Int32.minValue.toInt = -2 ^ 31 := rfl
  have greatest : Int32.maxValue.toInt = 2 ^ 31 - 1 := rfl
  rw [Representable, least, greatest, Int.le_sub_one_iff]

theorem representable_toInt (n : Int32) : Representable n.toInt :=
  ⟨n.le_toInt, n.toInt_lt⟩

theorem exists_of_representable {z : Int} (h : Representable z) : ∃ n : Int32, n.toInt = z :=
  ⟨.ofInt z, Int32.toInt_ofInt_of_le h.1 h.2⟩

/-- Among the integers of words, congruence to `z` modulo two to the power 32 singles out
`wrap z`. -/
private theorem modEq_iff_eq_wrap {n : Int32} {z : Int} :
    n.toInt ≡ z [ZMOD 2 ^ 32] ↔ n.toInt = wrap z := by
  have bounds := representable_toInt n
  have reduced : wrap z = n.toInt ↔
      -((UInt32.size : Int) / 2) ≤ n.toInt ∧ n.toInt < ((UInt32.size : Int) + 1) / 2 ∧
        (UInt32.size : Int) ∣ n.toInt - z := Int.bmod_eq_iff (by decide)
  rw [eq_comm (a := n.toInt), reduced, Int.modEq_comm, Int.modEq_iff_dvd]
  constructor
  · intro congruent
    exact ⟨bounds.1, bounds.2, congruent⟩
  · intro inside
    exact inside.2.2

theorem residue_of_toInt {n : Int32} {z : Int} (h : n.toInt = wrap z) : Residue z n := by
  intro m
  rw [modEq_iff_eq_wrap, ← h, Int32.toInt_inj]

end Straightline
