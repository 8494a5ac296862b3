import Straightline.Proofs.Depth

/-!
# Where and why a program traps

A trap can be told from the program and the stack in front of the instruction that traps, without
running that instruction: it takes more operands than there are, or it is a division of certain
words (`Instruction.Blocked`). The run of a program ends at the first instruction that is blocked on
the stack the instructions before it leave, and blames that instruction and its cause
(`Program.run_eq_trap_iff`). There is no other way to fail.
-/

namespace Straightline

/-! ## One instruction -/

/-- The stack has the operands `a` and `b` on top, `b` above `a`. -/
def OperandStack.EndsIn (s : OperandStack) (a b : Int32) : Prop :=
  ∃ below, s.toList = below ++ [.i32 a, .i32 b]

private theorem OperandStack.endsIn_iff {s : OperandStack} {a b : Int32} :
    s.EndsIn a b ↔ ∃ t : OperandStack, s = (t.push (.i32 a)).push (.i32 b) := by
  constructor
  · rintro ⟨below, top⟩
    refine ⟨.ofList below, ?_⟩
    rw [← s.ofList_toList, top]
    simp [ofList, push]
  · rintro ⟨t, rfl⟩
    exact ⟨t.toList, by simp⟩

namespace Instruction

/-- Why an instruction cannot be carried out on a stack: it takes more operands than there are
(`Opcode.need`), or it divides by zero, or it divides the least word by minus one. -/
def Blocked (i : Instruction) (s : OperandStack) (cause : Trap) : Prop :=
  (cause = .stackUnderflow ∧ s.size < i.opcode.need) ∨
  (i = .operator .div ∧ ∃ a b, s.EndsIn a b ∧
    (cause = .divisionByZero ∧ b = 0 ∨
      cause = .integerOverflow ∧ a = Int32.minValue ∧ b = -1))

private theorem not_blocked {i : Instruction} {s : OperandStack} {cause : Trap}
    (enough : i.opcode.need ≤ s.size) (other : i ≠ .operator .div) : ¬ i.Blocked s cause := by
  rintro (⟨_, short⟩ | ⟨division, _⟩)
  · exact absurd short (Nat.not_lt.mpr enough)
  · exact other division

/-- There is no operand of a wrong type, so this is never the cause. -/
private theorem not_blocked_mismatch {i : Instruction} {s : OperandStack} {expected : ValueType}
    {found : Value} : ¬ i.Blocked s (.typeMismatch expected found) := by
  rintro (⟨cause, _⟩ | ⟨_, a, b, _, ⟨cause, _⟩ | ⟨cause, _⟩⟩)
  · cases cause
  · cases cause
  · cases cause

/-- With less than two operands there is no pair on top, so underflow is the only cause. -/
theorem underflow_iff_blocked {i : Instruction} {s : OperandStack} {cause : Trap}
    (single : s.size < 2) (short : s.size < i.opcode.need) :
    (Except.error .stackUnderflow : Except Trap Unit) = .error cause ↔ i.Blocked s cause := by
  constructor
  · intro underflow
    exact .inl ⟨(Except.error.inj underflow).symm, short⟩
  · rintro (⟨rfl, _⟩ | ⟨_, a, b, top, _⟩)
    · rfl
    · obtain ⟨t, rfl⟩ := OperandStack.endsIn_iff.mp top
      exact absurd single (by simp)

/-- An operator with both operands on the stack is blocked where its result is undefined. -/
private theorem blocked_operator_iff {op : Operator} {t : OperandStack} {a b : Int32}
    {cause : Trap} :
    (operator op).Blocked ((t.push (.i32 a)).push (.i32 b)) cause ↔
      op.apply a b = .error cause := by
  rw [Operator.apply_eq_error_iff]
  constructor
  · rintro (⟨_, short⟩ | ⟨division, x, y, top, operands⟩)
    · exact absurd short (by simp [opcode, Opcode.need])
    · obtain ⟨t', same⟩ := OperandStack.endsIn_iff.mp top
      simp only [OperandStack.push, OperandStack.mk.injEq, List.cons.injEq, Value.i32.injEq] at same
      obtain ⟨rfl, rfl, _⟩ := same
      exact ⟨by simpa using division, operands⟩
  · rintro ⟨rfl, operands⟩
    exact .inr ⟨rfl, a, b, OperandStack.endsIn_iff.mpr ⟨t, rfl⟩, operands⟩

/-- An instruction traps exactly when it is `Blocked`, and for that cause. -/
theorem result_eq_error_iff (i : Instruction) (s : OperandStack) (cause : Trap) :
    (i.eval.outcome s).1 = .error cause ↔ i.Blocked s cause := by
  cases i with
  | nop =>
    rw [outcome_nop]
    exact iff_of_false nofun (not_blocked (Nat.zero_le _) nofun)
  | const n =>
    rw [outcome_const]
    exact iff_of_false nofun (not_blocked (Nat.zero_le _) nofun)
  | drop =>
    rcases s.eq_empty_or_push with rfl | ⟨n, t, rfl⟩
    · rw [outcome_drop_empty]
      exact underflow_iff_blocked (by decide) (by decide)
    · rw [outcome_drop_push]
      exact iff_of_false nofun (not_blocked (Nat.succ_pos _) nofun)
  | operator op =>
    rcases s.eq_empty_or_push with rfl | ⟨b, t, rfl⟩
    · rw [outcome_operator_empty]
      exact underflow_iff_blocked (by decide) (Nat.succ_pos 1)
    rcases t.eq_empty_or_push with rfl | ⟨a, t, rfl⟩
    · rw [outcome_operator_single]
      exact underflow_iff_blocked (Nat.lt_succ_self 1) (Nat.lt_succ_self 1)
    -- Both operands are there, so it is up to the operator.
    rw [blocked_operator_iff]
    cases result : op.apply a b with
    | ok n =>
      rw [outcome_operator_of_ok t result]
      exact iff_of_false nofun nofun
    | error found =>
      rw [outcome_operator_of_error t result]
      simp

end Instruction

/-! ## Batch runs -/

section Batch

variable {σ : Type} [OperandStore σ]

/-- All that `runAll` can do: it succeeds, or some instruction traps on the state that the
instructions in front of it leave. The induction is on the instructions, in any operand store. -/
theorem runAll_cases (is : List Instruction) (s : σ) :
    (∃ t, runAll is s = (.ok (), t)) ∨
    (∃ k i cause u t, is[k]? = some i ∧ runAll (is.take k) s = (.ok (), u) ∧
      i.eval.outcome u = (.error cause, t) ∧
      runAll is s = (.error (.trap k i.opcode cause), t)) := by
  -- A trap of the rest is a trap of the whole, one place further on.
  induction is generalizing s with
  | nil => exact .inl ⟨s, rfl⟩
  | cons i is ih =>
    rcases outcome : i.eval.outcome s with ⟨cause | _, u⟩
    · exact .inr ⟨0, i, cause, s, u, rfl, rfl, outcome, runAll_cons_trap outcome is⟩
    · rcases ih u with ⟨t, succeeds⟩ | ⟨k, j, cause, v, t, found, before, traps, fails⟩
      · refine .inl ⟨t, ?_⟩
        rw [runAll_cons_ok outcome, succeeds]
        rfl
      · refine .inr ⟨k + 1, j, cause, v, t, found, ?_, traps, ?_⟩
        · rw [List.take_succ_cons, runAll_cons_ok outcome, before]
          rfl
        · rw [runAll_cons_ok outcome, fails, Nat.add_comm k]
          rfl

/-- An instruction that traps behind instructions that succeed ends the run. -/
private theorem runAll_of_trap {is : List Instruction} {k : Nat} {i : Instruction} {cause : Trap}
    {s u t : σ} (found : is[k]? = some i) (before : runAll (is.take k) s = (.ok (), u))
    (traps : i.eval.outcome u = (.error cause, t)) :
    runAll is s = (.error (.trap k i.opcode cause), t) := by
  obtain ⟨inside, there⟩ := List.getElem?_eq_some_iff.mp found
  have length : (is.take k).length = k := List.length_take_of_le (Nat.le_of_lt inside)
  have split := List.take_append_drop k is
  rw [List.drop_eq_getElem_cons inside, there] at split
  rw [← split, runAll_append_of_ok before, runAll_cons_trap traps, length]
  rfl

end Batch

/-! ## Whole programs -/

namespace Program

variable {p : Program}

/-- A run that succeeds, as a batch run on an empty stack. -/
theorem run_eq_ok_iff {s : OperandStack} : p.run = .ok s ↔ runAll p.toList {} = (.ok (), s) := by
  rw [run_eq_runAll, map_eq_ok_iff, Prod.ext_iff]
  constructor
  · rintro ⟨_, ok, rfl⟩
    exact ⟨ok, rfl⟩
  · rintro ⟨ok, rfl⟩
    exact ⟨(), ok, rfl⟩

/-- A run that fails, as a batch run on an empty stack. -/
theorem run_eq_error_iff {f : Fault} :
    p.run = .error f ↔ (runAll p.toList ({} : OperandStack)).1 = .error f := by
  rw [run_eq_runAll, map_eq_error_iff]

private theorem run_cases (p : Program) :
    (∃ s, p.run = .ok s) ∨ ∃ k op cause, p.run = .error (.trap k op cause) := by
  rcases runAll_cases p.toList ({} : OperandStack) with ⟨t, succeeds⟩ |
    ⟨k, i, cause, _, t, _, _, _, fails⟩
  · exact .inl ⟨t, run_eq_ok_iff.mpr succeeds⟩
  · exact .inr ⟨k, i.opcode, cause, run_eq_error_iff.mpr (congrArg Prod.fst fails)⟩

/-- The instructions in front of number `k` succeed, and on the stack they leave, instruction number
`k` with the given mnemonic is `Blocked`. -/
def BlockedAt (p : Program) (k : Nat) (mnemonic : String) (cause : Trap) : Prop :=
  ∃ i s, p.get? k = some i ∧ (ofList (p.toList.take k)).run = .ok s ∧ mnemonic = i.mnemonic ∧
    i.Blocked s cause

/-- A run traps at an instruction exactly if the program is `BlockedAt` that place for that
cause. -/
theorem run_eq_trap_iff {k : Nat} {op : Opcode} {cause : Trap} :
    p.run = .error (.trap k op cause) ↔ p.BlockedAt k op.mnemonic cause := by
  rw [run_eq_error_iff]
  constructor
  · intro failed
    rcases runAll_cases p.toList ({} : OperandStack) with ⟨t, succeeds⟩ |
      ⟨k', i, cause', u, t, found, before, traps, fails⟩
    · rw [succeeds] at failed
      cases failed
    · rw [fails] at failed
      cases failed
      refine ⟨i, u, ?_, run_eq_ok_iff.mpr before, rfl, ?_⟩
      · rw [get?_eq, found]
      · rw [← i.result_eq_error_iff, traps]
  · rintro ⟨i, s, found, before, named, blocked⟩
    obtain rfl : op = i.opcode := Opcode.mnemonic_injective named
    rw [get?_eq] at found
    rw [← i.result_eq_error_iff] at blocked
    rw [runAll_of_trap found (run_eq_ok_iff.mp before) (Prod.ext blocked rfl)]

/-- The run of a program blames the right instruction for the right cause.

- The counter never leaves the program, and no operand ever has a wrong type.
- A trap is reported at an index exactly when the program is `BlockedAt` that index: the
  instructions before it succeed and the instruction there, which is the one named, takes more
  operands than there are on the stack they leave, or it is a division by zero, or it divides the
  least word by minus one.
- The run succeeds exactly when no instruction is blocked in this way. -/
theorem run_blames_blocked (p : Program) :
    (∀ counter size, p.run ≠ .error (.outOfRange counter size)) ∧
    (∀ k op expected found, p.run ≠ .error (.trap k op (.typeMismatch expected found))) ∧
    (∀ k op cause, p.run = .error (.trap k op cause) ↔ p.BlockedAt k op.mnemonic cause) ∧
    ((∃ s, p.run = .ok s) ↔ ∀ k mnemonic cause, ¬ p.BlockedAt k mnemonic cause) := by
  refine ⟨?_, ?_, fun k op cause => run_eq_trap_iff, ?_⟩
  · intro counter size failed
    rcases p.run_cases with ⟨s, ok⟩ | ⟨k, op, cause, trapped⟩
    · cases failed.symm.trans ok
    · cases failed.symm.trans trapped
  · intro k op expected found failed
    obtain ⟨i, s, _, _, _, blocked⟩ := run_eq_trap_iff.mp failed
    exact Instruction.not_blocked_mismatch blocked
  · constructor
    · rintro ⟨s, ok⟩ k mnemonic cause ⟨i, t, found, before, rfl, blocked⟩
      have trapped : p.run = .error (.trap k i.opcode cause) :=
        run_eq_trap_iff.mpr ⟨i, t, found, before, rfl, blocked⟩
      cases ok.symm.trans trapped
    · intro free
      rcases p.run_cases with ok | ⟨k, op, cause, trapped⟩
      · exact ok
      · exact absurd (run_eq_trap_iff.mp trapped) (free k op.mnemonic cause)

end Program

end Straightline
