import Straightline.Proofs.Arithmetic
import Straightline.Proofs.Refinement
import Straightline.Proofs.Evaluation

/-!
# Depths foretell underflow

Each opcode takes a fixed number of operands and changes the depth of the stack by a fixed amount.
So the depth in front of every instruction of a batch can be computed beforehand from the depth of
the first stack (`depthAt`), without looking at a single operand. A run obeys this forecast
(`foretold_runAll`): it underflows at the first instruction that is starved by it, unless a division
is undefined before that, and leaves a stack of the depth foretold.
-/

namespace Straightline

namespace Opcode

/-- How many operands an opcode takes off the stack. -/
def need : Opcode → Nat
  | .nop => 0
  | .drop => 1
  | .const => 0
  | .operator _ => 2

/-- By how much an opcode changes the depth of the stack, if it succeeds. -/
def effect : Opcode → Int
  | .nop => 0
  | .drop => -1
  | .const => 1
  | .operator _ => -1

end Opcode

/-! ## The forecast -/

/-- The depth in front of opcode number `k`: the depth `d` in front of the first one and the
`Opcode.effect` of all opcodes up to there. It is an integer, since it goes on below zero where the
run would have underflowed. -/
def depthAt (d : Int) (ops : List Opcode) (k : Nat) : Int :=
  (ops.take k).foldl (fun depth op => depth + op.effect) d

/-- There is an opcode number `k`, and it finds fewer operands than its `Opcode.need`. -/
def Starved (d : Int) (ops : List Opcode) (k : Nat) : Prop :=
  ∃ op, ops[k]? = some op ∧ depthAt d ops k < op.need

/-- Each of the first `n` opcodes finds the operands it takes. -/
def Supplied (d : Int) (ops : List Opcode) (n : Nat) : Prop :=
  ∀ j < n, ∀ op, ops[j]? = some op → (op.need : Int) ≤ depthAt d ops j

section Forecast

variable {d : Int} {op : Opcode} {ops : List Opcode} {j k n : Nat}

@[simp]
private theorem depthAt_zero (d : Int) (ops : List Opcode) : depthAt d ops 0 = d := by
  simp [depthAt]

@[simp]
private theorem depthAt_succ (d : Int) (op : Opcode) (ops : List Opcode) (k : Nat) :
    depthAt d (op :: ops) (k + 1) = depthAt (d + op.effect) ops k := by
  simp [depthAt]

private theorem supplied_zero : Supplied d ops 0 := by
  intro j hj
  exact absurd hj (Nat.not_lt_zero j)

private theorem supplied_succ :
    Supplied d (op :: ops) (n + 1) ↔ (op.need : Int) ≤ d ∧ Supplied (d + op.effect) ops n := by
  constructor
  · intro h
    refine ⟨by simpa using h 0 (Nat.succ_pos n) op rfl, ?_⟩
    intro j hj op' found
    simpa using h (j + 1) (Nat.succ_lt_succ hj) op' (by simpa using found)
  · rintro ⟨head, tail⟩ j hj op' found
    cases j with
    | zero =>
      cases found
      simpa using head
    | succ j =>
      rw [depthAt_succ]
      exact tail j (Nat.lt_of_succ_lt_succ hj) op' (by simpa using found)

/-- `Supplied` says that none of the first opcodes is `Starved`. -/
theorem supplied_iff : Supplied d ops n ↔ ∀ j < n, ¬ Starved d ops j := by
  simp [Supplied, Starved]

private theorem Supplied.not_starved (h : Supplied d ops n) (below : k < n) : ¬ Starved d ops k :=
  supplied_iff.mp h k below

theorem Starved.lt_length (h : Starved d ops k) : k < ops.length := by
  obtain ⟨op, found, _⟩ := h
  exact (List.getElem?_eq_some_iff.mp found).1

/-- Two opcodes that are each the first to be starved are the same one. -/
private theorem first_starved_unique (hj : Starved d ops j) (beforeJ : Supplied d ops j)
    (hk : Starved d ops k) (beforeK : Supplied d ops k) : j = k := by
  rcases Nat.lt_trichotomy j k with less | same | more
  · exact absurd hj (beforeK.not_starved less)
  · exact same
  · exact absurd hk (beforeJ.not_starved more)

end Forecast

/-! ## One instruction -/

/-- All that an instruction can do to a plain stack, as far as depths go: it succeeds and has its
`Opcode.effect`, or it finds fewer operands than its `Opcode.need` and leaves nothing, or it is an
undefined division and leaves what was below its operands. -/
theorem Instruction.outcome_cases (i : Instruction) (s : OperandStack) :
    (∃ t, i.eval.outcome s = (.ok (), t) ∧ i.opcode.need ≤ s.size ∧
      (t.size : Int) = s.size + i.opcode.effect) ∨
    (i.eval.outcome s = (.error .stackUnderflow, {}) ∧ s.size < i.opcode.need) ∨
    (∃ cause t, i.eval.outcome s = (.error cause, t) ∧ i = .operator .div ∧
      (cause = .divisionByZero ∨ cause = .integerOverflow) ∧ s.size = t.size + 2) := by
  cases i with
  | nop => exact .inl ⟨s, outcome_nop s, Nat.zero_le _, by simp [opcode, Opcode.effect]⟩
  | const n => exact .inl ⟨_, outcome_const s n, Nat.zero_le _, by simp [opcode, Opcode.effect]⟩
  | drop =>
    rcases s.eq_empty_or_push with rfl | ⟨n, t, rfl⟩
    · exact .inr (.inl ⟨outcome_drop_empty, by simp [opcode, Opcode.need]⟩)
    · refine .inl ⟨t, outcome_drop_push t _, by simp [opcode, Opcode.need], ?_⟩
      simp only [OperandStack.size_push, opcode, Opcode.effect]
      omega
  | operator op =>
    rcases s.eq_empty_or_push with rfl | ⟨b, t, rfl⟩
    · exact .inr (.inl ⟨outcome_operator_empty op, by simp [opcode, Opcode.need]⟩)
    rcases t.eq_empty_or_push with rfl | ⟨a, t, rfl⟩
    · exact .inr (.inl ⟨outcome_operator_single op b, by simp [opcode, Opcode.need]⟩)
    -- Both operands are there, so what happens is up to the operator.
    cases result : op.apply a b with
    | ok n =>
      refine .inl ⟨_, outcome_operator_of_ok t result, by simp [opcode, Opcode.need], ?_⟩
      simp only [OperandStack.size_push, opcode, Opcode.effect]
      omega
    | error cause =>
      obtain ⟨rfl, known⟩ := Operator.eq_div_of_apply_error result
      exact .inr (.inr ⟨cause, t, outcome_operator_of_error t result, rfl, known, rfl⟩)

/-! ## Whole runs -/

/-- How a run can end on a stack of depth `d`, told by the forecast: with all opcodes supplied and
the depth foretold, with an underflow at an opcode that is the first to be starved, or with a
division that has its operands. -/
inductive Foretold (d : Int) (ops : List Opcode) : Except Fault Unit × OperandStack → Prop where
  | finished {s : OperandStack} (supplied : Supplied d ops ops.length)
      (size : (s.size : Int) = depthAt d ops ops.length) :
      Foretold d ops (.ok (), s)
  | underflowed {k : Nat} {op : Opcode} (found : ops[k]? = some op)
      (supplied : Supplied d ops k) (short : depthAt d ops k < op.need) :
      Foretold d ops (.error (.trap k op .stackUnderflow), {})
  | undefined {k : Nat} {cause : Trap} {s : OperandStack}
      (found : ops[k]? = some (.operator .div)) (supplied : Supplied d ops (k + 1))
      (known : cause = .divisionByZero ∨ cause = .integerOverflow)
      (size : (s.size : Int) = depthAt d ops k - 2) :
      Foretold d ops (.error (.trap k (.operator .div) cause), s)

/-- A forecast for the rest of a run becomes one for the whole, if the first opcode has its
operands. The index of a fault moves by one. -/
theorem Foretold.cons {d : Int} {op : Opcode} {ops : List Opcode}
    {run : Except Fault Unit × OperandStack} (enough : (op.need : Int) ≤ d)
    (h : Foretold (d + op.effect) ops run) :
    Foretold d (op :: ops) (run.1.mapError (·.shift 1), run.2) := by
  -- Everything moves one place further, the index of a fault included.
  cases h with
  | finished supplied size =>
    refine .finished (supplied_succ.mpr ⟨enough, supplied⟩) ?_
    simpa using size
  | @underflowed k op' found supplied short =>
    show Foretold d (op :: ops) (.error (.trap (1 + k) op' .stackUnderflow), {})
    rw [Nat.add_comm]
    refine .underflowed (by simpa using found) (supplied_succ.mpr ⟨enough, supplied⟩) ?_
    simpa using short
  | @undefined k cause s found supplied known size =>
    show Foretold d (op :: ops) (.error (.trap (1 + k) (.operator .div) cause), s)
    rw [Nat.add_comm]
    refine .undefined (by simpa using found) (supplied_succ.mpr ⟨enough, supplied⟩) known ?_
    simpa using size

/-- Every run ends as the forecast says, by induction on the instructions with
`Instruction.outcome_cases` for each. -/
theorem foretold_runAll (is : List Instruction) (s : OperandStack) :
    Foretold s.size (is.map (·.opcode)) (runAll is s) := by
  induction is generalizing s with
  | nil => exact .finished supplied_zero (by simp)
  | cons i is ih =>
    rw [List.map_cons]
    rcases i.outcome_cases s with ⟨t, outcome, enough, size⟩ | ⟨outcome, short⟩ |
      ⟨cause, t, outcome, rfl, known, size⟩
    · -- The rest of the run starts with the depth that the forecast has there.
      have rest := ih t
      rw [size] at rest
      rw [runAll_cons_ok outcome]
      exact rest.cons (by exact_mod_cast enough)
    · -- Nothing ran before this instruction, so it is the first to be starved.
      rw [runAll_cons_trap outcome]
      refine .underflowed rfl supplied_zero ?_
      simpa using short
    · rw [runAll_cons_trap outcome]
      have enough : ((Opcode.operator .div).need : Int) ≤ s.size := by
        rw [size, Opcode.need]
        omega
      refine .undefined rfl (supplied_succ.mpr ⟨enough, supplied_zero⟩) known ?_
      rw [depthAt_zero, size]
      omega

namespace Foretold

variable {d : Int} {ops : List Opcode} {run run' : Except Fault Unit × OperandStack}

private theorem supplied_of_ok (h : Foretold d ops run) (ok : run.1 = .ok ()) :
    Supplied d ops ops.length ∧ (run.2.size : Int) = depthAt d ops ops.length := by
  cases h with
  | finished supplied size => exact ⟨supplied, size⟩
  | underflowed _ _ _ => cases ok
  | undefined _ _ _ _ => cases ok

private theorem empty_of_underflow (h : Foretold d ops run) {k : Nat} {op : Opcode}
    (failed : run.1 = .error (.trap k op .stackUnderflow)) : run.2 = {} := by
  cases h with
  | finished _ _ => cases failed
  | underflowed _ _ _ => rfl
  | undefined _ _ known _ =>
    cases failed
    simp at known

/-- A run underflows at the first opcode that is `Starved`, if no division ended it before. -/
theorem underflow_iff (h : Foretold d ops run) (k : Nat) :
    (∃ op, run.1 = .error (.trap k op .stackUnderflow)) ↔
      (Starved d ops k ∧ ∀ j < k, ¬ Starved d ops j) ∧
        ∀ j < k, ∀ cause, run.1 ≠ .error (.trap j (.operator .div) cause) := by
  constructor
  · rintro ⟨op, failed⟩
    cases h with
    | finished _ _ => cases failed
    | underflowed found supplied short =>
      cases failed
      refine ⟨⟨⟨op, found, short⟩, fun j hj => supplied.not_starved hj⟩, ?_⟩
      rintro j hj cause same
      cases same
      exact Nat.lt_irrefl _ hj
    | undefined _ _ known _ =>
      cases failed
      simp at known
  · rintro ⟨⟨starved, first⟩, undivided⟩
    cases h with
    | finished supplied _ => exact absurd starved (supplied.not_starved starved.lt_length)
    | @underflowed k' op found supplied short =>
      obtain rfl := first_starved_unique starved (supplied_iff.mpr first)
        ⟨op, found, short⟩ supplied
      exact ⟨op, rfl⟩
    | @undefined k' cause s _ supplied _ _ =>
      -- A division that ended the run before `k` is excluded, and one from `k` on comes too late.
      by_cases less : k' < k
      · exact absurd rfl (undivided k' less cause)
      · exact absurd starved (supplied.not_starved (by omega))

private theorem division_of_undefined (h : Foretold d ops run) {k : Nat} {op : Opcode}
    {cause : Trap}
    (failed : run.1 = .error (.trap k op cause))
    (known : cause = .divisionByZero ∨ cause = .integerOverflow) :
    ops[k]? = some (.operator .div) ∧ Supplied d ops (k + 1) ∧
      (run.2.size : Int) = depthAt d ops k - 2 := by
  cases h with
  | finished _ _ => cases failed
  | underflowed _ _ _ =>
    cases failed
    simp at known
  | undefined found supplied _ size =>
    cases failed
    exact ⟨found, supplied, size⟩

/-- Without divisions, the forecast leaves a run only one way to end. -/
theorem unique (h : Foretold d ops run) (h' : Foretold d ops run')
    (undivided : .operator .div ∉ ops) :
    run.1 = run'.1 ∧ run.2.size = run'.2.size := by
  cases h with
  | undefined found _ _ _ => exact absurd (List.mem_of_getElem? found) undivided
  | finished supplied size =>
    cases h' with
    | undefined found _ _ _ => exact absurd (List.mem_of_getElem? found) undivided
    | finished _ size' =>
      rw [← size'] at size
      exact ⟨rfl, by exact_mod_cast size⟩
    | underflowed found _ short =>
      have starved : Starved d ops _ := ⟨_, found, short⟩
      exact absurd starved (supplied.not_starved starved.lt_length)
  | underflowed found supplied short =>
    have starved : Starved d ops _ := ⟨_, found, short⟩
    cases h' with
    | undefined found _ _ _ => exact absurd (List.mem_of_getElem? found) undivided
    | finished supplied' _ => exact absurd starved (supplied'.not_starved starved.lt_length)
    | underflowed found' supplied' short' =>
      obtain rfl := first_starved_unique starved supplied ⟨_, found', short'⟩ supplied'
      cases found.symm.trans found'
      exact ⟨rfl, rfl⟩

end Foretold

/-! ## Depth decides -/

private theorem Instruction.eq_operator_of_opcode {i : Instruction} {op : Operator}
    (h : i.opcode = .operator op) : i = .operator op := by
  cases i with
  | operator op' =>
    cases h
    rfl
  | nop | drop | const n => cases h

/-- The depths decide how a run ends, but for undefined divisions.

- A run that succeeds had the operands for every instruction (`Supplied`) and leaves as many as
  `depthAt` foretells.
- It underflows exactly at the first instruction that is `Starved`, if no division trapped before
  that. Then nothing is left on the stack.
- It traps on a division only at a division, with all instructions supplied so far, and both
  operands of the division are gone.
- So without divisions, lists with the same opcodes and stacks of the same depth end alike, whatever
  the words are. -/
theorem runAll_decided_by_depth (is : List Instruction) (s : OperandStack) :
    let ops := is.map (·.opcode)
    let run := runAll is s
    (run.1 = .ok () →
      Supplied s.size ops is.length ∧ (run.2.size : Int) = depthAt s.size ops is.length) ∧
    (∀ k, (∃ op, run.1 = .error (.trap k op .stackUnderflow)) ↔
      (Starved s.size ops k ∧ ∀ j < k, ¬ Starved s.size ops j) ∧
        ∀ j < k, ∀ cause, run.1 ≠ .error (.trap j (.operator .div) cause)) ∧
    (∀ k op, run.1 = .error (.trap k op .stackUnderflow) → run.2.toList = []) ∧
    (∀ k op cause, run.1 = .error (.trap k op cause) →
      cause = .divisionByZero ∨ cause = .integerOverflow →
        is[k]? = some (.operator .div) ∧ Supplied s.size ops (k + 1) ∧
          (run.2.size : Int) = depthAt s.size ops k - 2) ∧
    (∀ (js : List Instruction) (t : OperandStack), js.map (·.opcode) = ops →
      .operator .div ∉ is → t.size = s.size →
        (runAll js t).1 = run.1 ∧ (runAll js t).2.size = run.2.size) := by
  intro ops run
  have foretold : Foretold s.size ops run := foretold_runAll is s
  have length : ops.length = is.length := List.length_map ..
  refine ⟨?_, foretold.underflow_iff, ?_, ?_, ?_⟩
  · intro ok
    rw [← length]
    exact foretold.supplied_of_ok ok
  · intro k op failed
    rw [foretold.empty_of_underflow failed]
    rfl
  · intro k op cause failed known
    obtain ⟨found, supplied, size⟩ := foretold.division_of_undefined failed known
    obtain ⟨i, fetched, division⟩ := Option.map_eq_some_iff.mp (List.getElem?_map ▸ found)
    rw [Instruction.eq_operator_of_opcode division] at fetched
    exact ⟨fetched, supplied, size⟩
  · intro js t same undivided depth
    have foretold' : Foretold s.size ops (runAll js t) := by
      rw [← depth, ← same]
      exact foretold_runAll js t
    refine foretold'.unique foretold ?_
    intro division
    obtain ⟨i, inside, opcode⟩ := List.mem_map.mp division
    rw [Instruction.eq_operator_of_opcode opcode] at inside
    exact undivided inside

/-- A run on one operand that succeeds, one that divides by zero, and one that is starved, which
ends alike on every other operand. -/
theorem runAll_decided_by_depth_examples :
    let s : OperandStack := .ofList [.i32 4]
    let other : OperandStack := .ofList [.i32 (-1)]
    let starving : List Instruction := [.const 3, .operator .add, .operator .mul, .nop]
    ((runAll [.const 3, .operator .add] s).1 = .ok () ∧
      ((runAll [.const 3, .operator .add] s).2.size : Int) = depthAt 1 [.const, .operator .add] 2) ∧
    ((runAll [.const 0, .operator .div] s).1 =
        .error (.trap 1 (.operator .div) .divisionByZero) ∧
      ((runAll [.const 0, .operator .div] s).2.size : Int) =
        depthAt 1 [.const, .operator .div] 1 - 2) ∧
    ((runAll starving s).1 = .error (.trap 2 (.operator .mul) .stackUnderflow) ∧
      Starved 1 (starving.map (·.opcode)) 2 ∧ (runAll starving s).2.toList = []) ∧
    (runAll [.const 8, .operator .add, .operator .mul, .nop] other).1 = (runAll starving s).1 := by
  intro s other starving
  obtain ⟨_, underflow, empty, _, alike⟩ := runAll_decided_by_depth starving s
  obtain ⟨finished, _⟩ := runAll_decided_by_depth [.const 3, .operator .add] s
  obtain ⟨_, _, _, undefined, _⟩ := runAll_decided_by_depth [.const 0, .operator .div] s
  refine ⟨⟨rfl, (finished rfl).2⟩, ⟨rfl, (undefined 1 _ _ rfl (.inl rfl)).2.2⟩, ⟨rfl, ?_, ?_⟩, ?_⟩
  · exact ((underflow 2).mp ⟨_, rfl⟩).1.1
  · exact empty 2 _ rfl
  · exact (alike [.const 8, .operator .add, .operator .mul, .nop] other rfl (by decide) rfl).1

end Straightline
