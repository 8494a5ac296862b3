import Mathlib.Data.Nat.Find
import Mathlib.Data.Set.Basic
import Mathlib.Order.Bounds.Defs
import Straightline.Proofs.Refinement
import Straightline.Proofs.Evaluation

/-!
# Refused operands

A store may refuse an operand, wherever in a run it is asked for. The typed pops of a run are
numbered from zero, and a `RefusingStack` refuses those with certain numbers. An operator makes two
typed pops, the right operand first, and no other instruction makes any. So the number of a typed
pop tells which operator makes it and for which operand, and a run is decided by the least number
that is refused:

- if it is not reached, the run is the run of a plain stack (`runAll_of_spared`);
- if it is, the run ends there, at the operator and with the operands that the number tells
  (`refusedAt_runAll`).

Everything up to there holds for whatever tells the numbers. The two cases in the end are a list of
numbers (`MeteredStack`) and any set of them (`SelectiveStack`).
-/

namespace Straightline

/-! ## Stacks that refuse -/

namespace OperandStack

/-- What is reported when the top operand is refused: `typeMismatch` with that operand, or
`stackUnderflow` if there is none. -/
def refusal (s : OperandStack) : Trap :=
  match s.top? with
  | some v => .typeMismatch .i32 v
  | none => .stackUnderflow

end OperandStack

/-- A stack that refuses the typed pops with a number in `R`. Unlike a `MeteredStack` it carries no
data for that, and the set may be infinite. -/
abbrev SelectiveStack (R : Set Nat) := RefusingStack fun (_ : Unit) k => k ∈ R

/-! ## Numbers that are spared -/

/-- None of the `n` typed pops from number `c` on is `refused`. -/
def Spared (refused : Nat → Prop) (c n : Nat) : Prop :=
  ∀ k, refused k → k < c ∨ c + n ≤ k

namespace Spared

variable {refused : Nat → Prop} {c m n : Nat}

private theorem passes (h : Spared refused c n) (inside : m < n) : ¬ refused (c + m) := by
  intro member
  have outside := h (c + m) member
  omega

private theorem left (h : Spared refused c (m + n)) : Spared refused c m := by
  intro k member
  have outside := h k member
  omega

private theorem right (h : Spared refused c (m + n)) : Spared refused (c + m) n := by
  intro k member
  have outside := h k member
  omega

/-- Everything in front of the least number is spared. -/
private theorem of_least (least : ∀ k, refused k → c + m ≤ k) (before : n ≤ m) :
    Spared refused c n := by
  intro k member
  have beyond := least k member
  omega

end Spared

variable {ρ : Type} {refuses : ρ → Nat → Prop} [∀ refused, DecidablePred (refuses refused)] {r : ρ}

/-! ## One operand -/

section Operand

variable {s : OperandStack} {c : Nat}

private theorem outcome_popWord_push (n : Int32) (t : OperandStack) :
    popWord.outcome (t.push (.i32 n)) = (.ok n, t) := rfl

private theorem outcome_popWord_of_refused (refused : refuses r c) :
    popWord.outcome (⟨s, c, r⟩ : RefusingStack refuses) =
      (.error s.refusal, ⟨s, c + 1, r⟩) := by
  have popped : (OperandStore.popTyped .i32).outcome (⟨s, c, r⟩ : RefusingStack refuses) = _ :=
    RefusingStack.outcome_popTyped_of_refused refused .i32
  rw [popWord_eq, Exec.outcome_bind, popped]
  rcases s.eq_empty_or_push with rfl | ⟨n, t, rfl⟩
  · rfl
  · rfl

private theorem outcome_popWord_of_passed (passed : ¬ refuses r c) :
    popWord.outcome (⟨s, c, r⟩ : RefusingStack refuses) =
      ((popWord.outcome s).1, ⟨(popWord.outcome s).2, c + 1, r⟩) := by
  have popped : (OperandStore.popTyped .i32).outcome (⟨s, c, r⟩ : RefusingStack refuses) = _ :=
    RefusingStack.outcome_popTyped_of_passed passed .i32
  rw [popWord_eq, Exec.outcome_bind, popped]
  rcases s.eq_empty_or_push with rfl | ⟨n, t, rfl⟩
  · rfl
  · rfl

end Operand

/-! ## One instruction -/

namespace Instruction

/-- Whether an instruction has two operands. These are the ones that make typed pops. -/
def isOperator : Instruction → Bool
  | .operator _ => true
  | _ => false

/-- How many typed pops an instruction makes on a stack, if none is refused. An operator on an empty
stack underflows at the first one. -/
def typedPops (i : Instruction) (s : OperandStack) : Nat :=
  if i.isOperator then if s.isEmpty then 1 else 2 else 0

theorem typedPops_le (i : Instruction) (s : OperandStack) : i.typedPops s ≤ 2 := by
  unfold typedPops
  split
  · split
    · exact Nat.le_succ 1
    · exact Nat.le_refl 2
  · exact Nat.zero_le 2

/-- Where an instruction succeeds, an operator has made both of its typed pops. -/
private theorem typedPops_of_ok {i : Instruction} {s t : OperandStack}
    (h : i.eval.outcome s = (.ok (), t)) :
    i.typedPops s = if i.isOperator then 2 else 0 := by
  cases i with
  | nop | drop | const n => rfl
  | operator op =>
    rcases s.eq_empty_or_push with rfl | ⟨b, t, rfl⟩
    · rw [outcome_operator_empty] at h
      cases h
    · rfl

section Outcomes

variable {s : OperandStack} {c : Nat}

private theorem outcome_of_right_refused (op : Operator) (refused : refuses r c) :
    (operator op).eval.outcome (⟨s, c, r⟩ : RefusingStack refuses) =
      (.error s.refusal, ⟨s, c + 1, r⟩) := by
  simp only [eval_operator, binary, Exec.outcome_bind, outcome_popWord_of_refused refused]

private theorem outcome_of_left_refused (op : Operator) (b : Int32) (passed : ¬ refuses r c)
    (refused : refuses r (c + 1)) :
    (operator op).eval.outcome (⟨s.push (.i32 b), c, r⟩ : RefusingStack refuses) =
      (.error s.refusal, ⟨s, c + 2, r⟩) := by
  simp only [eval_operator, binary, Exec.outcome_bind, outcome_popWord_of_passed passed,
    outcome_popWord_push, outcome_popWord_of_refused refused]

/-- An operator whose typed pops pass does what it does to a plain stack. -/
private theorem outcome_operator_of_spared {op : Operator}
    (spared : Spared (refuses r) c ((operator op).typedPops s)) :
    (operator op).eval.outcome (⟨s, c, r⟩ : RefusingStack refuses) =
      (((operator op).eval.outcome s).1,
        ⟨((operator op).eval.outcome s).2, c + (operator op).typedPops s, r⟩) := by
  rw [eval_operator, eval_operator]
  rcases s.eq_empty_or_push with rfl | ⟨b, t, rfl⟩
  · have passed : ¬ refuses r c := spared.passes Nat.one_pos
    simp only [binary, Exec.outcome_bind, outcome_popWord_of_passed passed]
    rfl
  · have passedRight : ¬ refuses r c := spared.passes Nat.two_pos
    have passedLeft : ¬ refuses r (c + 1) := spared.passes Nat.one_lt_two
    simp only [binary, Exec.outcome_bind, outcome_popWord_of_passed passedRight,
      outcome_popWord_push, outcome_popWord_of_passed passedLeft]
    rcases t.eq_empty_or_push with rfl | ⟨a, t, rfl⟩
    · rfl
    · simp only [outcome_popWord_push, Exec.outcome_ofExcept]
      cases op.apply a b with
      | ok n => rfl
      | error cause => rfl

/-- An instruction whose typed pops are `Spared` does what it does to a plain stack, and its typed
pops are counted. -/
theorem outcome_of_spared {i : Instruction} (spared : Spared (refuses r) c (i.typedPops s)) :
    i.eval.outcome (⟨s, c, r⟩ : RefusingStack refuses) =
      ((i.eval.outcome s).1, ⟨(i.eval.outcome s).2, c + i.typedPops s, r⟩) := by
  cases i with
  | nop => rfl
  | const n => rfl
  | drop =>
    rcases s.eq_empty_or_push with rfl | ⟨n, t, rfl⟩
    · rfl
    · rfl
  | operator op => exact outcome_operator_of_spared spared

end Outcomes

end Instruction

/-! ## Whole runs -/

/-- How many typed pops a run makes on a plain stack, up to its end or to its first trap. -/
def typedPopsOf : List Instruction → OperandStack → Nat
  | [], _ => 0
  | i :: is, s =>
    i.typedPops s +
      match i.eval.outcome s with
      | (.ok (), t) => typedPopsOf is t
      | (.error _, _) => 0

private theorem typedPopsOf_cons_ok {i : Instruction} {s t : OperandStack}
    (h : i.eval.outcome s = (.ok (), t)) (is : List Instruction) :
    typedPopsOf (i :: is) s = i.typedPops s + typedPopsOf is t := by
  rw [typedPopsOf, h]

private theorem typedPopsOf_cons_trap {i : Instruction} {cause : Trap} {s t : OperandStack}
    (h : i.eval.outcome s = (.error cause, t)) (is : List Instruction) :
    typedPopsOf (i :: is) s = i.typedPops s := by
  rw [typedPopsOf, h]
  rfl

/-- How a run on a plain stack `s` would go on to end when typed pop number `m` is refused: at an
operator that has `m / 2` operators in front of it. If `m` is even, the right operand is refused and
the stack is left as the operator found it; if `m` is odd, the left one is, and only the right one
is gone. The trap tells the operand that was on top (`OperandStack.refusal`). -/
def RefusedAt (is : List Instruction) (s : OperandStack) (m : Nat) (result : Except Fault Unit)
    (stack : OperandStack) : Prop :=
  ∃ k op u, is[k]? = some (.operator op) ∧ (is.take k).countP (·.isOperator) = m / 2 ∧
    runAll (is.take k) s = (.ok (), u) ∧
    (if m % 2 = 0 then stack = u else ∃ v, u = stack.push v) ∧
    result = .error (.trap k (.operator op) stack.refusal)

/-- What is known of the rest of a run carries over to the whole, if the first instruction is
counted where it is an operator. -/
theorem RefusedAt.cons {i : Instruction} {is : List Instruction} {s t stack : OperandStack}
    {m m' : Nat} {result : Except Fault Unit} (h : RefusedAt is t m result stack)
    (outcome : i.eval.outcome s = (.ok (), t))
    (number : m' = m + if i.isOperator then 2 else 0) :
    RefusedAt (i :: is) s m' (result.mapError (·.shift 1)) stack := by
  obtain ⟨k, op, u, found, operators, before, left, failed⟩ := h
  -- Two typed pops more do not change which of the operands is refused.
  have parity : m' % 2 = m % 2 := by
    split at number
    · omega
    · omega
  refine ⟨k + 1, op, u, found, ?_, ?_, ?_, ?_⟩
  · rw [List.take_succ_cons, List.countP_cons, operators, number]
    split
    · omega
    · omega
  · rw [List.take_succ_cons, runAll_cons_ok outcome, before]
    rfl
  · rw [parity]
    exact left
  · rw [failed, Nat.add_comm k]
    rfl

/-- A run whose typed pops are all `Spared` is the run on a plain stack, and its typed pops are
counted. -/
theorem runAll_of_spared {is : List Instruction} {s : OperandStack} {c : Nat}
    (spared : Spared (refuses r) c (typedPopsOf is s)) :
    runAll is (⟨s, c, r⟩ : RefusingStack refuses) =
      ((runAll is s).1, ⟨(runAll is s).2, c + typedPopsOf is s, r⟩) := by
  -- An instruction moves the stack and the count, so both are left open in the induction.
  induction is generalizing s c with
  | nil => rfl
  | cons i is ih =>
    have outcome := Instruction.outcome_of_spared spared.left
    rcases plain : i.eval.outcome s with ⟨cause | _, t⟩
    · rw [plain] at outcome
      rw [runAll_cons_trap outcome, runAll_cons_trap plain, typedPopsOf_cons_trap plain]
    · rw [plain] at outcome
      rw [typedPopsOf_cons_ok plain] at spared ⊢
      rw [runAll_cons_ok outcome, runAll_cons_ok plain, ih spared.right, Nat.add_assoc]

/-- The first instruction makes the refused typed pop. -/
private theorem refusedAt_runAll_cons {i : Instruction} {is : List Instruction} {s : OperandStack}
    {c m : Nat} (refused : refuses r (c + m)) (least : ∀ k, refuses r k → c + m ≤ k)
    (here : m < i.typedPops s) :
    let run := runAll (i :: is) (⟨s, c, r⟩ : RefusingStack refuses)
    RefusedAt (i :: is) s m run.1 run.2.stack ∧ run.2.typedPops = c + m + 1 := by
  intro run
  cases i with
  | nop | drop | const n => exact absurd here (Nat.not_lt_zero m)
  | operator op =>
    rcases m with _ | _ | m
    · -- The right operand is refused, and nothing has happened before.
      have outcome := Instruction.outcome_of_right_refused (s := s) op refused
      have ended : run = _ := runAll_cons_trap outcome is
      rw [ended]
      exact ⟨⟨0, op, s, rfl, rfl, rfl, rfl, rfl⟩, rfl⟩
    · -- The left operand is refused, so there was a right one to take.
      have passed : ¬ refuses r c := (Spared.of_least least le_rfl).passes Nat.one_pos
      rcases s.eq_empty_or_push with rfl | ⟨b, t, rfl⟩
      · exact absurd here (Nat.lt_irrefl 1)
      · have outcome := Instruction.outcome_of_left_refused (s := t) op b passed refused
        have ended : run = _ := runAll_cons_trap outcome is
        rw [ended]
        exact ⟨⟨0, op, t.push (.i32 b), rfl, rfl, rfl, ⟨.i32 b, rfl⟩, rfl⟩, rfl⟩
    · -- An operator makes no third typed pop.
      have atMost := (Instruction.operator op).typedPops_le s
      omega

/-- A run that reaches the least number to refuse ends there, as `RefusedAt` tells. The typed pops
made before this run are `c`, and `m` more are made up to the refused one. -/
theorem refusedAt_runAll (is : List Instruction) (s : OperandStack) {c m : Nat}
    (refused : refuses r (c + m)) (least : ∀ k, refuses r k → c + m ≤ k)
    (reached : m < typedPopsOf is s) :
    let run := runAll is (⟨s, c, r⟩ : RefusingStack refuses)
    RefusedAt is s m run.1 run.2.stack ∧ run.2.typedPops = c + m + 1 := by
  -- What an instruction adds to `c` it takes from `m`: the refused number `c + m` stays.
  induction is generalizing s c m with
  | nil => exact absurd reached (Nat.not_lt_zero m)
  | cons i is ih =>
    by_cases here : m < i.typedPops s
    · exact refusedAt_runAll_cons refused least here
    · -- The first instruction is spared, and it succeeds, since there are more typed pops to come.
      have outcome := Instruction.outcome_of_spared (.of_least least (Nat.not_lt.mp here))
      rcases plain : i.eval.outcome s with ⟨cause | _, t⟩
      · rw [typedPopsOf_cons_trap plain] at reached
        exact absurd reached here
      · rw [typedPopsOf_cons_ok plain] at reached
        rw [plain] at outcome
        have number : c + i.typedPops s + (m - i.typedPops s) = c + m := by omega
        obtain ⟨refusedAt, count⟩ := ih t (c := c + i.typedPops s) (m := m - i.typedPops s)
          (by rwa [number]) (by rwa [number]) (by omega)
        intro run
        have ran : run = _ := runAll_cons_ok outcome is
        rw [ran]
        refine ⟨refusedAt.cons plain ?_, ?_⟩
        · rw [← Instruction.typedPops_of_ok plain]
          omega
        · rw [number] at count
          exact count

/-! ## The least number decides -/

/-- With nothing to refuse, a run does what it does to a plain stack, and counts its
`typedPopsOf`. -/
theorem runAll_metered_free (is : List Instruction) (s : OperandStack) :
    runAll is (⟨s, 0, []⟩ : MeteredStack) =
      ((runAll is s).1, ⟨(runAll is s).2, typedPopsOf is s, []⟩) := by
  have spared : Spared (fun k => k ∈ ([] : List Nat)) 0 (typedPopsOf is s) := by
    intro k member
    exact absurd member List.not_mem_nil
  rw [runAll_of_spared spared, Nat.zero_add]

/-- How a run with refusals ends on a stack `s`, told by the least number in `R` and by the run in
which nothing is refused: as that run does if no number of `R` is reached, and `RefusedAt` the least
number otherwise. -/
def DecidedByLeast (R : Set Nat) (is : List Instruction) (s : OperandStack)
    (result : Except Fault Unit) (stack : OperandStack) (count : Nat) : Prop :=
  let free := runAll is (⟨s, 0, []⟩ : MeteredStack)
  ((∀ k ∈ R, free.2.typedPops ≤ k) →
    result = free.1 ∧ stack = free.2.stack ∧ count = free.2.typedPops) ∧
  ((∃ k ∈ R, k < free.2.typedPops) →
    ∃ m, IsLeast R m ∧ RefusedAt is s m result stack ∧ count = m + 1)

/-- Whatever tells the numbers to refuse, the least of them decides. The set `R` is the one that
`refuses` describes at `r`. -/
theorem decidedByLeast_runAll {R : Set Nat} (told : ∀ k, k ∈ R ↔ refuses r k)
    (is : List Instruction) (s : OperandStack) :
    let run := runAll is (⟨s, 0, r⟩ : RefusingStack refuses)
    DecidedByLeast R is s run.1 run.2.stack run.2.typedPops := by
  intro run
  unfold DecidedByLeast
  rw [runAll_metered_free]
  constructor
  · intro beyond
    have spared : Spared (refuses r) 0 (typedPopsOf is s) := by
      intro k member
      rw [Nat.zero_add]
      exact .inr (beyond k ((told k).mpr member))
    have ran : run = _ := runAll_of_spared spared
    rw [ran, Nat.zero_add]
    exact ⟨rfl, rfl, rfl⟩
  · rintro ⟨k, member, reached⟩
    have nonempty : ∃ k, refuses r k := ⟨k, (told k).mp member⟩
    have refused : refuses r (Nat.find nonempty) := Nat.find_spec nonempty
    have least : ∀ k, refuses r k → Nat.find nonempty ≤ k := fun k h => Nat.find_min' nonempty h
    have ended := refusedAt_runAll is s (c := 0) (by rwa [Nat.zero_add]) (by rwa [Nat.zero_add])
      (Nat.lt_of_le_of_lt (least k ((told k).mp member)) reached)
    rw [Nat.zero_add] at ended
    refine ⟨Nat.find nonempty, ⟨(told _).mpr refused, ?_⟩, ended⟩
    intro j inside
    exact least j ((told j).mp inside)

/-- Refusals decide a run by the least of their numbers.

- With nothing to refuse, a `MeteredStack` is a plain one.
- Where all numbers to refuse lie beyond the typed pops of that run, nothing changes: the result,
  the stack and the count are the same.
- Where one of them is reached, the least one, `m`, ends the run after `m + 1` typed pops, at the
  operator with `m / 2` operators in front of it. The trap tells the top operand as one of a wrong
  type, or an underflow if there is none. The stack is the one in front of the operator if `m` is
  even, and that stack without its top if `m` is odd.

This holds for a `MeteredStack` with any list of numbers, and likewise for a `SelectiveStack`, which
refuses the numbers of any set. -/
theorem runAll_decided_by_refusals (is : List Instruction) (s : OperandStack) :
    ((runAll is (⟨s, 0, []⟩ : MeteredStack)).1 = (runAll is s).1 ∧
      (runAll is (⟨s, 0, []⟩ : MeteredStack)).2.stack = (runAll is s).2) ∧
    (∀ refused : List Nat,
      let run := runAll is (⟨s, 0, refused⟩ : MeteredStack)
      DecidedByLeast {k | k ∈ refused} is s run.1 run.2.stack run.2.typedPops) ∧
    (∀ (R : Set Nat) [DecidablePred (· ∈ R)],
      let run := runAll is (⟨s, 0, ()⟩ : SelectiveStack R)
      DecidedByLeast R is s run.1 run.2.stack run.2.typedPops) := by
  refine ⟨?_, ?_, ?_⟩
  · rw [runAll_metered_free]
    exact ⟨rfl, rfl⟩
  · intro refused
    apply decidedByLeast_runAll
    intro k
    exact Iff.rfl
  · intro R _
    apply decidedByLeast_runAll
    intro k
    exact Iff.rfl

/-- A sum and a product, with the left operand of the product refused, with nothing refused in time,
and with every left operand refused. -/
theorem runAll_decided_by_refusals_examples :
    let is : List Instruction := [.const 4, .operator .add, .const 2, .operator .mul]
    let s : OperandStack := .ofList [.i32 9]
    let early := runAll is (⟨s, 0, [7, 3]⟩ : MeteredStack)
    let late := runAll is (⟨s, 0, [4]⟩ : MeteredStack)
    let odd := runAll is (⟨s, 0, ()⟩ : SelectiveStack {k | k % 2 = 1})
    (runAll is (⟨s, 0, []⟩ : MeteredStack)).2.typedPops = 4 ∧
    ((∃ m, IsLeast {k | k ∈ [7, 3]} m ∧ RefusedAt is s m early.1 early.2.stack ∧
        early.2.typedPops = m + 1) ∧
      early.1 = .error (.trap 3 (.operator .mul) (.typeMismatch .i32 (.i32 13))) ∧
      early.2 = ⟨.ofList [.i32 13], 4, [7, 3]⟩) ∧
    (late.1 = .ok () ∧ late.2.stack = .ofList [.i32 26] ∧ late.2.typedPops = 4) ∧
    ((∃ m, IsLeast {k | k % 2 = 1} m ∧ RefusedAt is s m odd.1 odd.2.stack ∧
        odd.2.typedPops = m + 1) ∧
      odd.1 = .error (.trap 1 (.operator .add) (.typeMismatch .i32 (.i32 9)))) := by
  intro is s early late odd
  obtain ⟨_, listed, selected⟩ := runAll_decided_by_refusals is s
  have pops : (runAll is (⟨s, 0, []⟩ : MeteredStack)).2.typedPops = 4 := rfl
  refine ⟨pops, ⟨(listed [7, 3]).2 ⟨3, ?_, ?_⟩, rfl, rfl⟩, (listed [4]).1 ?_,
    (selected {k | k % 2 = 1}).2 ⟨1, rfl, ?_⟩, rfl⟩
  · show 3 ∈ [7, 3]
    decide
  · rw [pops]
    decide
  · intro k member
    rw [pops, List.mem_singleton.mp member]
  · rw [pops]
    decide

end Straightline
