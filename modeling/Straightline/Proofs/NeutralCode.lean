import Straightline.Proofs.TrapCauses

/-!
# Neutral code

Code is neutral in an operand store if it succeeds on every state and leaves it as it found it. Such
code can stand anywhere: it changes nothing about a run but the index of a fault behind it
(`runAll_insert`). Doing nothing is neutral in every store; on a stack, so is a constant that is
dropped at once.

A program can be rid of all the instructions that do nothing, wherever they stand
(`runAll_withoutNops`). There the index of a fault goes down by the number of them in front of it.
-/

namespace Straightline

namespace Fault

/-- The fault with its index sent to another place by `place`. The opcode and the cause stay the
same, and so does a fault of a counter that is out of range. -/
def reindex (place : Nat → Nat) : Fault → Fault
  | .trap index opcode cause => .trap (place index) opcode cause
  | .outOfRange counter size => .outOfRange counter size

private theorem shift_eq_reindex (offset : Nat) (f : Fault) :
    f.shift offset = f.reindex (offset + ·) := by
  cases f with
  | trap index opcode cause => rfl
  | outOfRange counter size => rfl

/-- A fault that is sent to another place twice is sent to the last one. -/
private theorem mapError_reindex {α : Type} (first second : Nat → Nat) (r : Except Fault α) :
    (r.mapError (·.reindex first)).mapError (·.reindex second) =
      r.mapError (·.reindex fun k => second (first k)) := by
  rcases r with (⟨index, opcode, cause⟩ | ⟨counter, size⟩) | a
  · rfl
  · rfl
  · rfl

end Fault

section AnyStore

variable {σ : Type} [OperandStore σ]

/-! ## Inserted code -/

/-- Instructions that succeed on every state of the operand store `σ` and leave it as it was. -/
def Neutral (σ : Type) [OperandStore σ] (js : List Instruction) : Prop :=
  ∀ s : σ, runAll js s = (.ok (), s)

private theorem outcome_nop_any (s : σ) : Instruction.nop.eval.outcome s = (.ok (), s) :=
  Exec.outcome_pure () s

/-- Any number of `nop` instructions is `Neutral` in every store. -/
theorem neutral_nops (j : Nat) : Neutral σ (List.replicate j .nop) := by
  intro s
  induction j with
  | zero => rfl
  | succ j ih =>
    rw [List.replicate_succ, runAll_cons_ok (outcome_nop_any s), ih]
    rfl

/-- `Neutral` code behind the first instructions of a run shows in the index of a fault only, and
there only if the fault is behind it. -/
theorem runAll_insert {js : List Instruction} (neutral : Neutral σ js) (xs ys : List Instruction)
    (s : σ) :
    runAll (xs ++ js ++ ys) s =
      ((runAll (xs ++ ys) s).1.mapError
        (·.reindex fun k => if k < xs.length then k else k + js.length),
       (runAll (xs ++ ys) s).2) := by
  rcases runAll_cases xs s with ⟨t, first⟩ | ⟨k, i, cause, _, t, found, _, _, failed⟩
  · -- The code is reached in the state `t`, and this is where the rest starts without it too.
    have through : runAll (xs ++ js) s = (.ok (), t) := by
      rw [runAll_append_of_ok first, neutral t]
      rfl
    have behind : ∀ k, (if xs.length + k < xs.length then xs.length + k
        else xs.length + k + js.length) = xs.length + js.length + k := by
      intro k
      rw [if_neg (by omega)]
      omega
    rw [runAll_append_of_ok through, runAll_append_of_ok first, List.length_append]
    simp only [Fault.shift_eq_reindex, Fault.mapError_reindex, behind]
  · -- The run ends before the code is reached.
    obtain ⟨inside, _⟩ := List.getElem?_eq_some_iff.mp found
    rw [List.append_assoc, runAll_append_of_error failed, runAll_append_of_error failed]
    simp only [Except.mapError, Fault.reindex, if_pos inside]

/-! ## Deleted code -/

/-- The instructions other than `nop`, in order. -/
def withoutNops (is : List Instruction) : List Instruction :=
  is.filter (· ≠ .nop)

/-- The number of `nop` instructions in front of number `k`. -/
def nopsBefore (k : Nat) (is : List Instruction) : Nat :=
  (is.take k).count .nop

private theorem nopsBefore_le (k : Nat) (is : List Instruction) : nopsBefore k is ≤ k :=
  Nat.le_trans List.count_le_length (List.length_take_le k is)

private theorem nopsBefore_succ (k : Nat) (i : Instruction) (is : List Instruction) :
    nopsBefore (1 + k) (i :: is) = nopsBefore k is + if i = .nop then 1 else 0 := by
  unfold nopsBefore
  rw [Nat.add_comm 1 k, List.take_succ_cons, List.count_cons]
  simp only [beq_iff_eq]

/-- The `nop` instructions can be left out. The index of a fault then counts the other instructions
only: it goes down by `nopsBefore`. -/
theorem runAll_withoutNops (is : List Instruction) (s : σ) :
    runAll (withoutNops is) s =
      ((runAll is s).1.mapError (·.reindex fun k => k - nopsBefore k is), (runAll is s).2) := by
  -- By induction on the instructions, for any state: each of them is left out or runs in its place.
  induction is generalizing s with
  | nil => rfl
  | cons i is ih =>
    by_cases idle : i = .nop
    · subst idle
      have left : withoutNops (.nop :: is) = withoutNops is := List.filter_cons_of_neg (by simp)
      have index : ∀ k, 1 + k - nopsBefore (1 + k) (.nop :: is) = k - nopsBefore k is := by
        intro k
        rw [nopsBefore_succ, if_pos rfl]
        omega
      rw [left, runAll_cons_ok (outcome_nop_any s), ih]
      simp only [Fault.shift_eq_reindex, Fault.mapError_reindex, index]
    · have left : withoutNops (i :: is) = i :: withoutNops is :=
        List.filter_cons_of_pos (by simpa using idle)
      have index : ∀ k, 1 + k - nopsBefore (1 + k) (i :: is) = 1 + (k - nopsBefore k is) := by
        intro k
        have fewer := nopsBefore_le k is
        rw [nopsBefore_succ, if_neg idle]
        omega
      rw [left]
      rcases outcome : i.eval.outcome s with ⟨cause | _, t⟩
      · -- A fault at the first instruction has nothing in front of it.
        rw [runAll_cons_trap outcome, runAll_cons_trap outcome]
        rfl
      · rw [runAll_cons_ok outcome, runAll_cons_ok outcome, ih]
        simp only [Fault.shift_eq_reindex, Fault.mapError_reindex, index]

end AnyStore

/-! ## On a stack -/

/-- A constant that is dropped at once is `Neutral` on a stack: the `drop` takes what the constant
has pushed. -/
theorem neutral_const_drop (n : Int32) : Neutral OperandStack [.const n, .drop] := by
  intro s
  rw [runAll_cons_ok (Instruction.outcome_const s n),
    runAll_cons_ok (Instruction.outcome_drop_push s (.i32 n))]
  rfl

namespace Program

/-- The program without its `nop` instructions. -/
def withoutNops (p : Program) : Program :=
  ofList (Straightline.withoutNops p.toList)

theorem run_withoutNops (p : Program) :
    p.withoutNops.run = p.run.mapError (·.reindex fun k => k - nopsBefore k p.toList) := by
  rw [run_eq_runAll, run_eq_runAll, withoutNops, toList_ofList, runAll_withoutNops, map_mapError]

end Program

/-- `Neutral` code can be put in or taken out anywhere.

- Any number of `nop` instructions, or a constant that is dropped at once, can stand between two
  parts of a run. The run succeeds or traps as it does without them, with the same cause at the same
  opcode, and it leaves the same stack. The index of a trap is the same if the trap is in the first
  part, and it is larger by the number of instructions put in if it is in the second.
- Deleting all `nop` instructions (`withoutNops`) keeps the stack and how the run ends, be it a run
  on any stack or the run of a program. The index of a trap goes down by the number of instructions
  deleted in front of it. -/
theorem runAll_neutral_code (xs ys : List Instruction) (s : OperandStack) :
    let plain := runAll (xs ++ ys) s
    (∀ j, runAll (xs ++ List.replicate j .nop ++ ys) s =
      (plain.1.mapError (·.reindex fun k => if k < xs.length then k else k + j), plain.2)) ∧
    (∀ n, runAll (xs ++ [.const n, .drop] ++ ys) s =
      (plain.1.mapError (·.reindex fun k => if k < xs.length then k else k + 2), plain.2)) ∧
    (∀ (is : List Instruction) (t : OperandStack),
      runAll (withoutNops is) t =
        ((runAll is t).1.mapError (·.reindex fun k => k - nopsBefore k is), (runAll is t).2)) ∧
    (∀ p : Program,
      p.withoutNops.run = p.run.mapError (·.reindex fun k => k - nopsBefore k p.toList)) := by
  intro plain
  refine ⟨?_, ?_, runAll_withoutNops, Program.run_withoutNops⟩
  · intro j
    have inserted := runAll_insert (neutral_nops j) xs ys s
    rwa [List.length_replicate] at inserted
  · intro n
    exact runAll_insert (neutral_const_drop n) xs ys s

end Straightline
