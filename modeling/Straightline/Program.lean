/-!
# Values, instructions and programs

The data that everything else works on.

- A `Value` is an operand with its `ValueType`. The only type is `i32`, a signed word of 32 bits,
  and the text of a value names the type in front of the number, as in `i32:-3`.
- An `Operator` takes two words and leaves one. There are six comparisons and four arithmetic
  operators.
- An `Opcode` is an instruction without its immediate. The thirteen opcodes are told apart both by
  their bytes and by their mnemonics, so each can be looked up by either (`Opcode.ofByte_byte`,
  `Opcode.ofMnemonic?_mnemonic`).
- An `Instruction` is an opcode together with what it needs. Constants carry a word as immediate;
  all other instructions stand alone.
- A `Program` is a fixed sequence of instructions, numbered from zero.

Reading a program and running it give a value or an error. The lemmas on such results come first.
-/

namespace Straightline

/-! ## Results -/

section Results

variable {ε ε' α β : Type}

theorem map_eq_ok_iff {f : α → β} {x : Except ε α} {b : β} :
    x.map f = .ok b ↔ ∃ a, x = .ok a ∧ f a = b := by
  cases x <;> simp [Except.map]

theorem map_eq_error_iff {f : α → β} {x : Except ε α} {e : ε} :
    x.map f = .error e ↔ x = .error e := by
  cases x <;> simp [Except.map]

theorem ok_bind (a : α) (f : α → Except ε β) : (Except.ok a >>= f) = f a := rfl

theorem bind_eq_ok_iff {x : Except ε α} {f : α → Except ε β} {b : β} :
    x >>= f = .ok b ↔ ∃ a, x = .ok a ∧ f a = .ok b := by
  cases x <;> simp [bind, Except.bind]

theorem bind_eq_error_iff {x : Except ε α} {f : α → Except ε β} {e : ε} :
    x >>= f = .error e ↔ x = .error e ∨ ∃ a, x = .ok a ∧ f a = .error e := by
  cases x <;> simp [bind, Except.bind]

/-- A change to the error (`Except.mapError`) and one to the value (`Except.map`) do not meet. -/
theorem map_mapError (f : ε → ε') (g : α → β) (x : Except ε α) :
    (x.mapError f).map g = (x.map g).mapError f := by
  cases x <;> rfl

end Results

/-! ## Values -/

/-- The types an operand can have. -/
inductive ValueType where
  | i32
  deriving DecidableEq, Repr

namespace ValueType

/-- Every value type (`mem_all`). -/
def all : List ValueType := [.i32]

/-- The name of a value type, as `Value.text` and the wording of a type mismatch show it. -/
def text : ValueType → String
  | .i32 => "i32"

theorem mem_all (t : ValueType) : t ∈ all := by
  cases t
  decide

end ValueType

/-- An operand: a word together with its type. -/
inductive Value where
  | i32 (n : Int32)
  deriving DecidableEq, Repr

namespace Value

/-- A fresh operand is the word zero. -/
instance : Inhabited Value := ⟨.i32 0⟩

/-- The type of an operand. -/
def type : Value → ValueType
  | .i32 _ => .i32

/-- The word of an operand of type `i32`; an operand of another type has none. -/
def word? : Value → Option Int32
  | .i32 n => some n

/-- The word an operand carries. It is there because `i32` is the only type (`word?_eq`). -/
def word : Value → Int32
  | .i32 n => n

/-- The type and the word in decimal, as in `i32:-3`. -/
def text : Value → String
  | .i32 n => "i32:" ++ toString n.toInt

@[simp]
theorem word_i32 (n : Int32) : (Value.i32 n).word = n := rfl

@[simp]
theorem i32_word (v : Value) : Value.i32 v.word = v := by
  cases v; rfl

/-- Taking the word of an operand never fails. -/
@[simp]
theorem word?_eq (v : Value) : v.word? = some v.word := by
  cases v; rfl

/-- With one type of operands, every operand has it. -/
@[simp]
theorem type_eq (v : Value) : v.type = .i32 := by
  cases v; rfl

end Value

/-! ## Operators -/

/-- An operator on two words. Orders and division are signed. What an operator computes is
`Operator.meaning`. -/
inductive Operator where
  | eq
  | ne
  | lt
  | gt
  | le
  | ge
  | add
  | sub
  | mul
  | div
  deriving DecidableEq, Repr

namespace Operator

/-- Every operator, in the order of the encoding bytes. -/
def all : List Operator :=
  [.eq, .ne, .lt, .gt, .le, .ge, .add, .sub, .mul, .div]

/-- The word that names an operator in a listing. -/
def mnemonic : Operator → String
  | .eq => "i32.eq"
  | .ne => "i32.ne"
  | .lt => "i32.lt_s"
  | .gt => "i32.gt_s"
  | .le => "i32.le_s"
  | .ge => "i32.ge_s"
  | .add => "i32.add"
  | .sub => "i32.sub"
  | .mul => "i32.mul"
  | .div => "i32.div_s"

/-- The byte that encodes an operator. -/
def byte : Operator → UInt8
  | .eq => 0x46
  | .ne => 0x47
  | .lt => 0x48
  | .gt => 0x4a
  | .le => 0x4c
  | .ge => 0x4e
  | .add => 0x6a
  | .sub => 0x6b
  | .mul => 0x6c
  | .div => 0x6d

theorem mem_all (op : Operator) : op ∈ all := by
  cases op <;> decide

end Operator

/-! ## Opcodes -/

/-- What an instruction does, its immediate left out. -/
inductive Opcode where
  | nop
  | drop
  | const
  | operator (op : Operator)
  deriving DecidableEq, Repr

/-- The failure of `Opcode.ofByte`: a byte that encodes no opcode. -/
structure UnknownOpcode where
  byte : UInt8
  deriving DecidableEq, Repr

namespace UnknownOpcode

/-- The byte is shown as two lower-case hexadecimal digits. -/
def message (e : UnknownOpcode) : String :=
  let high := Nat.digitChar (e.byte.toNat / 16)
  let low := Nat.digitChar (e.byte.toNat % 16)
  "unknown opcode: 0x" ++ String.ofList [high, low]

end UnknownOpcode

namespace Opcode

/-- Every opcode, in the order of the encoding bytes. -/
def all : List Opcode :=
  [.nop, .drop, .const] ++ Operator.all.map .operator

/-- The word that names an opcode in a listing. -/
def mnemonic : Opcode → String
  | .nop => "nop"
  | .drop => "drop"
  | .const => "i32.const"
  | .operator op => op.mnemonic

/-- The byte that encodes an opcode. -/
def byte : Opcode → UInt8
  | .nop => 0x01
  | .drop => 0x1a
  | .const => 0x41
  | .operator op => op.byte

/-- Only a constant carries an immediate. -/
def hasImmediate : Opcode → Bool
  | .const => true
  | _ => false

/-- The opcode that a byte encodes. -/
def ofByte (b : UInt8) : Except UnknownOpcode Opcode :=
  match all.find? (·.byte == b) with
  | some op => .ok op
  | none => .error ⟨b⟩

/-- The opcode that a word names. Letter case matters. -/
def ofMnemonic? (word : String) : Option Opcode :=
  all.find? (·.mnemonic == word)

theorem mem_all (op : Opcode) : op ∈ all := by
  cases op with
  | operator op => simp [all, Operator.mem_all]
  | nop | drop | const => simp [all]

/-- An opcode is found again by its byte, so different opcodes have different bytes. -/
@[simp]
theorem ofByte_byte (op : Opcode) : ofByte op.byte = .ok op := by
  cases op with
  | operator op => cases op <;> rfl
  | nop | drop | const => rfl

/-- An opcode is found again by its mnemonic. -/
@[simp]
theorem ofMnemonic?_mnemonic (op : Opcode) : ofMnemonic? op.mnemonic = some op := by
  cases op with
  | operator op => cases op <;> decide
  | nop | drop | const => decide

/-- `ofMnemonic?` finds an opcode only by its whole mnemonic, letter for letter. -/
theorem ofMnemonic?_eq_some_iff {word : String} {op : Opcode} :
    ofMnemonic? word = some op ↔ word = op.mnemonic := by
  constructor
  · intro h
    have found := List.find?_some h
    exact (beq_iff_eq.mp found).symm
  · rintro rfl
    exact ofMnemonic?_mnemonic op

/-- Different opcodes have different mnemonics. -/
theorem mnemonic_injective {a b : Opcode} (h : a.mnemonic = b.mnemonic) : a = b := by
  have := ofMnemonic?_mnemonic a
  rw [h, ofMnemonic?_mnemonic] at this
  exact (Option.some.inj this).symm

end Opcode

/-! ## Instructions -/

/-- One instruction of a straight-line program. -/
inductive Instruction where
  /-- Does nothing. -/
  | nop
  /-- Discards the top operand. -/
  | drop
  /-- Pushes a word. -/
  | const (n : Int32)
  /-- Replaces the two top operands by the operator's result. -/
  | operator (op : Operator)
  deriving DecidableEq, Repr

namespace Instruction

/-- The instruction without its immediate. -/
def opcode : Instruction → Opcode
  | .nop => .nop
  | .drop => .drop
  | .const _ => .const
  | .operator op => .operator op

/-- The instruction of an opcode that needs no immediate. -/
def ofOpcode? : Opcode → Option Instruction
  | .nop => some .nop
  | .drop => some .drop
  | .const => none
  | .operator op => some (.operator op)

/-- The immediate as an operand. -/
def immediate? : Instruction → Option Value
  | .const n => some (.i32 n)
  | _ => none

/-- The word that names the instruction in a listing. -/
def mnemonic (i : Instruction) : String :=
  i.opcode.mnemonic

/-- The line of the instruction in a canonical listing: the mnemonic, followed by one space and the
immediate in decimal where there is one. -/
def text : Instruction → String
  | .const n => Opcode.const.mnemonic ++ " " ++ toString n.toInt
  | i => i.mnemonic

/-- `ofOpcode?` gives an instruction for exactly the opcodes without immediate. -/
theorem isSome_ofOpcode? (op : Opcode) : (ofOpcode? op).isSome = !op.hasImmediate := by
  cases op <;> rfl

theorem opcode_of_ofOpcode? {op : Opcode} {i : Instruction} (h : ofOpcode? op = some i) :
    i.opcode = op := by
  cases op <;> cases h <;> rfl

end Instruction

/-! ## Programs -/

/-- A sequence of instructions. Its view is the list of them (`Program.toList`). -/
structure Program where
  instructions : Array Instruction := #[]
  deriving DecidableEq, Repr

namespace Program

instance : Inhabited Program := ⟨{}⟩

/-- The program of the given instructions. -/
def ofList (is : List Instruction) : Program := ⟨is.toArray⟩

/-- The instructions in order. -/
def toList (p : Program) : List Instruction := p.instructions.toList

/-- The number of instructions. -/
def size (p : Program) : Nat := p.instructions.size

/-- Whether there is no instruction at all. -/
def isEmpty (p : Program) : Bool := p.instructions.isEmpty

/-- The instruction with a given number, counted from zero. -/
def get? (p : Program) (index : Nat) : Option Instruction := p.instructions[index]?

@[simp]
theorem toList_ofList (is : List Instruction) : (ofList is).toList = is := rfl

@[simp]
theorem ofList_toList (p : Program) : ofList p.toList = p := rfl

@[simp]
theorem length_toList (p : Program) : p.toList.length = p.size := rfl

theorem get?_eq (p : Program) (index : Nat) : p.get? index = p.toList[index]? := by
  simp [get?, toList]

theorem get?_eq_none_iff (p : Program) (index : Nat) : p.get? index = none ↔ p.size ≤ index := by
  simp [get?, size]

end Program

end Straightline
