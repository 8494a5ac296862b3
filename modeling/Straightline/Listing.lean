import Straightline.Program

/-!
# Listings

A listing is the text of a program. Texts are lists of characters here.

- A line ends in a newline, or in a carriage return and a newline. Text after the last newline is a
  line too, and there a carriage return is part of it. No other character ends a line
  (`Text.lines`). The words of a line are its longest stretches without white space (`Text.words`),
  which is what has the Unicode property `White_Space` (`Text.isBlank`).
- A literal is decimal, or hexadecimal after `0x` or `0X`, with an optional sign in front. A signed
  literal and a decimal one mean their value, which has to be a word. A hexadecimal literal without
  a sign means the 32 bits it spells (`Literal.read?`).
- A line holds at most one instruction, and a comment from `;;` to its end. All words of a line are
  read as tokens before any of them is given a meaning, so a bad number is reported in front of
  every other mistake on its line (`Line.read`).
- Reading a listing stops at the first bad line and says which it is, counting from one
  (`Program.ofListing`). Writing gives the canonical listing: one instruction a line, each line
  ended by a newline (`Program.listing`).
-/

namespace Straightline

/-! ## Lines, words and blanks -/

namespace Text

/-- The code points of the blank characters, as ranges with both ends included. -/
def blankRanges : List (Nat × Nat) :=
  [ (0x0009, 0x000d), (0x0020, 0x0020), (0x0085, 0x0085), (0x00a0, 0x00a0), (0x1680, 0x1680),
    (0x2000, 0x200a), (0x2028, 0x2029), (0x202f, 0x202f), (0x205f, 0x205f), (0x3000, 0x3000) ]

/-- Whether a character is white space: its code point lies in one of the `blankRanges`. -/
def isBlank (c : Char) : Bool :=
  blankRanges.any fun (first, last) => first ≤ c.toNat && c.toNat ≤ last

/-- The end of a line is blank, so no word holds one. -/
theorem isBlank_newline : isBlank '\n' = true := by decide

/-- The words of a text in order: its stretches without white space (`isBlank`). -/
def words (text : List Char) : List (List Char) :=
  (text.splitOnP isBlank).filter (!·.isEmpty)

@[simp]
theorem words_nil : words [] = [] := by
  simp [words]

/-- A blank parts the words before it from those after it. -/
theorem words_append_blank {c : Char} (h : isBlank c = true) (before after : List Char) :
    words (before ++ c :: after) = words before ++ words after := by
  unfold words
  rw [List.splitOnP_append_cons before after h, List.filter_append]

/-- A line without the carriage return that stands directly before its end. -/
def dropReturn (line : List Char) : List Char :=
  if line.getLast? = some '\r' then line.dropLast else line

/-- The lines among the pieces of a text between its newlines: a newline follows each piece but the
last, and the last is a line only if it holds something. -/
def linesOfPieces : List (List Char) → List (List Char)
  | [] => []
  | [last] => if last.isEmpty then [] else [last]
  | line :: rest => dropReturn line :: linesOfPieces rest

/-- The lines of a text, without their endings (`linesOfPieces`). -/
def lines (text : List Char) : List (List Char) :=
  linesOfPieces (text.splitOn '\n')

@[simp]
theorem lines_nil : lines [] = [] := by
  simp [lines, linesOfPieces]

/-- A text up to its first newline is its first line, and the other lines come from the rest. -/
theorem lines_append_newline {line : List Char} (h : '\n' ∉ line) (text : List Char) :
    lines (line ++ '\n' :: text) = dropReturn line :: lines text := by
  unfold lines
  rw [List.splitOn_append_cons_self_of_not_mem h]
  -- The rest has at least one piece, so a newline does follow the first one.
  cases pieces : text.splitOn '\n' with
  | nil => exact absurd pieces (List.splitOn_ne_nil '\n' text)
  | cons piece rest => rfl

end Text

/-! ## Number literals -/

namespace Literal

/-- The value of a digit, of either letter case, below `base`. -/
def digit? (base : Nat) (c : Char) : Option Nat :=
  let value? :=
    if '0' ≤ c ∧ c ≤ '9' then some (c.toNat - '0'.toNat)
    else if 'a' ≤ c ∧ c ≤ 'f' then some (c.toNat - 'a'.toNat + 10)
    else if 'A' ≤ c ∧ c ≤ 'F' then some (c.toNat - 'A'.toNat + 10)
    else none
  value?.filter (· < base)

/-- Reads digits after those that amount to `n`. There is no bound on the value. -/
def digits? (base : Nat) (n : Nat) : List Char → Option Nat
  | [] => some n
  | c :: rest => do
    let d ← digit? base c
    digits? base (base * n + d) rest

/-- The value of a sequence of one or more digits. -/
def numeral? (base : Nat) (word : List Char) : Option Nat :=
  if word.isEmpty then none else digits? base 0 word

/-- The value of a literal without its sign. -/
def magnitude? : List Char → Option Nat
  | '0' :: 'x' :: digits => numeral? 16 digits
  | '0' :: 'X' :: digits => numeral? 16 digits
  | digits => numeral? 10 digits

/-- The word of a value in the signed range. A value outside of it has none. -/
def word? (n : Int) : Option Int32 :=
  if Int32.minValue.toInt ≤ n ∧ n ≤ Int32.maxValue.toInt then some (Int32.ofInt n) else none

/-- The word with the bits of a value below two to the power 32. From two to the power 31 on it is
negative. -/
def pattern? (n : Nat) : Option Int32 :=
  if n < UInt32.size then some (Int32.ofNat n) else none

/-- The word that a literal means. A literal with a sign and a decimal one are held against the
signed range (`word?`), a hexadecimal one without a sign is taken for its bits (`pattern?`). -/
def read? : List Char → Option Int32
  | '-' :: unsigned => do word? (-(← magnitude? unsigned : Nat))
  | '+' :: unsigned => do word? (← magnitude? unsigned : Nat)
  | '0' :: 'x' :: digits => do pattern? (← numeral? 16 digits)
  | '0' :: 'X' :: digits => do pattern? (← numeral? 16 digits)
  | digits => do word? (← numeral? 10 digits : Nat)

/-- Whether a word is meant as a literal: it starts with a sign or a decimal digit. -/
def starts : List Char → Bool
  | c :: _ => c == '+' || c == '-' || c.isDigit
  | [] => false

end Literal

/-! ## Tokens -/

/-- A word of a listing: a name, or a number together with the text it was read from. -/
inductive Token where
  | name (text : String)
  | number (value : Int32) (text : String)
  deriving DecidableEq, Repr

namespace Token

/-- The word as it stands in the listing. -/
def text : Token → String
  | .name text => text
  | .number _ text => text

/-- Reads a word. Only a word that starts like a number and is no literal cannot be read. -/
def read? (word : List Char) : Option Token :=
  if Literal.starts word then
    (Literal.read? word).map fun value => .number value (String.ofList word)
  else
    some (.name (String.ofList word))

end Token

/-! ## Lines of a listing -/

/-- What is wrong with a line, with the word or the opcode that is to blame. -/
inductive LineError where
  | unknownInstruction (token : String)
  | missingImmediate (opcode : Opcode)
  | invalidNumber (token : String)
  | unexpectedToken (token : String)
  deriving DecidableEq, Repr

namespace LineError

/-- The wording of a mistake. -/
def message : LineError → String
  | .unknownInstruction token => "unknown instruction '" ++ token ++ "'"
  | .missingImmediate opcode => opcode.mnemonic ++ " expects an immediate"
  | .invalidNumber token => "invalid number '" ++ token ++ "'"
  | .unexpectedToken token => "unexpected token '" ++ token ++ "'"

end LineError

namespace Line

/-- A line up to its first comment sign, which is two semicolons. -/
def beforeComment : List Char → List Char
  | ';' :: ';' :: _ => []
  | c :: rest => c :: beforeComment rest
  | [] => []

/-- The words of a line in front of its comment. -/
def words (line : List Char) : List (List Char) :=
  Text.words (beforeComment line)

/-- Reads words as tokens up to the first bad number (`Token.read?`). -/
def tokens : List (List Char) → Except LineError (List Token)
  | [] => .ok []
  | word :: rest =>
    match Token.read? word with
    | some token => (tokens rest).map (token :: ·)
    | none => .error (.invalidNumber (String.ofList word))

/-- The instruction of an opcode with the tokens that follow it. A constant takes one number as its
immediate, the other opcodes take nothing. The first token that is too much is reported. -/
def instruction (opcode : Opcode) (operands : List Token) : Except LineError Instruction :=
  match Instruction.ofOpcode? opcode, operands with
  | some i, [] => .ok i
  | some _, token :: _ => .error (.unexpectedToken token.text)
  | none, [] => .error (.missingImmediate opcode)
  | none, .name text :: _ => .error (.unexpectedToken text)
  | none, [.number n _] => .ok (.const n)
  | none, .number _ _ :: token :: _ => .error (.unexpectedToken token.text)

/-- The instruction that the tokens of a line spell; a line without tokens has none. The first token
has to name an opcode (`Opcode.ofMnemonic?`). -/
def ofTokens : List Token → Except LineError (Option Instruction)
  | [] => .ok none
  | .number _ text :: _ => .error (.unexpectedToken text)
  | .name text :: operands =>
    match Opcode.ofMnemonic? text with
    | some opcode => (instruction opcode operands).map some
    | none => .error (.unknownInstruction text)

/-- Reads a line: its instruction if it has one, or its first mistake. -/
def read (line : List Char) : Except LineError (Option Instruction) := do
  ofTokens (← tokens (words line))

end Line

/-! ## Whole listings -/

/-- What is wrong with a listing: the first bad line and its mistake. -/
structure SyntaxError where
  /-- The number of the line, counted from one. -/
  line : Nat
  cause : LineError
  deriving DecidableEq, Repr

namespace SyntaxError

/-- The wording of the mistake, with the line in front. -/
def message (e : SyntaxError) : String :=
  "line " ++ toString e.line ++ ": " ++ e.cause.message

end SyntaxError

namespace Listing

/-- Reads lines, the first of which has number `line`. The first bad line ends the reading. -/
def readLines (line : Nat) : List (List Char) → Except SyntaxError (List Instruction)
  | [] => .ok []
  | text :: rest =>
    match Line.read text with
    | .ok instruction? => (readLines (line + 1) rest).map (instruction?.toList ++ ·)
    | .error cause => .error ⟨line, cause⟩

/-- Reads the characters of a listing. -/
def read (text : List Char) : Except SyntaxError (List Instruction) :=
  readLines 1 (Text.lines text)

/-- Text made of lines, each ended by a newline. -/
def unlines (lines : List String) : String :=
  String.join (lines.map (· ++ "\n"))

end Listing

namespace Program

/-- Reads a program from its listing, or tells the first bad line. -/
def ofListing (text : String) : Except SyntaxError Program :=
  (Listing.read text.toList).map ofList

/-- The canonical listing of a program, line by line. -/
def lines (p : Program) : List String :=
  p.toList.map (·.text)

/-- The canonical listing of a program: one instruction a line, each line ended by a newline. -/
def listing (p : Program) : String :=
  Listing.unlines p.lines

end Program

end Straightline
