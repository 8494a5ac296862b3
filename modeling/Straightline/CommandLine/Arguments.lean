/-!
# Arguments

The arguments name a command and its options. They are read from left to right, and reading stops at
the first argument that asks for help or that cannot stand where it is.
-/

namespace Straightline.CommandLine

/-- What the arguments ask for. -/
inductive Command where
  /-- Runs the listing at `path`, showing each step if `trace` is set. -/
  | run (path : String) (trace : Bool)
  /-- Prints the canonical form of the listing at `path`. -/
  | format (path : String)
  deriving DecidableEq, Repr

/-- Why no command comes from the arguments. -/
inductive Refusal where
  | help
  | usage
  deriving DecidableEq, Repr

namespace Refusal

/-- Asking for help is no failure. -/
def exitCode : Refusal → UInt8
  | .help => 0
  | .usage => 1

end Refusal

/-- The form of an argument. -/
inductive Argument where
  /-- The sign that only paths follow. -/
  | endOfFlags
  /-- A flag of two dashes and a name. -/
  | longFlag (name : String)
  /-- One dash and a cluster of flags of one letter each. -/
  | shortFlags (first : Char) (rest : List Char)
  /-- Anything else, a single dash included. -/
  | path (text : String)
  deriving DecidableEq, Repr

namespace Argument

/-- The form of an argument while flags are allowed. -/
def ofString (text : String) : Argument :=
  match text.toList with
  | ['-', '-'] => .endOfFlags
  | '-' :: '-' :: name => .longFlag (String.ofList name)
  | '-' :: first :: rest => .shortFlags first rest
  | _ => .path text

end Argument

/-- What was read of a command's own arguments so far: the path, if there was one, and whether the
trace flag was given. -/
structure Options where
  path? : Option String := none
  trace : Bool := false
  deriving DecidableEq, Repr

namespace Options

/-- Takes a path. There is room for one, and it is not empty. -/
def takePath (options : Options) (text : String) : Except Refusal Options :=
  if text.isEmpty || options.path?.isSome then .error .usage
  else .ok { options with path? := some text }

/-- Takes a long flag. The trace flag may stand once, where it is allowed at all. -/
def takeLongFlag (allowTrace : Bool) (options : Options) (name : String) :
    Except Refusal Options :=
  if name = "help" then .error .help
  else if name = "trace" && allowTrace && !options.trace then .ok { options with trace := true }
  else .error .usage

/-- The first flag of a cluster decides, since help is the only flag of one letter. -/
def refusalOfShort (first : Char) : Refusal :=
  if first = 'h' then .help else .usage

/-- Reads a command's own arguments, all of them paths once `pathsOnly` is set. The first argument
that cannot stand where it is ends the reading, and so does one that asks for help. -/
def read (allowTrace : Bool) (pathsOnly : Bool) (options : Options) :
    List String → Except Refusal Options
  | [] => .ok options
  | text :: rest =>
    if pathsOnly then do
      read allowTrace true (← options.takePath text) rest
    else
      match Argument.ofString text with
      | .endOfFlags => read allowTrace true options rest
      | .longFlag name => do
        read allowTrace false (← options.takeLongFlag allowTrace name) rest
      | .shortFlags first _ => .error (refusalOfShort first)
      | .path text => do
        read allowTrace false (← options.takePath text) rest

/-- The path, which has to be there. -/
def path (options : Options) : Except Refusal String :=
  match options.path? with
  | some path => .ok path
  | none => .error .usage

end Options

namespace Command

/-- The names of the commands. -/
def names : List String := ["run", "fmt", "help"]

/-- The refusal of a help command: help for at most one command by its name. -/
def refusalOfHelp : List String → Refusal
  | [] => .help
  | [name] => if name ∈ names then .help else .usage
  | _ => .usage

/-- Reads the whole list of arguments: the name of a command and its own arguments behind it, or a
request for help. -/
def ofArguments : List String → Except Refusal Command
  | [] => .error .usage
  | "run" :: rest => do
    let options ← Options.read true false {} rest
    return .run (← options.path) options.trace
  | "fmt" :: rest => do
    let options ← Options.read false false {} rest
    return .format (← options.path)
  | "help" :: rest => .error (refusalOfHelp rest)
  | text :: _ =>
    match Argument.ofString text with
    | .longFlag "help" => .error .help
    | .shortFlags first _ => .error (Options.refusalOfShort first)
    | _ => .error .usage

/-- The path of the listing a command works on. -/
def path : Command → String
  | .run path _ => path
  | .format path => path

end Command

end Straightline.CommandLine
