import Straightline.CommandLine

/-!
# The program

Reads the arguments, the file they name and the verbosity in the environment, and writes what the
command answers.
-/

namespace Straightline.CommandLine

namespace ReadError

/-- The failure with a given system code, which may come negated. -/
def ofCode? (code : UInt32) : Option ReadError :=
  match min code (-code) with
  | 2 => some .notFound
  | 20 => some .notDirectory
  | 21 => some .isDirectory
  | 36 => some .nameTooLong
  | _ => none

/-- What a failure of the file system means for reading a listing. -/
def ofSystem (e : IO.Error) : ReadError :=
  let known? := match e with
    | .noFileOrDirectory _ code _ => ofCode? code
    | .inappropriateType _ code _ => ofCode? code
    | .invalidArgument _ code _ => ofCode? code
    | _ => none
  known?.getD (.other (toString e))

end ReadError

/-- The text shown when help is asked for, or when the arguments make no sense. -/
def usageText : String :=
  Listing.unlines
    [ "Usage: straightline <command>",
      "",
      "  run <path> [--trace]   run a listing and print the final stack",
      "  fmt <path>             print a listing in canonical form",
      "  help [command]         print this text" ]

/-- Reads the text of a file. -/
def readText (path : String) : IO (Except ReadError String) := do
  match ← (IO.FS.readBinFile path).toBaseIO with
  | .ok bytes => return decodeText bytes
  | .error e => return .error (.ofSystem e)

/-- Answers the arguments and returns the exit code. -/
def serve (arguments : List String) : IO UInt32 := do
  match Command.ofArguments arguments with
  | .error refusal =>
    match refusal with
    | .help => IO.print usageText
    | .usage => IO.eprint usageText
    return refusal.exitCode.toUInt32
  | .ok command =>
    let name? ← IO.getEnv "STRAIGHTLINE_LOG"
    let verbosity := (name?.bind Verbosity.ofName?).getD default
    let transcript := command.execute (← readText command.path)
    IO.print transcript.stdout
    IO.eprint (transcript.stderr verbosity)
    return transcript.exitCode.toUInt32

end Straightline.CommandLine

/-- The entry point of the program. -/
def main (arguments : List String) : IO UInt32 :=
  Straightline.CommandLine.serve arguments
