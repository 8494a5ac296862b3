/-!
# Reading files

A command reads one file as text. All that matters to it is what reading gives for the path, a text
or a `ReadError`, so commands work with any function from paths to such results.

A `Place` gives such a function (`Place.readText`): a working directory with its files, and whatever
directories are around it. Paths are followed as a file system does it. A path that starts with a
slash leads from the root, any other path from the working directory, and two dots lead to the
directory around. The name of an entry and a path as a whole are limited in length, counted in
bytes.
-/

namespace Straightline.CommandLine

/-- Why a file cannot be read as text. -/
inductive ReadError where
  | notFound
  | isDirectory
  | notDirectory
  | nameTooLong
  | invalidText
  /-- Anything else that the file system reports. -/
  | other (reason : String)
  deriving DecidableEq, Repr

namespace ReadError

/-- The wording of a failure to read. -/
def message : ReadError → String
  | .notFound => "No such file or directory (os error 2)"
  | .isDirectory => "Is a directory (os error 21)"
  | .notDirectory => "Not a directory (os error 20)"
  | .nameTooLong => "File name too long (os error 36)"
  | .invalidText => "stream did not contain valid UTF-8"
  | .other reason => reason

end ReadError

/-- Reads the bytes of a file as text, which has to be well-formed UTF-8. -/
def decodeText (bytes : ByteArray) : Except ReadError String :=
  match String.fromUTF8? bytes with
  | some text => .ok text
  | none => .error .invalidText

/-- A file with its bytes, or a directory with its entries by name. -/
inductive FileTree where
  | file (content : ByteArray)
  | directory (entries : List (String × FileTree))

namespace FileTree

/-- The empty directory. -/
def empty : FileTree := .directory []

/-- The steps of a path, which are the texts between its slashes. Some of them may be empty. -/
def components (path : String) : List String :=
  (path.toList.splitOn '/').map String.ofList

/-- The longest name of an entry, in bytes. -/
def maxNameSize : Nat := 255

/-- The longest path, in bytes. -/
def maxPathSize : Nat := 4095

/-- Walks along the steps of a path. The first node is where the walk stands, and `parents` are the
directories around it from the innermost to the root; above the root lies the root itself. Each step
has to begin in a directory, and only then does the length of its name matter. -/
def walk (node : FileTree) (parents : List FileTree) : List String → Except ReadError FileTree
  | [] => .ok node
  | step :: rest =>
    match node with
    | .file _ => .error .notDirectory
    | .directory entries =>
      if step = "" ∨ step = "." then walk node parents rest
      else if step = ".." then
        match parents with
        | parent :: others => walk parent others rest
        | [] => walk node [] rest
      else if maxNameSize < step.utf8ByteSize then .error .nameTooLong
      else
        match entries.lookup step with
        | some next => walk next (node :: parents) rest
        | none => .error .notFound

/-- Puts a node at the end of the given steps, adding directories on the way. What was there before
gives way to it. -/
def insert (node : FileTree) : List String → FileTree → FileTree
  | [], _ => node
  | step :: rest, tree =>
    let entries := match tree with
      | .directory entries => entries
      | .file _ => []
    let inner := insert node rest ((entries.lookup step).getD empty)
    .directory ((step, inner) :: entries.filter (·.1 != step))

/-- The working directory with the given nodes at the given paths. -/
def ofList (nodes : List (String × FileTree)) : FileTree :=
  nodes.foldl (fun tree (path, node) => insert node (components path) tree) empty

end FileTree

/-- Where paths are followed from: a directory and the directories it lies in. -/
structure Place where
  workingDirectory : FileTree
  /-- The directories around the working directory, from the innermost to the root. Where there is
  none, the working directory is the root. -/
  around : List FileTree := []

namespace Place

/-- The directory that lies in no other one, which is where a path with a slash in front starts. -/
def root (place : Place) : FileTree :=
  place.around.getLast?.getD place.workingDirectory

/-- The node at a path, found by `FileTree.walk` from the root or from the working directory. A path
that is too long leads nowhere. -/
def resolve (place : Place) (path : String) : Except ReadError FileTree :=
  if FileTree.maxPathSize < path.utf8ByteSize then .error .nameTooLong
  else if path.toList.head? = some '/' then place.root.walk [] (FileTree.components path)
  else place.workingDirectory.walk place.around (FileTree.components path)

/-- The bytes of the file at a path. -/
def readBytes (place : Place) (path : String) : Except ReadError ByteArray := do
  match ← place.resolve path with
  | .file content => .ok content
  | .directory _ => .error .isDirectory

/-- The text of the file at a path. This is the function that a command reads its listing with. -/
def readText (place : Place) (path : String) : Except ReadError String := do
  decodeText (← place.readBytes path)

/-- A place for trial runs: a directory among the temporary files of a system that has nothing else
but the device that is always empty. -/
def trial (workingDirectory : FileTree) : Place :=
  let temporary := FileTree.empty
  let devices := FileTree.directory [("null", .file .empty)]
  { workingDirectory, around := [temporary, .directory [("dev", devices), ("tmp", temporary)]] }

end Place

/-- A tree by itself stands for the trial runs in it. -/
instance : Coe FileTree (String → Except ReadError String) :=
  ⟨fun tree => (Place.trial tree).readText⟩

end Straightline.CommandLine
