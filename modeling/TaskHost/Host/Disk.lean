/-
# A directory tree

Files live in directories that hold files and directories by name. A call walks
its path from the root: a missing name, a file in the middle of the path, or a
name that is too long stops it. Writing makes the directories that the path
needs, and these stay even if the file then cannot be written.

Key definitions: `Disk.Node`, `Disk.read`, `Disk.makeDirs`, `Disk.write`,
`Disk.remove`, `Disk.readFrom`.
-/
import TaskHost.Host.Error

namespace TaskHost
namespace Disk

/-- A file with its contents, or a directory with its entries. -/
inductive Node where
  | file (contents : Bytes)
  | dir (entries : List (String × Node))
  deriving Repr

/-- A directory without entries. -/
def Node.empty : Node := .dir []

/-- Why a call on a path fails: a name that no call can be given, or an error of
the operating system. -/
inductive Failure where
  | nulByte
  | os (error : OsError)
  deriving DecidableEq, Repr

/-- The longest name of an entry, in bytes. -/
def nameLimit : Nat := 255

/-- The number of bytes at which a path is too long. -/
def pathLimit : Nat := 4096

/-- The number of bytes of a path. -/
def pathSize (path : List String) : Nat :=
  path.foldr (fun name n => name.utf8ByteSize + n) (path.length - 1)

/-- Refuses a path that no call takes: one with a NUL in it, or too many bytes. -/
def checkPath (path : List String) : Except Failure Unit :=
  if path.any fun name => name.toList.contains '\x00' then .error .nulByte
  else if pathLimit ≤ pathSize path then .error (.os .nameTooLong)
  else .ok ()

/-- The entry of a directory, if the name is not too long. -/
def entry? (entries : List (String × Node)) (name : String) : Except OsError (Option Node) :=
  if nameLimit < name.utf8ByteSize then .error .nameTooLong else .ok (entries.lookup name)

/-- Puts an entry, instead of one of the same name. -/
def setEntry (entries : List (String × Node)) (name : String) (node : Node) : List (String × Node) :=
  (name, node) :: entries.filter fun e => e.1 ≠ name

/-- Removes an entry. -/
def dropEntry (entries : List (String × Node)) (name : String) : List (String × Node) :=
  entries.filter fun e => e.1 ≠ name

/-- Walks to the directory that holds the last name of a path and changes the
entry of that name there: `act` is given what is there, and gives what is to be
there. -/
def change (act : Option Node → Except OsError (Option Node)) :
    List String → Node → Except OsError Node
  | _, .file _ => .error .notADirectory
  | [], .dir _ => .error .isADirectory
  | [name], .dir entries => do
    match ← act (← entry? entries name) with
    | some node => return .dir (setEntry entries name node)
    | none => return .dir (dropEntry entries name)
  | name :: rest, .dir entries => do
    match ← entry? entries name with
    | none => throw .noEntry
    | some node => return .dir (setEntry entries name (← change act rest node))

/-- What stands at a path. -/
def find : List String → Node → Except OsError Node
  | [], node => .ok node
  | _ :: _, .file _ => .error .notADirectory
  | name :: rest, .dir entries => do
    match ← entry? entries name with
    | none => throw .noEntry
    | some node => find rest node

/-- Whether a directory stands at a path. -/
def isDir (root : Node) (path : List String) : Bool :=
  match find path root with
  | .ok (.dir _) => true
  | _ => false

/-- The contents of the file at a path. -/
def read (root : Node) (path : List String) : Except Failure Bytes := do
  checkPath path
  match find path root with
  | .ok (.file contents) => return contents
  | .ok (.dir _) => throw (.os .isADirectory)
  | .error e => throw (.os e)

/-- Puts a directory where there is nothing. -/
def newDir : Option Node → Except OsError (Option Node)
  | none => .ok (some .empty)
  | some _ => .error .fileExists

/-- Puts a file, but not instead of a directory. -/
def put (contents : Bytes) : Option Node → Except OsError (Option Node)
  | some (.dir _) => .error .isADirectory
  | _ => .ok (some (.file contents))

/-- Takes a file away. -/
def drop : Option Node → Except OsError (Option Node)
  | none => .error .noEntry
  | some (.dir _) => .error .isADirectory
  | some (.file _) => .ok none

/-- Makes one directory. -/
def makeDir (root : Node) (path : List String) : Except OsError Node := change newDir path root

/-- Makes the directory at a path given backwards. If one on the way is missing it
is made first; that the directory is there already is no failure. Gives the tree
as far as it got. -/
def makeDirsBack (root : Node) : List String → Node × Except OsError Unit
  | [] => (root, .ok ())
  | name :: back =>
    let path := (name :: back).reverse
    match makeDir root path with
    | .ok root => (root, .ok ())
    | .error e =>
      if e = .noEntry then
        match makeDirsBack root back with
        | (root, .error e) => (root, .error e)
        | (root, .ok ()) =>
          match makeDir root path with
          | .ok root => (root, .ok ())
          | .error e => if isDir root path then (root, .ok ()) else (root, .error e)
      else if isDir root path then (root, .ok ())
      else (root, .error e)

/-- Makes a directory and those on the way that are missing. -/
def makeDirs (root : Node) (path : List String) : Node × Except OsError Unit :=
  makeDirsBack root path.reverse

/-- Puts a file at a path, with the directories that it needs. -/
def write (root : Node) (path : List String) (contents : Bytes) : Node × Except Failure Unit :=
  match checkPath path.dropLast with
  | .error f => (root, .error f)
  | .ok () =>
    match makeDirs root path.dropLast with
    | (root, .error e) => (root, .error (.os e))
    | (root, .ok ()) =>
      match checkPath path with
      | .error f => (root, .error f)
      | .ok () =>
        match change (put contents) path root with
        | .ok root => (root, .ok ())
        | .error e => (root, .error (.os e))

/-- Removes the file at a path. -/
def remove (root : Node) (path : List String) : Except Failure Node := do
  checkPath path
  match change drop path root with
  | .ok root => return root
  | .error e => throw (.os e)

/-! ### Paths from a working directory -/

/-- Where a walk stands: in a file, or in a directory with those above it, each
given by its entries. -/
inductive Place where
  | file (contents : Bytes)
  | dir (entries : List (String × Node)) (above : List (List (String × Node)))

/-- A step of a walk. The topmost directory is its own parent. -/
def Place.step : Place → String → Except OsError Place
  | .file _, _ => .error .notADirectory
  | .dir entries above, name =>
    if name = "" ∨ name = "." then .ok (.dir entries above)
    else if name = ".." then
      match above with
      | [] => .ok (.dir entries [])
      | parent :: above => .ok (.dir parent above)
    else do
      match ← entry? entries name with
      | none => throw .noEntry
      | some (.file contents) => return .file contents
      | some (.dir inner) => return .dir inner (entries :: above)

/-- The contents of the file at a path as it is given to the operating system: it
begins in the root of the whole `system` if it begins with a slash, else in the
directory `working`, of whose parent nothing is known. The path is too long by
what it writes, steps that lead nowhere and all. -/
def readFrom (system working : List (String × Node)) (path : String) : Except OsError Bytes := do
  if path.isEmpty then throw .noEntry
  if pathLimit ≤ path.utf8ByteSize then throw .nameTooLong
  let start := if path.startsWith "/" then Place.dir system [] else .dir working [[]]
  match ← (path.splitOn "/").foldlM Place.step start with
  | .file contents => return contents
  | .dir .. => throw .isADirectory

end Disk
end TaskHost
