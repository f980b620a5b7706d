/-
# The files of a host

Files are kept in memory, by the segments of their paths, or in a directory
tree. Errors name the path as it was given.

Key definitions: `FileStore`, `FileStore.read`, `FileStore.write`,
`FileStore.remove`.
-/
import TaskHost.Host.Disk
import TaskHost.Host.Path

namespace TaskHost

/-- Files in memory, or in a directory tree. -/
inductive FileStore where
  | memory (files : List (List String × Bytes))
  | disk (root : Disk.Node)
  deriving Repr

namespace FileStore

/-- No file, in memory. -/
def empty : FileStore := .memory []

/-- No file, in a directory tree. -/
def emptyDisk : FileStore := .disk .empty

/-- The host error of a failed call on a directory tree. -/
def diskError (path : String) : Disk.Failure → HostError
  | .nulByte => .io path .nulByte
  | .os e => .ofOs path e

/-- The path that a script gave. -/
def resolve (path : String) : Except HostError HostPath :=
  (HostPath.parse path).mapError (.io path)

/-- The contents of a file. -/
def read (store : FileStore) (path : String) : Except HostError Bytes := do
  let p ← resolve path
  match store with
  | .memory files =>
    match files.lookup p.segments with
    | some contents => return contents
    | none => throw (.notFound path)
  | .disk root => (Disk.read root p.segments).mapError (diskError path)

/-- Puts a file, instead of one at the same path. -/
def write (store : FileStore) (path : String) (contents : Bytes) : FileStore × Except HostError Unit :=
  match resolve path with
  | .error e => (store, .error e)
  | .ok p =>
    match store with
    | .memory files =>
      (.memory ((p.segments, contents) :: files.filter fun f => f.1 ≠ p.segments), .ok ())
    | .disk root =>
      let (root, result) := Disk.write root p.segments contents
      (.disk root, result.mapError (diskError path))

/-- Removes a file. -/
def remove (store : FileStore) (path : String) : FileStore × Except HostError Unit :=
  match resolve path with
  | .error e => (store, .error e)
  | .ok p =>
    match store with
    | .memory files =>
      if (files.lookup p.segments).isSome then
        (.memory (files.filter fun f => f.1 ≠ p.segments), .ok ())
      else (store, .error (.notFound path))
    | .disk root =>
      match Disk.remove root p.segments with
      | .ok root => (.disk root, .ok ())
      | .error f => (store, .error (diskError path f))

end FileStore
end TaskHost
