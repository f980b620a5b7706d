/-
# Paths below a host's root

A path given by a script is the list of its parts between slashes, without the
empty ones and the single dots. A path with a double dot is refused, because it
could leave the root, and so is one without parts.

Key definitions: `HostPath`, `HostPath.parts`, `HostPath.parse`,
`HostPath.toText`.
-/
import TaskHost.Host.Error

namespace TaskHost

/-- A path below a root, by its segments. -/
structure HostPath where
  segments : List String
  deriving DecidableEq, Repr

namespace HostPath

/-- The parts of a text between slashes. -/
def parts : List Char → List (List Char)
  | [] => [[]]
  | c :: rest =>
    if c = '/' then [] :: parts rest
    else
      match parts rest with
      | part :: more => (c :: part) :: more
      | [] => [[c]]

/-- Parts that name no step: the empty one and the single dot. -/
def isIdle (part : List Char) : Bool := part.isEmpty || part == ['.']

/-- The path that a text writes, or why there is none. -/
def parse (path : String) : Except IoCause HostPath :=
  let steps := (parts path.toList).filter fun p => !isIdle p
  if steps.any (· == ['.', '.']) then .error .escapesRoot
  else if steps.isEmpty then .error .emptyPath
  else .ok ⟨steps.map String.ofList⟩

/-- The segments with slashes between them. -/
def toText (p : HostPath) : String := "/".intercalate p.segments

end HostPath
end TaskHost
