/-
# The program

Reads the manifests that the arguments name, draws ids for the workers, carries
out the call and prints what it says. Everything else is `CommandLine.execute`.
-/
import TaskHost.CommandLine

namespace TaskHost
namespace Program

/-- The operating system's error behind a failure. Some calls give its number
negated. -/
def osError : IO.Error → OsError
  | .alreadyExists _ code _ | .otherError code _ | .resourceBusy code _
  | .resourceVanished code _ | .unsupportedOperation code _ | .hardwareFault code _
  | .unsatisfiedConstraints code _ | .illegalOperation code _ | .protocolError code _
  | .timeExpired code _ | .interrupted _ code _ | .noFileOrDirectory _ code _
  | .invalidArgument _ code _ | .permissionDenied _ code _ | .resourceExhausted _ code _
  | .inappropriateType _ code _ | .noSuchThing _ code _ => ⟨code.toInt32.toInt.natAbs⟩
  | .unexpectedEof | .userError _ => ⟨5⟩

/-- The bytes of a file, or why there are none. -/
def contents (path : String) : IO (Except OsError Bytes) := do
  match ← (IO.FS.readBinFile path).toBaseIO with
  | .ok bytes => return .ok bytes.toList
  | .error e => return .error (osError e)

/-- Loads the manifests at some paths. -/
def load (paths : List String) : IO (String → Except WorkloadError Workload) := do
  let files ← paths.mapM fun path => return (path, ← contents path)
  return fun path => Workload.ofFile path ((files.lookup path).getD (.error .noEntry))

/-- A random id for a worker. -/
def drawId : IO WorkerId := do
  let bytes ← IO.getRandomBytes 16
  return ⟨.ofRandom (BitVec.ofNat 128 (bytes.toList.foldl (fun n b => 256 * n + b.toNat) 0))⟩

/-- The number of processors, at least one. -/
def processors : IO Nat := do
  match ← (IO.FS.lines "/proc/cpuinfo").toBaseIO with
  | .ok lines => return max 1 (lines.toList.countP fun line => line.startsWith "processor")
  | .error _ => return 1

/-- Prints a line where it belongs. -/
def print (l : PrintedLine) : IO Unit := if l.isError then IO.eprint l.line else IO.print l.line

/-- Carries out a call with the arguments after the program's name. -/
def run (args : List String) : IO UInt32 := do
  let outcome := CommandLine.execute (← IO.appPath).toString (min maxWorkers (← processors))
    (← load (CommandLine.manifestPaths args)) (← (List.replicate maxWorkers ()).mapM fun _ => drawId)
    args
  outcome.printed.forM print
  return outcome.exitCode.toUInt32

end Program
end TaskHost

/-- Carries out a call of the program. -/
def main (args : List String) : IO UInt32 := TaskHost.Program.run args
