/-
# The command line

Options are read from left to right, and a later one overrides an earlier one.
The first argument that is no option, or has no valid value after it, ends the
reading with an error; an option that asks for help ends it with the usage.

Key definitions: `CommandLine.Setting`, `CommandLine.Error`, `CommandLine.parse`,
`CommandLine.usage`, `CommandLine.execute`.
-/
import TaskHost.Pool

namespace TaskHost
namespace CommandLine

/-- An option that wants a value. -/
inductive Setting where
  | workers
  | workload
  | diskRoot
  | logLevel
  deriving DecidableEq, Repr

/-- The long name of an option. -/
def Setting.name : Setting → String
  | .workers => "--workers"
  | .workload => "--workload"
  | .diskRoot => "--disk-root"
  | .logLevel => "--log-level"

/-- What an argument in the place of an option is. -/
inductive Switch where
  | setting (s : Setting)
  | quiet
  | help
  | unknown
  deriving DecidableEq, Repr

/-- Reads an argument in the place of an option. -/
def Switch.ofArgument (arg : String) : Switch :=
  if arg = "--workers" ∨ arg = "-w" then .setting .workers
  else if arg = "--workload" ∨ arg = "-f" then .setting .workload
  else if arg = "--disk-root" then .setting .diskRoot
  else if arg = "--log-level" then .setting .logLevel
  else if arg = "--quiet" then .quiet
  else if arg = "--help" ∨ arg = "-h" then .help
  else .unknown

/-- Why the arguments cannot be read. -/
inductive Error where
  | missingValue (setting : Setting)
  | invalidWorkerCount (value : String)
  | unknownLogLevel (name : String)
  | workload (error : WorkloadError)
  | unknownOption (arg : String)
  deriving DecidableEq, Repr

def Error.message : Error → String
  | .missingValue setting => s!"Missing value for {setting.name}"
  | .invalidWorkerCount value => s!"Invalid worker count: {value}"
  | .unknownLogLevel name => LogLevel.unknownMessage name
  | .workload error => error.message
  | .unknownOption arg => s!"Unknown option: {arg}"

/-- Reads a number of workers: decimal digits, after a plus sign or none, that fit
a word. -/
def workerCount? (value : String) : Option Nat :=
  let digits := match value.toList with
    | '+' :: rest => rest
    | cs => cs
  if digits.isEmpty || !digits.all Char.isDigit then none
  else
    let n := digits.foldl (fun n c => 10 * n + (c.toNat - 48)) 0
    if n ≤ maxWord then some n else none

/-- Sets what an option with a value sets. -/
def Setting.apply (load : String → Except WorkloadError Workload) (c : PoolConfig)
    (value : String) : Setting → Except Error PoolConfig
  | .workers =>
    match workerCount? value with
    | some n => .ok { c with workers := n }
    | none => .error (.invalidWorkerCount value)
  | .workload =>
    match load value with
    | .ok w => .ok { c with workload := w }
    | .error e => .error (.workload e)
  | .diskRoot => .ok { c with diskRoot := some value }
  | .logLevel =>
    match LogLevel.parse value with
    | .ok level => .ok { c with logLevel := level }
    | .error name => .error (.unknownLogLevel name)

/-- What the arguments ask for. -/
inductive Request where
  | run (config : PoolConfig)
  | help
  deriving DecidableEq, Repr

/-- Reads the arguments after the program's name, starting from a configuration. -/
def parse (load : String → Except WorkloadError Workload) :
    PoolConfig → List String → Except Error Request
  | c, [] => .ok (.run c)
  | c, arg :: rest =>
    match Switch.ofArgument arg with
    | .unknown => .error (.unknownOption arg)
    | .help => .ok .help
    | .quiet => parse load { c with echo := false } rest
    | .setting s =>
      match rest with
      | [] => .error (.missingValue s)
      | value :: more =>
        match s.apply load c value with
        | .ok c => parse load c more
        | .error e => .error e

/-- The usage of a program. -/
def usage (program : String) : List String :=
  ["Usage: " ++ program ++ " [OPTIONS]",
    "",
    "Options:",
    "  -w, --workers <N>        Worker threads (default: CPU count, max " ++ toString maxWorkers ++ ")",
    "  -f, --workload <FILE>    JSON workload manifest",
    "  --disk-root <DIR>        Serve file ops from DIR instead of memory",
    "  --log-level <LEVEL>      debug, info, warn (default) or error",
    "  --quiet                  Do not echo worker output",
    "  -h, --help               Show this help message",
    "",
    "Examples:",
    "  " ++ program ++ " --workers 2",
    "  " ++ program ++ " --workload demos/alpha_beta.json"]

/-- What a call of the program prints, and its exit code. -/
structure Outcome where
  exitCode : Nat
  printed : List PrintedLine
  deriving DecidableEq, Repr

/-- A line printed as an error, with a line feed at its end. -/
def errorLine (line : String) : PrintedLine := ⟨line ++ "\n", true⟩

/-- The usage, printed as errors. -/
def usageLines (program : String) : List PrintedLine := (usage program).map errorLine

/-- Runs a configuration with workers of the given ids. -/
def runConfig (c : PoolConfig) (ids : List WorkerId) : Outcome :=
  match Pool.create c with
  | .error e => ⟨1, [errorLine s!"Failed to create runtime: {e.message}"]⟩
  | .ok pool =>
    let (pool, report) := pool.launch ids
    ⟨if report.isSuccess then 0 else 1, if c.echo then pool.host.output else []⟩

/-- Carries out a call of the program with the arguments after its name. -/
def execute (program : String) (defaultWorkers : Nat)
    (load : String → Except WorkloadError Workload) (ids : List WorkerId) (args : List String) :
    Outcome :=
  match parse load (.ofWorkers defaultWorkers) args with
  | .error e => ⟨1, errorLine s!"error: {e.message}" :: usageLines program⟩
  | .ok .help => ⟨0, usageLines program⟩
  | .ok (.run c) => runConfig c ids

/-- The values of the options that name a manifest: the files that reading the
arguments can ask for. -/
def manifestPaths : List String → List String
  | [] => []
  | arg :: rest =>
    match Switch.ofArgument arg, rest with
    | .setting .workload, path :: more => path :: manifestPaths more
    | .setting _, _ :: more => manifestPaths more
    | _, rest => manifestPaths rest
termination_by args => args.length

end CommandLine
end TaskHost
