/-
# Workloads

A workload names families of tasks; each family has the same number of members,
and a task's id is its family's name, a hyphen and the member's number. A
manifest is the JSON text of a workload, in which every field may be left out.

Installing a workload registers a callback for each task, which waits for the
workload's delay and then prints a line that names the worker and the task. The
ids are collected first; they are kept in one block of memory, and there may be
too many of them for that.

Key definitions: `Workload`, `Workload.taskIds`, `Workload.ofManifest`,
`Workload.ofFile`, `WorkloadError`, `Workload.collect`, `Workload.install`.
-/
import TaskHost.Json.Decoder
import TaskHost.Text.Blank
import TaskHost.Worker.Dispatch

namespace TaskHost

/-- Families of tasks, the size of each, and the delay of every task in
milliseconds. -/
structure Workload where
  mainTasks : List String
  subTasks : Nat
  delayMs : Nat
  deriving DecidableEq, Repr

namespace Workload

/-- Two families of two tasks, without a delay. -/
def standard : Workload := ⟨["alpha", "beta"], 2, 0⟩

def taskId (family : String) (member : Nat) : TaskId := ⟨family ++ "-" ++ toString member⟩

/-- The ids of all tasks, family by family. -/
def taskIds (w : Workload) : List TaskId :=
  w.mainTasks.flatMap fun family => (List.range w.subTasks).map (taskId family)

/-! ### Collecting the ids -/

/-- The bytes that an id takes in a list: where its text is, how long the text is,
and for how much there is room. -/
def idBytes : Nat := 24

/-- The room of a list that has come to hold a number of elements: it is doubled
whenever the list is full. -/
def doubled (count room : Nat) : Nat :=
  if room = 0 ∨ count ≤ room then room else doubled count (2 * room)
termination_by count - room

/-- The number of ids for which there is room once all of them have been collected.
With the first id there is room for its family, and for four ids at least. -/
def room (w : Workload) : Nat :=
  let count := w.mainTasks.length * w.subTasks
  if count = 0 then 0 else doubled count (max 4 w.subTasks)

/-- The ids of all tasks, in one block of memory. -/
def collect (w : Workload) : Except Overflow (List TaskId) :=
  if w.room * idBytes ≤ maxBytes then .ok w.taskIds else .error .capacity

end Workload

/-! ### Manifests -/

/-- Why a file cannot be read as text. -/
inductive ReadFailure where
  | os (error : OsError)
  | notText
  deriving DecidableEq, Repr

def ReadFailure.message : ReadFailure → String
  | .os error => error.message
  | .notText => "stream did not contain valid UTF-8"

/-- Why a workload cannot be loaded: its file cannot be read, its text is no
manifest, or a family's name is blank. -/
inductive WorkloadError where
  | unreadable (path : String) (failure : ReadFailure)
  | manifest (cause : Json.Cause) (position : Json.Position)
  | blankName (name : String)
  deriving DecidableEq, Repr

def WorkloadError.message : WorkloadError → String
  | .unreadable path failure => s!"Failed to read workload {path}: {failure.message}"
  | .manifest cause position =>
    s!"Invalid workload manifest: {cause.message} at line {position.line} column {position.column}"
  | .blankName name => s!"Invalid task name: {Text.quoted name}"

namespace Workload

/-- The fields of a manifest that have been read. -/
structure Parts where
  mainTasks : Option (List String)
  subTasks : Option Nat
  delayMs : Option Nat

/-- The fields of a manifest. -/
def fields : List (Json.Field Parts) :=
  [{ name := "main_tasks", isSet := fun p => p.mainTasks.isSome,
     read := fun p s => do
       let (v, s) ← Json.readList Json.readText s
       return ({ p with mainTasks := some v }, s) },
   { name := "sub_tasks", isSet := fun p => p.subTasks.isSome,
     read := fun p s => do
       let (v, s) ← Json.readNatural "usize" maxWord s
       return ({ p with subTasks := some v }, s) },
   { name := "delay_ms", isSet := fun p => p.delayMs.isSome,
     read := fun p s => do
       let (v, s) ← Json.readNatural "u64" maxWord s
       return ({ p with delayMs := some v }, s) }]

/-- The workload of a manifest: what is left out is as in the standard one. -/
def ofParts (p : Parts) : Workload :=
  ⟨p.mainTasks.getD standard.mainTasks, p.subTasks.getD standard.subTasks,
    p.delayMs.getD standard.delayMs⟩

def read (s : List Char) : Except Json.Fault (Workload × List Char) :=
  Json.readRecord "struct Workload" fields ⟨none, none, none⟩ (fun p => .ok (ofParts p))
    (fun p => .ok (ofParts p)) s

def toJson (w : Workload) : Json :=
  .object [("main_tasks", .array (w.mainTasks.map .string)), ("sub_tasks", .nat w.subTasks),
    ("delay_ms", .nat w.delayMs)]

/-- Refuses a workload with a blank family name. -/
def validate (w : Workload) : Except WorkloadError Workload :=
  match w.mainTasks.find? Text.isBlank with
  | some name => .error (.blankName name)
  | none => .ok w

def ofManifest (text : String) : Except WorkloadError Workload :=
  match Json.decode read text.toList with
  | .ok w => w.validate
  | .error f => .error (.manifest f.cause (f.position text.toList))

/-- Reads the manifest in a file, of which the bytes are given, or why there are
none. -/
def ofFile (path : String) (contents : Except OsError Bytes) : Except WorkloadError Workload :=
  match contents with
  | .error e => .error (.unreadable path (.os e))
  | .ok bytes =>
    match Utf8.decode bytes with
    | .error _ => .error (.unreadable path .notText)
    | .ok text => ofManifest text

/-! ### Installing -/

/-- The line that a task of the workload prints. -/
def taskLine (identity : WorkerIdentity) (task : TaskId) : String :=
  s!"[worker {identity.toText}] performing task {task.token}"

/-- The callback of a task. -/
def taskBody (identity : WorkerIdentity) (delay : Duration) (task : TaskId) : Body :=
  let line : Action := .console .out [.string (taskLine identity task)]
  if delay = .zero then [line] else [.pause delay, line]

/-- Registers callbacks for tasks, up to the first that is refused. -/
def registerAll (delay : Duration) : List TaskId → Station → Station × Except RegistryError Unit
  | [], s => (s, .ok ())
  | task :: rest, s =>
    match s.register task (taskBody s.worker.identity delay task) with
    | (s, .ok ()) => registerAll delay rest s
    | (s, .error e) => (s, .error e)

/-- Installs the workload at a station; gives the number of tasks. The delay may
be too long to be counted, or there may be too many ids. -/
def install (w : Workload) (s : Station) :
    Except Overflow (Station × Except RegistryError Nat) := do
  let delay ← Duration.ofMillis w.delayMs
  let ids ← w.collect
  let (s, r) := registerAll delay ids s
  return (s, r.map fun () => ids.length)

/-- What `install` comes to when the ids can be collected. -/
def installCollected (w : Workload) (s : Station) :
    Except Overflow (Station × Except RegistryError Nat) := do
  let delay ← Duration.ofMillis w.delayMs
  let (s, r) := registerAll delay w.taskIds s
  return (s, r.map fun () => w.taskIds.length)

end Workload
end TaskHost
