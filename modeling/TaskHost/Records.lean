/-
# The JSON forms of records

The data that a host and its workers exchange are written as JSON objects with
their fields in a fixed order, and read back from objects or arrays.

Key definitions: a `read` and a `toJson` for each of `TaskId`, `TimerId`,
`Instant`, `Duration`, `ContextDescriptor`, `ContextHandle`, `FetchResponse`,
`LogLevel`, `PrintedLine` and `DrainReport`.
-/
import TaskHost.Workload

namespace TaskHost

def Uuid.read (s : List Char) : Except Json.Fault (Uuid × List Char) := do
  let (text, s) ← Json.readText s
  match Uuid.parse? text with
  | some u => return (u, s)
  | none => throw (.taken (.invalidValue (.string text) "a UUID string") s)

def Uuid.toJson (u : Uuid) : Json := .string u.toText

def WorkerId.read (s : List Char) : Except Json.Fault (WorkerId × List Char) := do
  let (u, s) ← Uuid.read s
  return (⟨u⟩, s)

/-- A worker's id, or `null`, as JSON. -/
def WorkerId.optionToJson : Option WorkerId → Json
  | some w => w.uuid.toJson
  | none => .null

/-- Reads a context's id, which no host made. -/
def ContextId.read (s : List Char) : Except Json.Fault (ContextId × List Char) := do
  let (u, s) ← Uuid.read s
  return (.foreign u, s)

def ContextId.toJson : ContextId → Json
  | .foreign u => u.toJson
  | .spawned serial => .nat serial

def TaskId.read (s : List Char) : Except Json.Fault (TaskId × List Char) := do
  let (text, s) ← Json.readText s
  return (⟨text⟩, s)

def TaskId.toJson (t : TaskId) : Json := .string t.token

def TimerId.read (s : List Char) : Except Json.Fault (TimerId × List Char) := do
  let (n, s) ← Json.readNatural "u64" maxWord s
  return (⟨n⟩, s)

def TimerId.toJson (t : TimerId) : Json := .nat t.number

/-- The column of a count of nanoseconds. -/
def nanosColumn : Json.Column Nat := .required "nanos" (Json.readNatural "u64" maxWord)

def Instant.read (s : List Char) : Except Json.Fault (Instant × List Char) :=
  Json.readRecord1 "struct Instant" nanosColumn Instant.ofNanos s

def Instant.toJson (t : Instant) : Json := .object [("nanos", .nat t.nanos)]

def Duration.read (s : List Char) : Except Json.Fault (Duration × List Char) :=
  Json.readRecord1 "struct Duration" nanosColumn Duration.ofNanos s

def Duration.toJson (d : Duration) : Json := .object [("nanos", .nat d.nanos)]

def ContextDescriptor.read (s : List Char) : Except Json.Fault (ContextDescriptor × List Char) :=
  Json.readRecord2 "struct ContextDescriptor" (.required "name" Json.readText)
    (.optional "worker_id" WorkerId.read) ContextDescriptor.mk s

def ContextDescriptor.toJson (d : ContextDescriptor) : Json :=
  .object [("name", .string d.name), ("worker_id", WorkerId.optionToJson d.worker)]

def ContextHandle.read (s : List Char) : Except Json.Fault (ContextHandle × List Char) :=
  Json.readRecord3 "struct ContextHandle" (.required "context_id" ContextId.read)
    (.optional "worker_id" WorkerId.read) (.required "name" Json.readText) ContextHandle.mk s

def ContextHandle.toJson (h : ContextHandle) : Json :=
  .object [("context_id", h.context.toJson), ("worker_id", WorkerId.optionToJson h.worker),
    ("name", .string h.name)]

def FetchResponse.read (s : List Char) : Except Json.Fault (FetchResponse × List Char) :=
  Json.readRecord3 "struct FetchResponse" (.required "url" Json.readText)
    (.required "status" (Json.readNatural "u16" 65535)) (.required "body" Json.readText)
    FetchResponse.mk s

def FetchResponse.toJson (r : FetchResponse) : Json :=
  .object [("url", .string r.url), ("status", .nat r.status), ("body", .string r.body)]

def LogLevel.read (s : List Char) : Except Json.Fault (LogLevel × List Char) :=
  Json.readVariant "one of `debug`, `info`, `warn`, `error`"
    [("debug", .debug), ("info", .info), ("warn", .warn), ("error", .error)] s

def LogLevel.toJson (l : LogLevel) : Json := .string l.name

def PrintedLine.read (s : List Char) : Except Json.Fault (PrintedLine × List Char) :=
  Json.readRecord2 "struct PrintedLine" (.required "line" Json.readText)
    (.required "is_error" Json.readBool) PrintedLine.mk s

def PrintedLine.toJson (l : PrintedLine) : Json :=
  .object [("line", .string l.line), ("is_error", .bool l.isError)]

def DrainReport.read (s : List Char) : Except Json.Fault (DrainReport × List Char) :=
  Json.readRecord3 "struct DrainReport" (.required "executed" (Json.readList TaskId.read))
    (.required "failed" (Json.readList (Json.readPair "a tuple of size 2" TaskId.read Json.readText)))
    (.required "skipped" (Json.readList TaskId.read)) DrainReport.mk s

def DrainReport.toJson (r : DrainReport) : Json :=
  .object [("executed", .array (r.executed.map TaskId.toJson)),
    ("failed", .array (r.failed.map fun f => .array [f.1.toJson, .string f.2])),
    ("skipped", .array (r.skipped.map TaskId.toJson))]

end TaskHost
