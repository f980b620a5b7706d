/-
# Log entries and loggers

An entry has a level, the worker it comes from, a message and fields. A logger
keeps every entry it is given, in order, and prints those at or above its
threshold; warnings and errors are printed as errors.

Key definitions: `LogLevel`, `LogLevel.parse`, `LogEntry`, `LogEntry.render`,
`Logger`, `Logger.log`.
-/
import TaskHost.Host.Basic

namespace TaskHost

/-- How important an entry is. -/
inductive LogLevel where
  | debug
  | info
  | warn
  | error
  deriving DecidableEq, Repr

namespace LogLevel

/-- The levels in order of importance. -/
def rank : LogLevel → Nat
  | .debug => 0
  | .info => 1
  | .warn => 2
  | .error => 3

/-- At least as important. -/
def atLeast (a b : LogLevel) : Bool := b.rank ≤ a.rank

def name : LogLevel → String
  | .debug => "debug"
  | .info => "info"
  | .warn => "warn"
  | .error => "error"

/-- The names that are read, in lower case. -/
def names : List (String × LogLevel) :=
  [("debug", .debug), ("info", .info), ("warn", .warn), ("warning", .warn), ("error", .error)]

/-- The text in lower case, as far as its letters are ASCII. -/
def lowercase (s : String) : String := String.ofList (s.toList.map Char.toLower)

/-- Reads a name, in either case; the error is the name in lower case. -/
def parse (s : String) : Except String LogLevel :=
  match names.lookup (lowercase s) with
  | some level => .ok level
  | none => .error (lowercase s)

/-- The text that reports a name that is no level. -/
def unknownMessage (name : String) : String := s!"Unknown log level: {name}"

end LogLevel

/-- An entry of a log. -/
structure LogEntry where
  level : LogLevel
  source : Option WorkerId
  message : String
  fields : List (String × String)
  deriving DecidableEq, Repr

namespace LogEntry

/-- An entry without a source and fields. -/
def ofMessage (level : LogLevel) (message : String) : LogEntry := ⟨level, none, message, []⟩

/-- Adds a field at the end. -/
def withField (e : LogEntry) (key value : String) : LogEntry :=
  { e with fields := e.fields ++ [(key, value)] }

def field? (e : LogEntry) (key : String) : Option String := e.fields.lookup key

/-- The text of a field. -/
def renderField (f : String × String) : String := " " ++ f.1 ++ "=" ++ f.2

/-- The text of an entry: its level, source, message and fields. -/
def render (e : LogEntry) : String :=
  let source := match e.source with
    | some w => " worker " ++ w.short
    | none => ""
  "[" ++ e.level.name ++ "]" ++ source ++ " " ++ e.message
    ++ String.join (e.fields.map renderField) ++ "\n"

end LogEntry

/-- A log: the entries so far, the worker whose entries they are, and the least
level that is printed. -/
structure Logger where
  source : Option WorkerId
  threshold : LogLevel
  entries : List LogEntry
  deriving DecidableEq, Repr

namespace Logger

/-- A log without entries that prints information and what is above. -/
def ofSource (source : Option WorkerId) : Logger := ⟨source, .info, []⟩

/-- Changes the least level that is printed. -/
def withThreshold (l : Logger) (threshold : LogLevel) : Logger := { l with threshold := threshold }

/-- An entry as a log records it: one without a source gets the log's. -/
def attributed (l : Logger) (e : LogEntry) : LogEntry := { e with source := e.source <|> l.source }

/-- Records an entry, and prints it if it reaches the threshold. -/
def log (l : Logger) (h : Host) (e : LogEntry) : Logger × Host :=
  let e := l.attributed e
  let h := if e.level.atLeast l.threshold then h.print e.render (e.level.atLeast .warn) else h
  ({ l with entries := l.entries ++ [e] }, h)

def entriesAt (l : Logger) (level : LogLevel) : List LogEntry :=
  l.entries.filter fun e => e.level = level

end Logger
end TaskHost
