/-
# The console

A console call prints its arguments on one line, after the tag of its stream:
each argument in its compact JSON text, with spaces between them. JSON text holds
no line feed, so every call is exactly one line.

Key definitions: `ConsoleStream`, `ConsoleStream.line`, `Host.consoleWrite`.
-/
import TaskHost.Host.Basic
import TaskHost.Json.Printer

namespace TaskHost

/-- The two streams of the console. -/
inductive ConsoleStream where
  | out
  | err
  deriving DecidableEq, Repr

namespace ConsoleStream

/-- The tag at the beginning of a line. -/
def tag : ConsoleStream → String
  | .out => "[out]: "
  | .err => "[err]: "

/-- Whether the stream is for errors. -/
def isError : ConsoleStream → Bool
  | .out => false
  | .err => true

/-- The texts of the arguments with spaces between them. -/
def joinArgs : List Json → List Char
  | [] => []
  | [j] => j.render
  | j :: rest => j.render ++ ' ' :: joinArgs rest

/-- The line that a call prints. -/
def line (s : ConsoleStream) (args : List Json) : String :=
  String.ofList (s.tag.toList ++ joinArgs args ++ ['\n'])

end ConsoleStream

/-- Prints a console call. -/
def Host.consoleWrite (h : Host) (s : ConsoleStream) (args : List Json) : Host :=
  h.print (s.line args) s.isError

end TaskHost
