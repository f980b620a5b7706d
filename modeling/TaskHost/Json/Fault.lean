/-
# Where a text stops being the JSON that is wanted

A fault has a cause and a place. A reader knows only what it has left to read, so
a fault keeps that and how many bytes it went beyond it; `Fault.position` turns
this into a line and a column, the number of bytes read on that line.

Key definitions: `Json.Cause`, `Json.Cause.message`, `Json.Fault`,
`Json.Fault.position`, `Json.Fault.message`.
-/
import TaskHost.Json.Printer
import TaskHost.Text.Quoted
import TaskHost.Text.Utf8

namespace TaskHost
namespace Json

/-- A value found where another kind of value was wanted. -/
inductive Found where
  | number (n : Number)
  | string (s : String)
  | bool (b : Bool)
  | null
  | sequence
  | map
  deriving DecidableEq, Repr

/-- How a found value is named. -/
def Found.describe : Found → String
  | .number (.whole n) => "integer `" ++ String.ofList (renderWhole n) ++ "`"
  | .number (.binary x) => "floating point `" ++ String.ofList (renderDouble x) ++ "`"
  | .string s => "string " ++ Text.quoted s
  | .bool true => "boolean `true`"
  | .bool false => "boolean `false`"
  | .null => "null"
  | .sequence => "sequence"
  | .map => "map"

/-- What is wrong with a text. The end of the text can come in a value, a list,
an object or a string; the other causes name what was found or wanted instead. -/
inductive Cause where
  | endInValue
  | endInList
  | endInObject
  | endInString
  | expectedColon
  | expectedListSeparator
  | expectedObjectSeparator
  | expectedIdent
  | expectedValue
  | keyMustBeString
  | trailingComma
  | trailingCharacters
  | invalidNumber
  | numberOutOfRange
  | invalidEscape
  | controlCharacter
  | loneSurrogate
  | unfinishedSurrogate
  | invalidType (found : Found) (wanted : String)
  | invalidValue (found : Found) (wanted : String)
  | invalidLength (length : Nat) (wanted : String)
  | missingField (name : String)
  | duplicateField (name : String)
  | unknownVariant (name : String) (wanted : String)
  deriving DecidableEq, Repr

/-- The text of a cause. -/
def Cause.message : Cause → String
  | .endInValue => "EOF while parsing a value"
  | .endInList => "EOF while parsing a list"
  | .endInObject => "EOF while parsing an object"
  | .endInString => "EOF while parsing a string"
  | .expectedColon => "expected `:`"
  | .expectedListSeparator => "expected `,` or `]`"
  | .expectedObjectSeparator => "expected `,` or `\x7d`"
  | .expectedIdent => "expected ident"
  | .expectedValue => "expected value"
  | .keyMustBeString => "key must be a string"
  | .trailingComma => "trailing comma"
  | .trailingCharacters => "trailing characters"
  | .invalidNumber => "invalid number"
  | .numberOutOfRange => "number out of range"
  | .invalidEscape => "invalid escape"
  | .controlCharacter => "control character (\\u0000-\\u001F) found while parsing a string"
  | .loneSurrogate => "lone leading surrogate in hex escape"
  | .unfinishedSurrogate => "unexpected end of hex escape"
  | .invalidType found wanted => s!"invalid type: {found.describe}, expected {wanted}"
  | .invalidValue found wanted => s!"invalid value: {found.describe}, expected {wanted}"
  | .invalidLength length wanted => s!"invalid length {length}, expected {wanted}"
  | .missingField name => "missing field `" ++ name ++ "`"
  | .duplicateField name => "duplicate field `" ++ name ++ "`"
  | .unknownVariant name wanted => "unknown variant `" ++ name ++ "`, expected " ++ wanted

/-- A cause, what was left to read when it came up, and how many bytes of that
had been looked at. -/
structure Fault where
  cause : Cause
  rest : List Char
  beyond : Nat
  deriving DecidableEq, Repr

namespace Fault

/-- A fault after everything before `rest` was taken. -/
def taken (cause : Cause) (rest : List Char) : Fault := ⟨cause, rest, 0⟩

/-- A fault seen by looking at the next byte, which the end of the text lacks. -/
def peeked (cause : Cause) (rest : List Char) : Fault := ⟨cause, rest, if rest.isEmpty then 0 else 1⟩

/-- The number of bytes of a text before the place of a fault. -/
def index (f : Fault) (text : List Char) : Nat := Utf8.size text - Utf8.size f.rest + f.beyond

end Fault

/-- A line, counted from one, and a number of bytes on it. -/
structure Position where
  line : Nat
  column : Nat
  deriving DecidableEq, Repr

/-- The position after `count` more bytes of a text, from a position on. -/
def Position.advance : Position → Nat → List Char → Position
  | p, _, [] => p
  | p, count, c :: rest =>
    if count = 0 then p
    else if c = '\n' then advance ⟨p.line + 1, 0⟩ (count - 1) rest
    else advance ⟨p.line, p.column + min count c.utf8Size⟩ (count - c.utf8Size) rest

/-- The place of a fault in the text it was found in. -/
def Fault.position (f : Fault) (text : List Char) : Position :=
  Position.advance ⟨1, 0⟩ (f.index text) text

/-- A cause with its place. -/
def Fault.message (f : Fault) (text : List Char) : String :=
  let p := f.position text
  s!"{f.cause.message} at line {p.line} column {p.column}"

end Json
end TaskHost
