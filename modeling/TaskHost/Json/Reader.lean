/-
# Reading any JSON value

A text is read into a value. Numbers keep whether they are whole, and of fields
with one key the last one counts.

Key definitions: `Json.readValue`, `Json.read`.
-/
import TaskHost.Json.Decoder

namespace TaskHost
namespace Json

mutual

/-- Reads a value. Fuel bounds the values read, each of which takes a
character. -/
def readValue : Nat → List Char → Except Fault (Json × List Char)
  | 0, s => .error (.taken .endInValue s)
  | fuel + 1, s =>
    match skipBlanks s with
    | [] => .error (.taken .endInValue [])
    | '[' :: rest => do
      let (items, s) ← readArray fuel true rest
      return (.array items, s)
    | '\x7b' :: rest => do
      let (fields, s) ← readObject fuel true rest
      return (ofFields fields, s)
    | s => do
      let (found, s) ← scanFound s
      match found with
      | .null => return (.null, s)
      | .bool b => return (.bool b, s)
      | .number n => return (.number n, s)
      | .string t => return (.string t, s)
      | .sequence => return (.array [], s)
      | .map => return (.object [], s)

/-- Reads the items of an array and its closing bracket. -/
def readArray : Nat → Bool → List Char → Except Fault (List Json × List Char)
  | 0, _, s => .error (.taken .endInList s)
  | fuel + 1, first, s => do
    match ← nextItem first s with
    | none => return ([], ← endList s)
    | some s => do
      let (j, s) ← readValue fuel s
      let (rest, s) ← readArray fuel false s
      return (j :: rest, s)

/-- Reads the fields of an object and its closing brace. -/
def readObject : Nat → Bool → List Char → Except Fault (List (String × Json) × List Char)
  | 0, _, s => .error (.taken .endInObject s)
  | fuel + 1, first, s => do
    match ← nextKey first s with
    | none => return ([], (skipBlanks s).drop 1)
    | some s => do
      let (key, s) ← scanString s
      let s ← passColon s
      let (j, s) ← readValue fuel s
      let (rest, s) ← readObject fuel false s
      return ((String.ofList key, j) :: rest, s)

end

/-- The value that a text writes. -/
def read (text : String) : Except Fault Json :=
  decode (readValue (text.length + 1)) text.toList

end Json
end TaskHost
