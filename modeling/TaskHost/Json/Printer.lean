/-
# The compact text of a JSON value

No blanks stand outside strings. In a string only the quote, the backslash and
the control characters are escaped. Whole numbers are written in decimal, and
doubles in the fewest digits, by position from `0.00001` up to sixteen digits
before the point; a double that is no number is written `null`.

Key definitions: `Json.escapeChar`, `Json.quote`, `Json.render`, `Json.compact`.
-/
import TaskHost.Decimal
import TaskHost.Json.Value
import TaskHost.Text.Hex

namespace TaskHost
namespace Json

/-- Doubles are written by position while their first digit stands for `10 ^ -5`
to `10 ^ 15`, and with a signed exponent beyond. -/
def doubleFormat : Decimal.Format :=
  { firstPositional := -5, lastPositional := 15, exponentMark := 'e', plusSign := true }

/-- A character inside a string. -/
def escapeChar (c : Char) : List Char :=
  if c = '"' then ['\\', '"']
  else if c = '\\' then ['\\', '\\']
  else if c = '\n' then ['\\', 'n']
  else if c = '\r' then ['\\', 'r']
  else if c = '\t' then ['\\', 't']
  else if c = '\x08' then ['\\', 'b']
  else if c = '\x0c' then ['\\', 'f']
  else if c.toNat < 32 then '\\' :: 'u' :: Hex.fixed 4 c.toNat
  else [c]

/-- A string with its quotes. -/
def quote (s : List Char) : List Char := '"' :: (s.flatMap escapeChar ++ ['"'])

/-- A double that is a number, or `null`. -/
def renderDouble (x : Binary64) : List Char :=
  match x.parts? with
  | some p => doubleFormat.render p
  | none => ['n', 'u', 'l', 'l']

/-- A whole number in decimal. -/
def renderWhole (n : Int) : List Char :=
  match n with
  | .ofNat n => Nat.toDigits 10 n
  | .negSucc n => '-' :: Nat.toDigits 10 (n + 1)

/-- A number. -/
def Number.render : Number → List Char
  | .whole n => renderWhole n
  | .binary x => renderDouble x

mutual

/-- The characters of a value. -/
def render : Json → List Char
  | .null => ['n', 'u', 'l', 'l']
  | .bool true => ['t', 'r', 'u', 'e']
  | .bool false => ['f', 'a', 'l', 's', 'e']
  | .number n => n.render
  | .string s => quote s.toList
  | .array [] => ['[', ']']
  | .array (j :: rest) => '[' :: (j.render ++ renderItems rest)
  | .object [] => ['\x7b', '\x7d']
  | .object ((k, v) :: rest) => '\x7b' :: (quote k.toList ++ ':' :: (v.render ++ renderFields rest))

/-- The items of an array after its first one, and the bracket. -/
def renderItems : List Json → List Char
  | [] => [']']
  | j :: rest => ',' :: (j.render ++ renderItems rest)

/-- The fields of an object after its first one, and the brace. -/
def renderFields : List (String × Json) → List Char
  | [] => ['\x7d']
  | (k, v) :: rest => ',' :: (quote k.toList ++ ':' :: (v.render ++ renderFields rest))

end

/-- The compact text of a value. -/
def compact (j : Json) : String := String.ofList j.render

end Json
end TaskHost
