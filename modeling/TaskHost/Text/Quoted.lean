/-
# Text in quotes, for messages

A message that names a text shows it in quotes, with an escape for everything a
reader could not see or could take for the end of the text.

Key definitions: `Text.escapeShown`, `Text.quoted`.
-/
import TaskHost.Text.Hex
import TaskHost.Text.Printable

namespace TaskHost
namespace Text

/-- How a character is shown inside quotes: the quote, the backslash, NUL, tab,
line feed and carriage return by a letter or a sign, any other character without
a shape by its number. -/
def escapeShown (c : Char) : List Char :=
  if c = '"' then ['\\', '"']
  else if c = '\\' then ['\\', '\\']
  else if c = '\x00' then ['\\', '0']
  else if c = '\t' then ['\\', 't']
  else if c = '\n' then ['\\', 'n']
  else if c = '\r' then ['\\', 'r']
  else if isShown c then [c]
  else '\\' :: 'u' :: '\x7b' :: (Hex.ofNat c.toNat ++ ['\x7d'])

/-- A text in quotes. -/
def quoted (s : String) : String :=
  String.ofList ('"' :: (s.toList.flatMap escapeShown ++ ['"']))

end Text
end TaskHost
