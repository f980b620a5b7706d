/-
# Blank characters

The characters with the Unicode property White_Space.

Key definitions: `Text.blankRanges`, `Text.isBlank`.
-/

namespace TaskHost
namespace Text

/-- The first and last characters of the runs of blank characters. -/
def blankRanges : List (Nat × Nat) :=
  [(0x09, 0x0D), (0x20, 0x20), (0x85, 0x85), (0xA0, 0xA0), (0x1680, 0x1680), (0x2000, 0x200A),
    (0x2028, 0x2029), (0x202F, 0x202F), (0x205F, 0x205F), (0x3000, 0x3000)]

/-- A character with the property White_Space. -/
def isBlankChar (c : Char) : Bool := blankRanges.any fun r => r.1 ≤ c.toNat && c.toNat ≤ r.2

/-- A text of blank characters only, such as the empty one. -/
def isBlank (s : String) : Bool := s.toList.all isBlankChar

end Text
end TaskHost
