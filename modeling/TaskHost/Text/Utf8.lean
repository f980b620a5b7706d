/-
# Text as UTF-8 bytes

Writing a text as bytes never fails. Reading stops at the first byte that
cannot go on a well-formed sequence and tells how many bytes before it are
text, and whether the bytes after them are wrong or only cut off.

Key definitions: `Utf8.encode`, `Utf8.decode`, `Utf8.Invalid`, `Utf8.size`.
-/
import TaskHost.Text.Hex

namespace TaskHost
namespace Utf8

/-- The bytes of a text. -/
def encode (s : String) : Bytes := s.toList.flatMap String.utf8EncodeChar

/-- The number of bytes of a text. -/
def size : List Char → Nat
  | [] => 0
  | c :: rest => c.utf8Size + size rest

/-- Why bytes are no text: after `validUpTo` bytes of text come `badLength`
bytes that belong to no character, or the beginning of a character that is cut
off by the end. -/
structure Invalid where
  validUpTo : Nat
  badLength : Option Nat
  deriving DecidableEq, Repr

def Invalid.message (e : Invalid) : String :=
  match e.badLength with
  | some n => s!"invalid utf-8 sequence of {n} bytes from index {e.validUpTo}"
  | none => s!"incomplete utf-8 byte sequence from index {e.validUpTo}"

/-- The values that the second byte of a sequence may take after its first
byte, and how many bytes follow the first; none if no sequence begins so. -/
def lead? (b : Nat) : Option (Nat × Nat × Nat) :=
  if 0xC2 ≤ b ∧ b ≤ 0xDF then some (1, 0x80, 0xBF)
  else if b = 0xE0 then some (2, 0xA0, 0xBF)
  else if b = 0xED then some (2, 0x80, 0x9F)
  else if 0xE1 ≤ b ∧ b ≤ 0xEF then some (2, 0x80, 0xBF)
  else if b = 0xF0 then some (3, 0x90, 0xBF)
  else if 0xF1 ≤ b ∧ b ≤ 0xF3 then some (3, 0x80, 0xBF)
  else if b = 0xF4 then some (3, 0x80, 0x8F)
  else none

/-- A byte in a range. -/
def within (low high b : Nat) : Bool := low ≤ b && b ≤ high

/-- The characters of the bytes, of which `index` bytes have been read. -/
def decodeFrom (index : Nat) : Bytes → Except Invalid (List Char)
  | [] => .ok []
  | a :: rest =>
    if a.toNat < 0x80 then do return Char.ofNat a.toNat :: (← decodeFrom (index + 1) rest)
    else
      match lead? a.toNat with
      | none => .error ⟨index, some 1⟩
      | some (more, low, high) =>
        match rest with
        | [] => .error ⟨index, none⟩
        | b :: rest =>
          if !within low high b.toNat then .error ⟨index, some 1⟩
          else if more = 1 then do
            return Char.ofNat (a.toNat % 32 * 64 + b.toNat % 64) :: (← decodeFrom (index + 2) rest)
          else
            match rest with
            | [] => .error ⟨index, none⟩
            | c :: rest =>
              if !within 0x80 0xBF c.toNat then .error ⟨index, some 2⟩
              else if more = 2 then do
                return Char.ofNat ((a.toNat % 16 * 64 + b.toNat % 64) * 64 + c.toNat % 64) ::
                  (← decodeFrom (index + 3) rest)
              else
                match rest with
                | [] => .error ⟨index, none⟩
                | d :: rest =>
                  if !within 0x80 0xBF d.toNat then .error ⟨index, some 3⟩
                  else do
                    return Char.ofNat (((a.toNat % 8 * 64 + b.toNat % 64) * 64 + c.toNat % 64) * 64
                        + d.toNat % 64) :: (← decodeFrom (index + 4) rest)

/-- The text that bytes write, or where they stop being text. -/
def decode (bytes : Bytes) : Except Invalid String := (decodeFrom 0 bytes).map String.ofList

end Utf8
end TaskHost
