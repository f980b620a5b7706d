/-
# Task, worker and context ids

A task is named by a token of text. A worker is named by a 128-bit id and shown
by the first seven hexadecimal digits of it. A context is named either by the
serial number under which a host made it or by an id from elsewhere, which no
host knows.

Key definitions: `TaskId`, `Uuid`, `Uuid.parse?`, `Uuid.ofRandom`, `WorkerId.short`,
`ContextId`, `WorkerIdentity`.
-/
import TaskHost.Text.Hex

namespace TaskHost

/-- The name of a task. -/
structure TaskId where
  token : String
  deriving DecidableEq, Repr, Inhabited

namespace TaskId

/-- The task named by a number is named by its decimal digits. -/
def ofNat (n : Nat) : TaskId := ⟨toString n⟩

/-- Tokens are ordered by their characters, which is also the order of their
UTF-8 bytes. -/
def compare (a b : TaskId) : Ordering := Ord.compare a.token b.token

end TaskId

/-- An id of 128 bits. -/
structure Uuid where
  bits : BitVec 128
  deriving DecidableEq, Repr, Inhabited

namespace Uuid

/-- The 32 digits of an id. -/
def digits (u : Uuid) : List Char := Hex.fixed 32 u.bits.toNat

/-- The digits in groups of 8, 4, 4, 4 and 12, with hyphens between them. -/
def toText (u : Uuid) : String :=
  let d := u.digits
  String.ofList (d.take 8 ++ '-' :: ((d.drop 8).take 4 ++ '-' :: ((d.drop 12).take 4 ++ '-' ::
    ((d.drop 16).take 4 ++ '-' :: d.drop 20))))

/-- The id written by 32 digits. -/
def ofDigits? (ds : List Char) : Option Uuid :=
  if ds.length = 32 then (Hex.nat? ds).map fun n => ⟨BitVec.ofNat 128 n⟩ else none

/-- The id written with hyphens after 8, 12, 16 and 20 digits. -/
def ofHyphenated? (s : List Char) : Option Uuid :=
  if s.length = 36 ∧ s[8]? = some '-' ∧ s[13]? = some '-' ∧ s[18]? = some '-' ∧ s[23]? = some '-' then
    ofDigits? (s.take 8 ++ (s.drop 9).take 4 ++ (s.drop 14).take 4 ++ (s.drop 19).take 4 ++ s.drop 24)
  else none

/-- What stands before the hyphenated form of an id that is written as a URN; the
case of the letters does not matter. -/
def urnScheme : List Char := "urn:uuid:".toList

/-- Reads an id: 32 digits, or the hyphenated form, which may stand in braces or
after the URN scheme. -/
def parse? (s : String) : Option Uuid :=
  let cs := s.toList
  if cs.length = 32 then ofDigits? cs
  else if cs.length = 38 ∧ cs.head? = some '\x7b' ∧ cs.getLast? = some '\x7d' then
    ofHyphenated? (cs.drop 1).dropLast
  else if cs.length = 45 ∧ (cs.take 9).map Char.toLower = urnScheme then ofHyphenated? (cs.drop 9)
  else ofHyphenated? cs

/-- The id with random bits, which says by its version and variant that it is
random. -/
def ofRandom (bits : BitVec 128) : Uuid :=
  let version : BitVec 128 := 0x4 <<< 76 ||| 0x2 <<< 62
  let marks : BitVec 128 := 0xf <<< 76 ||| 0x3 <<< 62
  ⟨(bits &&& ~~~marks) ||| version⟩

end Uuid

/-- The name of a worker. -/
structure WorkerId where
  uuid : Uuid
  deriving DecidableEq, Repr, Inhabited

/-- A worker is shown by the first seven digits of its id. -/
def WorkerId.short (w : WorkerId) : String := String.ofList (w.uuid.digits.take 7)

/-- The name of a context: the serial number of a context that the host made, or
an id that no host made. -/
inductive ContextId where
  | spawned (serial : Nat)
  | foreign (uuid : Uuid)
  deriving DecidableEq, Repr

/-- How a context is named in messages. -/
def ContextId.toText : ContextId → String
  | .spawned serial => s!"Context({serial})"
  | .foreign uuid => s!"Context({uuid.toText})"

/-- The worker a context belongs to, if it belongs to one. -/
structure WorkerIdentity where
  worker : Option WorkerId
  deriving DecidableEq, Repr

/-- Whether there is a worker. -/
def WorkerIdentity.isWorker (i : WorkerIdentity) : Bool := i.worker.isSome

/-- The worker's short id, or `null` without a worker. -/
def WorkerIdentity.toText (i : WorkerIdentity) : String :=
  match i.worker with
  | some w => w.short
  | none => "null"

end TaskHost
