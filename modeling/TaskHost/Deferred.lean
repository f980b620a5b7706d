/-
# Deferred results

A deferred is a cell that is filled once and emptied once. While its completer is
unused the cell is pending; using the completer fills it with a result and a
sequence number, dropping the completer cancels it; the first taker gets the
result and every later one finds the operation cancelled. A waiter drives its
host until the cell is filled.

Key definitions: `Completion`, `Deferred`, `Deferred.fill`, `Deferred.drop`,
`Deferred.tryTake`, `Deferred.waitWith`, `DeferredPair`, `DeferredPair.waitReady?`.
-/
import TaskHost.Host.Error
import TaskHost.Word

namespace TaskHost

/-- The outcome of an operation, with its place in the order of completions. -/
structure Completion (α : Type) where
  seq : Nat
  result : Except HostError α

/-- An operation whose completer was dropped: cancelled, after all others. -/
def Completion.cancelled {α : Type} : Completion α := ⟨maxWord, .error .cancelled⟩

/-- The cell of a deferred. -/
inductive Deferred (α : Type) where
  | pending
  | complete (completion : Completion α)
  | taken

namespace Deferred

variable {α : Type}

/-- Whether the completer has been used or dropped. -/
def isReady : Deferred α → Bool
  | .pending => false
  | _ => true

/-- The sequence number of a result that is there to be taken. -/
def seq? : Deferred α → Option Nat
  | .complete c => some c.seq
  | _ => none

/-- Using the completer fills a pending cell and changes no other. -/
def fill (d : Deferred α) (c : Completion α) : Deferred α :=
  match d with
  | .pending => .complete c
  | d => d

/-- Dropping the completer cancels a pending cell. -/
def drop (d : Deferred α) : Deferred α := d.fill .cancelled

/-- Takes the result, if the cell is not pending. -/
def tryTake : Deferred α → Option (Except HostError α) × Deferred α
  | .pending => (none, .pending)
  | .complete c => (some c.result, .taken)
  | .taken => (some (.error .cancelled), .taken)

/-- What one call of a waiter's driver does: it may use or drop the completer,
and tells whether driving can go on. -/
structure Drive (α : Type) where
  completion : Option (Completion α)
  goOn : Bool

/-- The driver has no more to do: it drops the completer and stops. -/
def Drive.giveUp {α : Type} : Drive α := ⟨some .cancelled, false⟩

/-- The cell after a drive call. -/
def Drive.apply (v : Drive α) (d : Deferred α) : Deferred α :=
  match v.completion with
  | some c => d.fill c
  | none => d

/-- How a wait ends: the result, none if the cell never fills, and the number of
drive calls made. -/
structure Waited (α : Type) where
  result : Option (Except HostError α)
  drives : Nat

/-- Waits by driving: while the cell is pending the next drive call is made, and
after a call that says to stop the cell is taken as it is. When the drives are
used up the driver gives up. -/
def waitWith (d : Deferred α) : List (Drive α) → Waited α
  | [] =>
    match d.tryTake.1 with
    | some r => ⟨some r, 0⟩
    | none => ⟨(Drive.giveUp.apply d).tryTake.1, 1⟩
  | v :: rest =>
    match d.tryTake.1 with
    | some r => ⟨some r, 0⟩
    | none =>
      let next := v.apply d
      if v.goOn then
        let w := next.waitWith rest
        ⟨w.result, w.drives + 1⟩
      else ⟨next.tryTake.1, 1⟩

end Deferred

/-- Both ends of a deferred: its cell, whether its completer is still unused, and
whether its waiter still holds it. -/
structure DeferredPair (α : Type) where
  cell : Deferred α
  isOpen : Bool
  isHeld : Bool

namespace DeferredPair

variable {α : Type}

def new : DeferredPair α := ⟨.pending, true, true⟩

def ready (c : Completion α) : DeferredPair α := ⟨.complete c, false, true⟩

/-- Uses the completer, if it is unused. -/
def complete? (p : DeferredPair α) (c : Completion α) : Option (DeferredPair α) :=
  if p.isOpen then some { p with cell := p.cell.fill c, isOpen := false } else none

/-- Drops the completer, if it is unused. -/
def drop? (p : DeferredPair α) : Option (DeferredPair α) := p.complete? .cancelled

/-- Takes the result, if it is there. -/
def tryTake (p : DeferredPair α) : Option (Except HostError α) × DeferredPair α :=
  let (r, cell) := p.cell.tryTake
  (r, { p with cell := cell })

/-- Waits until the result is there and leaves it where it is; none if the wait would
block, because the completer is unused. -/
def waitReady? (p : DeferredPair α) : Option Unit :=
  if p.cell.isReady then some () else none

/-- Waits for the result and gives the deferred up; none if the wait would block,
because the completer is unused. -/
def wait? (p : DeferredPair α) : Option (Except HostError α) × DeferredPair α :=
  match p.cell.tryTake with
  | (some r, cell) => (some r, { p with cell := cell, isHeld := false })
  | (none, _) => (none, p)

/-- Waits by driving and gives the deferred up. -/
def waitWith (p : DeferredPair α) (drives : List (Deferred.Drive α)) :
    Deferred.Waited α × DeferredPair α :=
  let w := p.cell.waitWith drives
  (w, { cell := .taken, isOpen := p.isOpen && w.result.isNone, isHeld := false })

end DeferredPair
end TaskHost
