/-
# Planned faults and outages

A fault plan makes the host itself misbehave a number of times: it gives an id
out without unqueueing it, it loses a registration, or it fails a read or a
fetch. The plan is counted up once; every call asks its counter, which goes down
as long as it is not zero.

An outage is a refusal on the way to the host: the call fails, or a timer is
cancelled, before the host sees it. It ends after a number of calls of its kind.

Key definitions: `Fault`, `FaultPlan`, `FaultCounts`, `FaultCounts.ofPlan`,
`Outages`.
-/
import TaskHost.Word

namespace TaskHost

/-- A planned misbehaviour of the host. -/
inductive Fault where
  | repeatPull
  | failReads (count : Nat)
  | failFetches (count : Nat)
  | dropRegistration
  deriving DecidableEq, Repr

/-- The faults a host is to show. -/
abbrev FaultPlan := List Fault

/-- The number of faults of each kind that are still to come. -/
structure FaultCounts where
  repeatPulls : Nat
  failingReads : Nat
  failingFetches : Nat
  droppedRegistrations : Nat
  deriving DecidableEq, Repr

namespace FaultCounts

/-- No fault. -/
def zero : FaultCounts := ⟨0, 0, 0, 0⟩

/-- Adds a fault to the counts. -/
def plan (c : FaultCounts) : Fault → Except Overflow FaultCounts
  | .repeatPull => do return { c with repeatPulls := ← addWord c.repeatPulls 1 }
  | .failReads n => do return { c with failingReads := ← addWord c.failingReads n }
  | .failFetches n => do return { c with failingFetches := ← addWord c.failingFetches n }
  | .dropRegistration => do
    return { c with droppedRegistrations := ← addWord c.droppedRegistrations 1 }

/-- The counts of a plan, if they fit words. -/
def ofPlan (faults : FaultPlan) : Except Overflow FaultCounts := faults.foldlM plan zero

/-- Whether no fault is left. -/
def isExhausted (c : FaultCounts) : Bool :=
  c.repeatPulls = 0 && c.failingReads = 0 && c.failingFetches = 0 && c.droppedRegistrations = 0

/-- Asks whether the next pull repeats. -/
def takeRepeatPull (c : FaultCounts) : Bool × FaultCounts :=
  (0 < c.repeatPulls, { c with repeatPulls := c.repeatPulls - 1 })

/-- Asks whether the next read fails. -/
def takeFailingRead (c : FaultCounts) : Bool × FaultCounts :=
  (0 < c.failingReads, { c with failingReads := c.failingReads - 1 })

/-- Asks whether the next fetch fails. -/
def takeFailingFetch (c : FaultCounts) : Bool × FaultCounts :=
  (0 < c.failingFetches, { c with failingFetches := c.failingFetches - 1 })

/-- Asks whether the next registration is lost. -/
def takeDroppedRegistration (c : FaultCounts) : Bool × FaultCounts :=
  (0 < c.droppedRegistrations, { c with droppedRegistrations := c.droppedRegistrations - 1 })

end FaultCounts

/-- The number of calls of each kind that are still to be refused; later calls
reach the host. -/
structure Outages where
  timers : Nat
  pulls : Nat
  registrations : Nat
  spawns : Nat
  deriving DecidableEq, Repr

namespace Outages

/-- Every call reaches the host. -/
def clear : Outages := ⟨0, 0, 0, 0⟩

end Outages
end TaskHost
