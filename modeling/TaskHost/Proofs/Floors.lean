/-
# Many workers on one floor

A floor is a host with the clerks who use it: workers, each with its journal and its
desk. What happens there happens one thing at a time, in any order
(`Floor.Event`): a worker joins, a worker that is free begins an operation, a worker
takes its next turn, or somebody else calls the host. So the turns of different workers
interleave in every possible way.

A turn concerns the worker who takes it, and of the host only its context
(`Shift.keeps_turn`): for all other workers the host just goes on.

Key definitions: `Clerk`, `Floor`, `Floor.Event`, `Floor.happen`, `Floor.play`.
Key theorems: `Shift.keeps_turn`, `Floor.turn_others`.
-/
import TaskHost.Proofs.Chronicles
import TaskHost.Proofs.Turns

namespace TaskHost

/-! ### Floors -/

/-- A worker with its journal and its desk. -/
structure Clerk where
  worker : Worker
  journal : List Occurrence
  desk : Desk

/-- A clerk at a host. -/
def Clerk.at (c : Clerk) (h : Host) : Shift := ⟨⟨h, c.worker, c.journal⟩, c.desk⟩

/-- The clerk of a shift. -/
def Shift.clerk (s : Shift) : Clerk := ⟨s.station.worker, s.station.journal, s.desk⟩

/-- A clerk who has done nothing yet. -/
def Clerk.new (handle : ContextHandle) (threshold : Option LogLevel) : Clerk :=
  let worker := Worker.ofHandle handle
  ⟨(threshold.map worker.withLogThreshold).getD worker, [], .empty⟩

/-- A host and its clerks. -/
structure Floor where
  host : Host
  clerks : List Clerk

namespace Floor

/-- What happens on a floor. -/
inductive Event where
  | spawn (descriptor : ContextDescriptor) (threshold : Option LogLevel)
  | adopt (handle : ContextHandle) (threshold : Option LogLevel)
  | begins (clerk : Nat) (operation : Operation)
  | turns (clerk : Nat)
  | calls (call : Host.Call)

/-- The clerk whom an event is about. -/
def Event.clerk? : Event → Option Nat
  | .begins i _ => some i
  | .turns i => some i
  | _ => none

/-- A clerk begins an operation, unless another one has not come to its end. -/
def begin (f : Floor) (i : Nat) (op : Operation) : Floor :=
  match f.clerks[i]? with
  | some c =>
    if c.desk.agenda.isEmpty then
      { f with clerks := f.clerks.set i { c with desk := c.desk.begin op } }
    else f
  | none => f

/-- A clerk takes a turn, unless it is free or blocked. -/
def turn (f : Floor) (i : Nat) : Floor :=
  match f.clerks[i]? with
  | some c =>
    match (c.at f.host).turn? with
    | some s => ⟨s.station.host, f.clerks.set i s.clerk⟩
    | none => f
  | none => f

/-- The floor after an event. -/
def happen (f : Floor) : Event → Floor
  | .spawn d threshold =>
    match f.host.spawn d with
    | (h, .ok handle) => ⟨h, f.clerks ++ [.new handle threshold]⟩
    | (h, .error _) => { f with host := h }
  | .adopt handle threshold => { f with clerks := f.clerks ++ [.new handle threshold] }
  | .begins i op => f.begin i op
  | .turns i => f.turn i
  | .calls call => { f with host := call.serve f.host }

/-- The floor after events, in order. -/
def play (f : Floor) (events : List Event) : Floor := events.foldl happen f

end Floor

/-! ### A turn concerns one worker -/

namespace Station

variable {s t : Station}

theorem keeps_act (s : Station) (a : Action) : s.Keeps (s.act a).1 :=
  keeps_effect (effect_act a a.obeys_any)

theorem keeps_log (s : Station) (e : LogEntry) : s.Keeps (s.log e) :=
  keeps_act s (.log e)

theorem keeps_host {h : Host} (later : s.host.Later h) (contexts : h.contexts = s.host.contexts) :
    s.Keeps { s with host := h } := ⟨rfl, rfl, .of_contexts _ contexts later⟩

theorem keeps_drive (s : Station) : s.Keeps { s with host := s.host.drive.1 } :=
  keeps_host (Host.later_drive s.host) (Host.contexts_drive s.host)

end Station

namespace Shift

variable {s t : Shift}

theorem keeps_resume (s : Shift) (a : Action) (r : Except TaskError Answer) (cause : Cause) :
    s.station.Keeps (s.resume a r cause).station := by
  cases cause with
  | asked => exact .refl _
  | callback trigger scope rest =>
    unfold resume
    cases r with
    | ok answer => exact ⟨rfl, rfl, .refl _ _⟩
    | error e =>
      simp only
      split <;> exact ⟨rfl, rfl, .refl _ _⟩

theorem keeps_carryOut (s : Shift) (cause : Cause) (a : Action) :
    s.station.Keeps (s.carryOut cause a).station := by
  unfold carryOut
  split
  · exact Station.keeps_host (Host.later_setTimeout _ _) (Host.contexts_setTimeout _ _)
  · exact (Station.keeps_act s.station a).trans (keeps_resume ⟨_, s.desk⟩ a _ cause)

theorem keeps_await {cause : Cause} {a : Action} {σ : Signal} {stage : Stage}
    (turned : s.await? cause a σ stage = some t) : s.station.Keeps t.station := by
  cases stage with
  | looking =>
    simp only [await?] at turned
    split at turned
    · obtain rfl := Option.some.inj turned
      exact keeps_resume s a _ cause
    · obtain rfl := Option.some.inj turned
      exact .refl _
  | driving =>
    obtain rfl := Option.some.inj turned
    exact Station.keeps_drive s.station
  | blocked =>
    obtain ⟨c, -, rfl⟩ := Option.map_eq_some_iff.mp turned
    exact keeps_resume s a _ cause

theorem keeps_settle {origin : Option TaskId} {stage : Stage}
    (turned : s.settle? origin stage = some t) : s.station.Keeps t.station := by
  cases stage with
  | looking =>
    simp only [settle?] at turned
    split at turned
    · obtain rfl := Option.some.inj turned
      exact .refl _
    · split at turned <;> obtain rfl := Option.some.inj turned <;> exact ⟨rfl, rfl, .refl _ _⟩
  | driving =>
    obtain rfl := Option.some.inj turned
    exact Station.keeps_drive s.station
  | blocked =>
    simp only [settle?] at turned
    split at turned
    · obtain rfl := Option.some.inj turned
      exact .refl _
    · obtain ⟨c, -, rfl⟩ := Option.map_eq_some_iff.mp turned
      exact .refl _

theorem keeps_beginStep (s : Shift) (l : DispatchLoop) (more : List Chore) :
    s.station.Keeps (s.beginStep l more).station := by
  obtain ⟨state, report⟩ := l
  cases state with
  | idle => exact .refl _
  | pullPending =>
    have pulled := View.keeps_pull s.station
    simp only [beginStep]
    split
    · next t e h => rw [h] at pulled; exact pulled
    · next t task h => rw [h] at pulled; exact pulled
    · next t h => rw [h] at pulled; exact pulled
  | dispatching task =>
    simp only [beginStep]
    split
    · exact Station.keeps_log s.station _
    · next body t h =>
      obtain rfl : (s.station.takeCallback task).2 = t := congrArg Prod.snd h
      exact ⟨rfl, rfl, .refl _ _⟩
  | drained => exact .refl _

theorem keeps_take {c : Chore} (taken : s.take? c = some t) : s.station.Keeps t.station := by
  cases c with
  | ask a =>
    obtain rfl := Option.some.inj taken
    exact keeps_carryOut s .asked a
  | await cause a σ stage => exact keeps_await taken
  | goOn trigger scope body =>
    cases body with
    | nil =>
      obtain rfl := Option.some.inj taken
      exact ⟨rfl, rfl, .refl _ _⟩
    | cons a rest =>
      obtain rfl := Option.some.inj taken
      exact keeps_carryOut s (.callback trigger scope rest) a
  | conclude timer origin outcome =>
    obtain rfl := Option.some.inj taken
    cases outcome with
    | ok u => exact .refl _
    | error e => exact Station.keeps_log _ _
  | timers origin ready =>
    obtain rfl := Option.some.inj taken
    cases ready with
    | nil => exact .refl _
    | cons r rest =>
      simp only [nextTimer]
      split <;> exact ⟨rfl, rfl, .refl _ _⟩
  | settle origin stage => exact keeps_settle taken
  | finish task outcome =>
    obtain rfl := Option.some.inj taken
    cases outcome with
    | ok u => exact ⟨rfl, rfl, .refl _ _⟩
    | error e =>
      have finished : s.station.Keeps s.station.finishTask := ⟨rfl, rfl, .refl _ _⟩
      exact finished.trans (Station.keeps_log s.station.finishTask _)
  | sumUp =>
    simp only [take?] at taken
    split at taken <;> obtain rfl := Option.some.inj taken
    · exact Station.keeps_log _ _
    · exact .refl _
  | step again =>
    simp only [take?] at taken
    split at taken <;> obtain rfl := Option.some.inj taken
    · exact keeps_beginStep _ _ _
    · exact .refl _

/-- A turn concerns the worker and its context. -/
theorem keeps_turn (turned : s.turn? = some t) : s.station.Keeps t.station := by
  unfold turn? at turned
  split at turned
  · cases turned
  · have kept := keeps_take turned
    exact kept

end Shift

namespace Floor

variable {f : Floor} {i j : Nat} {c d : Clerk}

/-- A clerk's turn leaves the others as they are, and their contexts. -/
theorem turn_others (member : f.clerks[i]? = some c) (other : f.clerks[j]? = some d) (ne : j ≠ i)
    (apart : d.worker.bridge.context ≠ c.worker.bridge.context) :
    (f.turn i).clerks[j]? = some d
      ∧ (f.turn i).host.context? d.worker.bridge.context
        = f.host.context? d.worker.bridge.context := by
  unfold turn
  rw [member]
  simp only
  split
  · next s turned =>
    refine ⟨?_, (Shift.keeps_turn turned).host.others _ apart⟩
    rw [List.getElem?_set_ne ne.symm]
    exact other
  · exact ⟨other, rfl⟩

end Floor
end TaskHost
