/-
# A journal that is already there

What a worker does, it does whatever its journal holds so far: the same moves,
with the journal before, are moves again (`View.moves_after`).

Key definitions: `Station.after`, `View.after`.
Key theorems: `Station.act_after`, `View.moves_after`.
-/
import TaskHost.Proofs.Views

namespace TaskHost
namespace Station

variable {law : HostCall → Prop} {s t : Station}

/-- The station with a journal before its own. -/
def after (journal : List Occurrence) (s : Station) : Station :=
  { s with journal := journal ++ s.journal }

theorem note_after (journal : List Occurrence) (s : Station) (o : Occurrence) :
    (s.after journal).note o = (s.note o).after journal := by
  simp [after, note]

theorem register_after (journal : List Occurrence) (s : Station) (task : TaskId) (body : Body) :
    (s.after journal).register task body
      = ((s.register task body).1.after journal, (s.register task body).2) := by
  have host : (s.after journal).host = s.host := rfl
  have worker : (s.after journal).worker = s.worker := rfl
  have context : (s.after journal).context = s.context := rfl
  unfold register
  rw [host, worker, context]
  obtain ⟨registry, h, r⟩ := s.worker.registry.register s.host s.context task body
  cases r with
  | error e => rfl
  | ok u => simp [after, note, withRegistry]

/-- The journal does not matter to what an action does. -/
theorem act_after (journal : List Occurrence) (s : Station) :
    ∀ a : Action, (s.after journal).act a = ((s.act a).1.after journal, (s.act a).2)
  | .call _ => rfl
  | .mark _ => rfl
  | .who => rfl
  | .register task body => by simp only [act, register_after]
  | .setTimeout _ _ => rfl
  | .console _ _ => rfl
  | .log _ => rfl
  | .pause _ => rfl
  | .fail _ => rfl
  | .attempt a => act_after journal s a

theorem deed_after (journal : List Occurrence) (h : Deed law s t) :
    Deed law (s.after journal) (t.after journal) := by
  cases h with
  | act a ha =>
    have acted := Deed.act (s.after journal) a ha
    rw [act_after] at acted
    exact acted
  | note o ho =>
    have noted : Deed law (s.after journal) _ := .note (s.after journal) o ho
    rw [note_after] at noted
    exact noted
  | poll => exact .poll (s.after journal)

theorem pull_after (journal : List Occurrence) (s : Station) :
    (s.after journal).pull = (s.pull.1.after journal, s.pull.2) := by
  have host : (s.after journal).host = s.host := rfl
  have context : (s.after journal).context = s.context := rfl
  unfold pull
  rw [host, context]
  obtain ⟨h, r⟩ := s.host.pull s.context
  cases r with
  | error e => rfl
  | ok task => simp [after, note]

end Station

namespace View

variable {law : HostCall → Prop} {v w : View}

/-- The view with a journal before its own. -/
def after (journal : List Occurrence) (v : View) : View := ⟨v.loops, v.station.after journal⟩

theorem move_after (journal : List Occurrence) (h : Move law v w) :
    Move law (v.after journal) (w.after journal) := by
  cases h with
  | deed loops h => exact .deed loops (Station.deed_after journal h)
  | enter pre post s => exact .enter pre post _
  | leave pre post l s free => exact .leave pre post l _ free
  | turn pre post l k s free free' skipped => exact .turn pre post l k _ free free' skipped
  | pull pre post report s =>
    have pulled : Move law ⟨pre ++ ⟨.pullPending, report⟩ :: post, s.after journal⟩ _ :=
      .pull pre post report (s.after journal)
    rw [Station.pull_after] at pulled
    exact pulled
  | take pre post report s task body registered =>
    have began := Station.note_after journal ((s.takeCallback task).2.beginTask task)
      (.began (.task task) (some task) (some task) body)
    have taken : Move law ⟨pre ++ ⟨.dispatching task, report⟩ :: post, s.after journal⟩ _ :=
      .take pre post report (s.after journal) task body registered
    exact Eq.mp (congrArg (fun t => Move law _ ⟨_, t⟩) began) taken
  | skip pre post report s task unregistered =>
    exact .skip pre post report (s.after journal) task unregistered
  | ended loops s task r =>
    have noted : Move law ⟨loops, s.after journal⟩ _ := .ended loops (s.after journal) task r
    rw [Station.note_after] at noted
    exact noted
  | finish loops s => exact .finish loops (s.after journal)

theorem moves_after (journal : List Occurrence) (h : Moves law v w) :
    Moves law (v.after journal) (w.after journal) := by
  induction h with
  | refl => exact .refl
  | tail _ step ih => exact ih.tail (move_after journal step)

end View
end TaskHost
