/-
# Sequential trace logs

A visit of a task is its being entered and its being left. Visits are in turn if none is left
before it was entered, and each is left before the next one is entered. A trace log that a checker
has followed is the log of some visits in turn, and then perhaps the entry of a task that is still
open; the checker's progress says which of the two it is, and when the last visit ended
(`TraceLog.Told`). Each event in order keeps that up (`TraceLog.Told.next`), and every log of this
form is followed (`TraceLog.Told.follow`). So the logs that a checker takes for sequential are
those of visits in turn, and no others (`TraceLog.sequential_iff_visits`).

Key definitions: `TraceLog.Visit`, `TraceLog.InTurn`, `TraceLog.Told`.
Key theorems: `TraceLog.next?_eq_some_iff`, `TraceLog.follow_eq_some_iff`,
`TraceLog.sequential_iff_visits`.
-/
import Mathlib.Data.List.Chain
import Mathlib.Data.List.Induction
import TaskHost.TraceLog

namespace TaskHost
namespace TraceLog

/-! ### Visits -/

/-- A task was entered at one time and left at another. -/
structure Visit where
  name : String
  entered : Instant
  left : Instant

/-- The events of a visit. -/
def Visit.events (v : Visit) : TraceLog := [.enter v.name v.entered, .exit v.name v.left]

/-- The log of visits that follow each other. -/
def ofVisits (visits : List Visit) : TraceLog := visits.flatMap Visit.events

/-- When the last of the visits ended. -/
def lastLeft (visits : List Visit) : Option Instant := visits.getLast?.map Visit.left

/-- Time goes on within each visit, and from each to the next. -/
structure InTurn (visits : List Visit) : Prop where
  within : ∀ v ∈ visits, v.entered ≤ v.left
  between : visits.IsChain fun v w => v.left ≤ w.entered

variable {visits : List Visit} {v : Visit} {log : TraceLog} {p q : Progress} {e : TraceEvent}

@[simp]
theorem ofVisits_concat (visits : List Visit) (v : Visit) :
    ofVisits (visits ++ [v])
      = ofVisits visits ++ [.enter v.name v.entered, .exit v.name v.left] := by
  simp [ofVisits, Visit.events]

@[simp]
theorem lastLeft_concat (visits : List Visit) (v : Visit) :
    lastLeft (visits ++ [v]) = some v.left := by
  simp [lastLeft]

theorem inTurn_nil : InTurn [] := ⟨by simp, .nil⟩

/-- One more visit is in turn if it begins after the last one ended. -/
theorem inTurn_concat : InTurn (visits ++ [v]) ↔
    InTurn visits ∧ (∀ t, lastLeft visits = some t → t ≤ v.entered) ∧ v.entered ≤ v.left := by
  have last : (∀ t, lastLeft visits = some t → t ≤ v.entered)
      ↔ ∀ u ∈ visits.getLast?, u.left ≤ v.entered := by
    simp [lastLeft]
  rw [last]
  constructor
  · rintro ⟨within, between⟩
    obtain ⟨earlier, -, next⟩ := List.isChain_append.mp between
    refine ⟨⟨fun u hu => within u (List.mem_append_left _ hu), earlier⟩, fun u hu => ?_, ?_⟩
    · exact next u hu v rfl
    · exact within v (by simp)
  · rintro ⟨⟨within, between⟩, next, forward⟩
    refine ⟨fun u hu => ?_, List.isChain_append.mpr ⟨between, .singleton v, fun u hu w hw => ?_⟩⟩
    · rcases List.mem_append.mp hu with hu | hu
      · exact within u hu
      · obtain rfl := List.mem_singleton.mp hu
        exact forward
    · obtain rfl : v = w := Option.some.inj hw
      exact next u hu

/-! ### One event -/

/-- An event in order: nothing is open and a task is entered, no earlier than the last one was
left; or the task that is open is left, no earlier than it was entered. -/
inductive Goes : Progress → TraceEvent → Progress → Prop
  | enter {last : Option Instant} (name : String) {clock : Instant}
      (after : ∀ t, last = some t → t ≤ clock) :
      Goes (.outside last) (.enter name clock) (.inside name clock)
  | exit (name : String) {since clock : Instant} (after : since ≤ clock) :
      Goes (.inside name since) (.exit name clock) (.outside (some clock))

/-- The progress goes on with an event in order, and with no other. -/
theorem next?_eq_some_iff : p.next? e = some q ↔ Goes p e q := by
  constructor
  · intro next
    cases p with
    | outside last =>
      cases e with
      | exit name clock => cases next
      | enter name clock =>
        by_cases early : last.any (fun t => clock < t) = true
        · simp [Progress.next?, early] at next
        · obtain rfl : Progress.inside name clock = q := by
            simpa [Progress.next?, early] using next
          refine .enter name fun t ht => ?_
          subst ht
          have late : ¬ clock < t := by simpa using early
          exact Nat.not_lt.mp late
    | inside name since =>
      cases e with
      | enter other clock => cases next
      | exit other clock =>
        by_cases own : name = other ∧ since ≤ clock
        · obtain rfl : Progress.outside (some clock) = q := by
            simpa [Progress.next?, own] using next
          obtain ⟨rfl, after⟩ := own
          exact .exit name after
        · simp [Progress.next?, own] at next
  · rintro (⟨name, after⟩ | ⟨name, after⟩)
    · rename_i last clock
      have early : last.any (fun t => clock < t) = false := by
        cases last with
        | none => rfl
        | some t =>
          have late : ¬ clock < t := Nat.not_lt.mpr (after t rfl)
          simpa using late
      simp [Progress.next?, early]
    · simp [Progress.next?, after]

/-! ### A whole log -/

/-- What the events so far have been: visits in turn, and perhaps the entry of a task that is
still open. -/
inductive Told : TraceLog → Progress → Prop
  | outside {visits : List Visit} (turns : InTurn visits) :
      Told (ofVisits visits) (.outside (lastLeft visits))
  | inside {visits : List Visit} (turns : InTurn visits) (name : String) {since : Instant}
      (after : ∀ t, lastLeft visits = some t → t ≤ since) :
      Told (ofVisits visits ++ [.enter name since]) (.inside name since)

/-- An event in order keeps up what is told. -/
theorem Told.next (told : Told log p) (goes : Goes p e q) : Told (log ++ [e]) q := by
  cases goes with
  | enter name after =>
    cases told with
    | outside turns => exact .inside turns name after
  | @exit name since clock forward =>
    cases told with
    | @inside visits turns _ _ after =>
      have more : InTurn (visits ++ [⟨name, since, clock⟩]) :=
        inTurn_concat.mpr ⟨turns, after, forward⟩
      have told := Told.outside more
      rwa [lastLeft_concat, ofVisits_concat, List.append_cons] at told

theorem follow_concat (p : Progress) (log : TraceLog) (e : TraceEvent) :
    follow p (log ++ [e]) = (follow p log).bind fun q => q.next? e := by
  simp [follow]

theorem follow_ofVisits (turns : InTurn visits) :
    follow (.outside none) (ofVisits visits) = some (.outside (lastLeft visits)) := by
  induction visits using List.reverseRecOn with
  | nil => rfl
  | append_singleton visits v ih =>
    obtain ⟨turns, after, forward⟩ := inTurn_concat.mp turns
    rw [ofVisits_concat, List.append_cons, follow_concat, follow_concat, ih turns, Option.bind_some,
      next?_eq_some_iff.mpr (.enter v.name after), Option.bind_some,
      next?_eq_some_iff.mpr (.exit v.name forward), lastLeft_concat]

/-- What a checker has followed is what its progress tells. -/
theorem follow_eq_some_iff : follow (.outside none) log = some p ↔ Told log p := by
  constructor
  · intro followed
    induction log using List.reverseRecOn generalizing p with
    | nil =>
      obtain rfl := Option.some.inj followed
      exact .outside inTurn_nil
    | append_singleton log e ih =>
      rw [follow_concat] at followed
      obtain ⟨q, before, next⟩ := Option.bind_eq_some_iff.mp followed
      exact (ih before).next (next?_eq_some_iff.mp next)
  · rintro (turns | ⟨turns, name, after⟩)
    · exact follow_ofVisits turns
    · rw [follow_concat, follow_ofVisits turns, Option.bind_some]
      exact next?_eq_some_iff.mpr (.enter name after)

/-- **The checker accepts the sequential logs and no others.** A log is sequential exactly if it
is the log of visits, each with the entry and the exit of one task, none left before it was
entered and none entered before the last one was left. -/
theorem sequential_iff_visits (log : TraceLog) : log.isSequential = true ↔
    ∃ visits : List Visit,
      log = visits.flatMap (fun v => [.enter v.name v.entered, .exit v.name v.left])
      ∧ (∀ v ∈ visits, v.entered ≤ v.left)
      ∧ visits.IsChain fun v w => v.left ≤ w.entered := by
  constructor
  · intro sequential
    unfold isSequential at sequential
    split at sequential
    · next last followed =>
      cases follow_eq_some_iff.mp followed with
      | @outside visits turns => exact ⟨visits, rfl, turns.within, turns.between⟩
    · cases sequential
  · rintro ⟨visits, rfl, within, between⟩
    have followed := follow_ofVisits ⟨within, between⟩
    unfold ofVisits Visit.events at followed
    rw [isSequential, followed]

/-- A task that is entered again before it is left. -/
example : isSequential [.enter "a" .start, .enter "a" .start, .exit "a" .start, .exit "a" .start]
    = false := by decide

end TraceLog
end TaskHost
