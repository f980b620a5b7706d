/-
# Settling accounts for every timer

A settlement goes turn by turn, and before any turn an outage may come that cancels the
next timers which the worker sets (`Shift.Course`): since a turn sets at most one timer,
every set of timers can be cancelled. What the worker's functions do in one piece is one
such course (`Shift.course_turns`).

At every point of a course the ledger is balanced (`Settlement.Ledger`): what was handed
over, what is in hand and what waits are the timers that waited at first and those that were
set since; journal, log and the number of failures say of the handovers what they have to. A
turn leads from one phase of a settlement to another (`Settlement.Phase.turn`) and takes away
from the toil before it, so a course comes to its end, wherever it goes, and at its end
nothing is in hand and nothing waits (`Station.settle_accounts`).

Key definitions: `Shift.Course`, `Shift.toil`, `Settlement.Ledger`, `Settlement.Phase`,
`Settlement.Accounted`.
Key theorems: `Settlement.Phase.turn`, `Settlement.phase_course`, `Station.settle_accounts`.
-/
import Mathlib.Algebra.Ring.Nat
import TaskHost.Proofs.Handovers

namespace TaskHost

/-! ### Courses -/

namespace Shift

/-- The shift when the host is about to cancel a number of timers. -/
def obstruct (v : Shift) (refused : Nat) : Shift :=
  { v with station := { v.station with host := { v.station.host with
    outages := { v.station.host.outages with timers := refused } } } }

/-- The timer that a turn has set, which is the last one of those that wait. -/
def newTimers (v w : Shift) : List (WaitingTimer Signal Body) :=
  if v.station.worker.bridge.timers.nextId < w.station.worker.bridge.timers.nextId then
    w.station.worker.bridge.timers.waiting.getLast?.toList
  else []

/-- A number of turns, with any outages of timers between them, and the timers that were
set. -/
inductive Course : Nat → List (WaitingTimer Signal Body) → Shift → Shift → Prop
  | rest (v : Shift) : Course 0 [] v v
  | turn {n : Nat} {set : List (WaitingTimer Signal Body)} {v w x : Shift}
      (before : Course n set v w) (refused : Nat) (turned : (w.obstruct refused).turn? = some x) :
      Course (n + 1) (set ++ w.newTimers x) v x

/-- Turns that nobody disturbs are a course. -/
theorem course_turns {v w : Shift} (turns : Turns v w) : ∃ n set, Course n set v w := by
  induction turns with
  | refl => exact ⟨0, [], .rest v⟩
  | @tail w x _ turned ih =>
    obtain ⟨n, set, before⟩ := ih
    exact ⟨n + 1, _, .turn before w.station.host.outages.timers turned⟩

end Shift

/-! ### Toil -/

/-- What a wait still takes. -/
def Stage.toil : Stage → Nat
  | .looking => 3
  | .driving => 2
  | .blocked => 0

/-- A bound for the turns that a chore of a settlement takes. -/
def Chore.toil : Chore → Nat
  | .settle _ .looking => 2
  | .settle _ .driving => 1
  | .timers _ ready => 1 + 8 * readyWeight ready
  | .goOn _ _ body => 2 + 8 * Body.weight body
  | .await (.callback _ _ rest) _ _ stage => stage.toil + (2 + 8 * Body.weight rest)
  | .conclude .. => 1
  | _ => 0

namespace Station

/-- What the waiting timers will take: the callback of each, and to hand it out. -/
def timerToil (s : Station) : Nat :=
  8 * bodiesWeight (s.worker.bridge.timers.waiting.map WaitingTimer.callback)
    + 2 * s.worker.bridge.timers.waiting.length

/-- What a worker's timers will take, with the drives for which the host can be asked. -/
def toil (s : Station) : Nat := s.timerToil + 2 * s.host.timers.size

theorem toil_note (s : Station) (o : Occurrence) : (s.note o).toil = s.toil := rfl

theorem toil_log (s : Station) (e : LogEntry) : (s.log e).toil = s.toil := by
  have same : (s.log e).host.timers = s.host.timers := by
    simp only [log, Logger.log]
    split <;> rfl
  rw [toil, toil, same]
  rfl

/-- An action pays for the timer that it sets. -/
theorem Carries.toil {s t : Station} {a : Action} {r : Except TaskError Answer}
    {regs : List Occurrence} {new : List (WaitingTimer Signal Body)}
    (carries : s.Carries a r regs new t) : t.toil + 4 ≤ s.toil + 8 * a.weight := by
  have size := carries.size
  have weight := carries.weight
  have heavy := a.one_le_weight
  rw [Station.toil, Station.toil, timerToil, timerToil, carries.waiting, List.map_append,
    bodiesWeight_append, List.length_append]
  cases new with
  | nil =>
    simp only [List.map_nil, bodiesWeight, List.length_nil] at size ⊢
    omega
  | cons w more =>
    rw [List.length_cons] at size weight ⊢
    omega

theorem toil_drive {s : Station} (pending : s.host.timers.pending ≠ []) :
    ({ s with host := s.host.drive.1 } : Station).toil + 2 ≤ s.toil := by
  have fewer := (Host.drive_of_pending pending).2
  show s.timerToil + 2 * s.host.drive.1.timers.size + 2 ≤ s.timerToil + 2 * s.host.timers.size
  omega

theorem toil_takeReady (s : Station) :
    ({ s with worker := { s.worker with bridge := (s.worker.bridge.takeReady s.host).2 } } :
        Station).toil
      + 8 * readyWeight (s.worker.bridge.takeReady s.host).1
      + 2 * (s.worker.bridge.takeReady s.host).1.length = s.toil := by
  have weight := s.worker.bridge.weight_takeReady s.host
  have length := (s.worker.bridge.takeReady_due s.host).length_eq
  rw [List.length_append, List.length_map, List.length_map] at length
  simp only [toil, timerToil]
  omega

end Station

/-- A bound for the turns of a settlement. -/
def Shift.toil (v : Shift) : Nat := (v.desk.agenda.map Chore.toil).sum + v.station.toil

namespace Settlement

/-! ### The ledger of a settlement -/

variable {origin : Option TaskId} {s t u : Station} {set new : List (WaitingTimer Signal Body)}
  {ds : List Handover} {opened : List Occurrence} {hands ready : List (ReadyTimer Body)} {n : Nat}

/-- What was handed over, what the callback that is open has written and which timers are in
hand, some time after a settlement has begun at a station. -/
structure Ledger (origin : Option TaskId) (s : Station) (set : List (WaitingTimer Signal Body))
    (ds : List Handover) (opened : List Occurrence) (hands : List (ReadyTimer Body)) (t : Station)
    (number : Nat) : Prop where
  sound : ∀ d ∈ ds, d.Sound origin
  journal : t.journal = s.journal
    ++ (ds.flatMap (Handover.journal origin s.worker.registry.running) ++ opened)
  logger : t.worker.logger = s.worker.logger.record
    (ds.flatMap (Handover.entries origin) ++ logged opened)
  failures : number = ds.countP Handover.isFailure
  running : t.worker.registry.running = s.worker.registry.running
  handed : (ds.map Handover.timer ++ hands
      ++ t.worker.bridge.timers.waiting.map WaitingTimer.due).Perm
    ((s.worker.bridge.timers.waiting ++ set).map WaitingTimer.due)
  named : set.map WaitingTimer.entry
    = timersSet (ds.flatMap (Handover.journal origin s.worker.registry.running) ++ opened)
  answered : t.Answered

namespace Ledger

theorem opening (answered : s.Answered) : Ledger origin s [] [] [] [] s 0 where
  sound d member := by cases member
  journal := (List.append_nil _).symm
  logger := (Logger.record_nil _).symm
  failures := rfl
  running := rfl
  handed := by simp
  named := rfl
  answered := answered

theorem withHost (ledger : Ledger origin s set ds opened hands t n) {h : Host}
    (later : t.host.Later h) : Ledger origin s set ds opened hands { t with host := h } n :=
  { ledger with answered := ledger.answered.later later fun _ waits => waits }

/-- Timers are handed out. -/
theorem take (ledger : Ledger origin s set ds [] [] t n) :
    Ledger origin s set ds [] (t.worker.bridge.takeReady t.host).1
      { t with worker := { t.worker with bridge := (t.worker.bridge.takeReady t.host).2 } } n where
  sound := ledger.sound
  journal := ledger.journal
  logger := ledger.logger
  failures := ledger.failures
  running := ledger.running
  handed := by
    have split := t.worker.bridge.takeReady_due t.host
    have before := ledger.handed
    rw [List.append_nil] at before
    rw [List.append_assoc]
    exact (split.append_left _).trans before
  named := ledger.named
  answered := by
    refine ledger.answered.later (.refl t.host) fun w waits => ?_
    exact (List.mem_filter.mp waits).1

/-- The callback that is open writes something that neither sets timers nor logs. -/
theorem note (ledger : Ledger origin s set ds opened hands t n) {o : Occurrence}
    (unset : o.timer? = none) (unlogged : o.logs? = none) :
    Ledger origin s set ds (opened ++ [o]) hands (t.note o) n :=
  { ledger with
    journal := by
      show t.journal ++ [o] = _
      rw [ledger.journal]
      simp only [List.append_assoc]
    logger := by
      have same : logged (opened ++ [o]) = logged opened := by
        rw [logged_append, logged, logged, List.filterMap_cons, unlogged]
        exact List.append_nil _
      rw [same]
      exact ledger.logger
    named := by
      have same : timersSet [o] = [] := by
        rw [timersSet, List.filterMap_cons, unset]
        rfl
      rw [← List.append_assoc, timersSet_append, same, List.append_nil]
      exact ledger.named }

/-- The callback that is open carries out an action. -/
theorem acted (ledger : Ledger origin s set ds opened hands t n) {a : Action}
    {r : Except TaskError Answer} {regs : List Occurrence} (carries : t.Carries a r regs new u)
    (answered : u.Answered) (clock : Instant) :
    Ledger origin s (set ++ new) ds (opened ++ (regs ++ [.acted origin clock a r])) hands
      (u.note (.acted origin clock a r)) n where
  sound := ledger.sound
  journal := by
    show u.journal ++ [_] = _
    rw [carries.written, ledger.journal]
    simp only [List.append_assoc]
  logger := by
    have one : logged [.acted origin clock a r] = a.logs?.toList := by
      cases entry : a.logs? <;> simp [logged, Occurrence.logs?, entry]
    show u.worker.logger = _
    rw [carries.logger, ledger.logger, Logger.record_record, logged_append, logged_append,
      (silent_registrations carries.registered).2, one, List.nil_append, List.append_assoc]
  failures := ledger.failures
  running := carries.running.trans ledger.running
  handed := by
    show (_ ++ u.worker.bridge.timers.waiting.map _).Perm _
    rw [carries.waiting, List.map_append, ← List.append_assoc, ← List.append_assoc, List.map_append]
    exact ledger.handed.append_right _
  named := by
    have one : timersSet [.acted origin clock a r] = (a.timer? r).toList := by
      cases timer : a.timer? r <;> simp [timersSet, Occurrence.timer?, timer]
    rw [← List.append_assoc, timersSet_append, timersSet_append regs,
      (silent_registrations carries.registered).1, one, List.nil_append, List.map_append,
      carries.named, ledger.named]
  answered := answered

/-- A handover is concluded: its failure is logged and counted. -/
theorem conclude {d : Handover} (sound : d.Sound origin)
    (ledger : Ledger origin s set ds (d.journal origin s.worker.registry.running)
      (d.timer :: hands) t n) :
    (d.outcome = .ok () → Ledger origin s set (ds ++ [d]) [] hands t n)
    ∧ ∀ e, d.outcome = .error e → Ledger origin s set (ds ++ [d]) [] hands
      (t.log (.timerFailed d.timer.id e origin)) (n + 1) := by
  have common (k : Station) (m : Nat) (journal : k.journal = t.journal)
      (logger : k.worker.logger = t.worker.logger.record (d.report? origin).toList)
      (counted : m = n + [d].countP Handover.isFailure)
      (running : k.worker.registry.running = t.worker.registry.running)
      (bridge : k.worker.bridge = t.worker.bridge) (answered : k.Answered) :
      Ledger origin s set (ds ++ [d]) [] hands k m :=
    { sound := fun c member => by
        rcases List.mem_append.mp member with old | last
        · exact ledger.sound c old
        · rw [List.mem_singleton.mp last]
          exact sound
      journal := by
        rw [journal, ledger.journal, List.flatMap_append, List.flatMap_singleton, List.append_nil]
      logger := by
        rw [logger, ledger.logger, Logger.record_record, sound.logged_journal, List.flatMap_append,
          List.flatMap_singleton, Handover.entries]
        exact congrArg _ (by simp only [logged, List.filterMap_nil, List.append_nil,
          List.append_assoc])
      failures := by rw [counted, ledger.failures, List.countP_append]
      running := running.trans ledger.running
      handed := by
        rw [bridge, List.map_append, List.map_singleton, List.append_assoc (ds.map _)]
        exact ledger.handed
      named := by
        rw [List.flatMap_append, List.flatMap_singleton, List.append_nil]
        exact ledger.named
      answered := answered }
  constructor
  · intro well
    have quiet : d.report? origin = none := by rw [Handover.report?, well]
    refine common t n rfl ?_ ?_ rfl rfl ledger.answered
    · rw [quiet]
      exact (Logger.record_nil _).symm
    · simp [Handover.isFailure, well]
  · intro e failed
    refine common _ _ rfl ?_ ?_ rfl rfl ?_
    · rw [Handover.report?_eq failed]
      rfl
    · simp [Handover.isFailure, failed]
    · exact Station.answered_deeds ledger.answered (Station.deeds_log t _)

end Ledger

/-! ### The phases of a settlement -/

/-- What is on the agenda behind the timers of one batch. -/
def batch (origin : Option TaskId) (ready : List (ReadyTimer Body)) : List Chore :=
  [.timers origin ready, .settle origin .looking]

/-- Where a settlement may be between two turns: it looks for timers or drives the host, it
has a batch of timers to hand over, it runs the callback of one of them, it waits for the
end of a pause in this callback, it concludes a handover, or it is over. -/
inductive Phase (origin : Option TaskId) (s : Station) (set : List (WaitingTimer Signal Body)) :
    Shift → Prop
  | looking {t : Station} {d : Desk} {ds : List Handover} (free : d.agenda = [])
      (ledger : Ledger origin s set ds [] [] t d.failures) :
      Phase origin s set ⟨t, d.plan [.settle origin .looking]⟩
  | driving {t : Station} {d : Desk} {ds : List Handover} (free : d.agenda = [])
      (ledger : Ledger origin s set ds [] [] t d.failures) (pending : t.host.timers.pending ≠ []) :
      Phase origin s set ⟨t, d.plan [.settle origin .driving]⟩
  | handing {t : Station} {d : Desk} {ds : List Handover} {ready : List (ReadyTimer Body)}
      (free : d.agenda = []) (ledger : Ledger origin s set ds [] ready t d.failures) :
      Phase origin s set ⟨t, d.plan (batch origin ready)⟩
  | inside {t : Station} {d : Desk} {ds : List Handover} {r : ReadyTimer Body}
      {ready : List (ReadyTimer Body)} {os : List Occurrence} {rest : Body} (free : d.agenda = [])
      (fired : r.result = .ok ()) (underway : Underway origin r.callback os rest)
      (ledger : Ledger origin s set ds
        (.began (.timer r.id) origin s.worker.registry.running r.callback :: os) (r :: ready) t
        d.failures) :
      Phase origin s set ⟨t, d.plan (.goOn (.timer r.id) origin rest :: batch origin ready)⟩
  | pausing {t : Station} {d : Desk} {ds : List Handover} {r : ReadyTimer Body}
      {ready : List (ReadyTimer Body)} {os : List Occurrence} {a : Action} {rest : Body}
      {delay : Duration} {σ : Signal} {stage : Stage} (free : d.agenda = [])
      (fired : r.result = .ok ()) (underway : Underway origin r.callback os (a :: rest))
      (pauses : a.pause? = some delay) (answers : t.host.Answers σ)
      (going : stage = .looking ∨ stage = .driving ∧ t.host.completion? σ = none)
      (ledger : Ledger origin s set ds
        (.began (.timer r.id) origin s.worker.registry.running r.callback :: os) (r :: ready) t
        d.failures) :
      Phase origin s set ⟨t, d.plan (.await (.callback (.timer r.id) origin rest) a σ stage
        :: batch origin ready)⟩
  | concluding {t : Station} {d : Desk} {ds : List Handover} {c : Handover}
      {ready : List (ReadyTimer Body)} (free : d.agenda = []) (sound : c.Sound origin)
      (ledger : Ledger origin s set ds (c.journal origin s.worker.registry.running)
        (c.timer :: ready) t d.failures) :
      Phase origin s set ⟨t, d.plan (.conclude c.timer.id origin c.outcome :: batch origin ready)⟩
  | settled {t : Station} {d : Desk} {ds : List Handover} (free : d.agenda = [])
      (ledger : Ledger origin s set ds [] [] t d.failures)
      (none : t.worker.bridge.timers.waiting = []) : Phase origin s set ⟨t, d⟩

/-- What the next turn of a settlement does: it leads to another phase, and takes away from
the toil. -/
def Proceeds (origin : Option TaskId) (s : Station) (set : List (WaitingTimer Signal Body))
    (v : Shift) : Prop :=
  ∃ w, v.turn? = some w ∧ Phase origin s (set ++ v.newTimers w) w ∧ w.toil < v.toil

theorem proceeds_quiet {v w : Shift} (turned : v.turn? = some w)
    (same : w.station.worker.bridge.timers.nextId = v.station.worker.bridge.timers.nextId)
    (phase : Phase origin s set w) (less : w.toil < v.toil) : Proceeds origin s set v := by
  have unset : v.newTimers w = [] := by
    rw [Shift.newTimers, if_neg (by omega)]
  refine ⟨w, turned, ?_, less⟩
  rw [unset, List.append_nil]
  exact phase

section

variable {d : Desk} {r : ReadyTimer Body}

theorem toil_cons (t : Station) (d : Desk) (c : Chore) (chores : List Chore) :
    (⟨t, d.plan (c :: chores)⟩ : Shift).toil = c.toil + (⟨t, d.plan chores⟩ : Shift).toil := by
  simp only [Shift.toil, Desk.plan, List.cons_append, List.map_cons, List.sum_cons, Nat.add_assoc]

theorem toil_settle (free : d.agenda = []) (t : Station) (origin : Option TaskId) (stage : Stage) :
    (⟨t, d.plan [.settle origin stage]⟩ : Shift).toil
      = (Chore.settle origin stage).toil + t.toil := by
  rw [toil_cons, Shift.toil, Desk.plan, free]
  simp

theorem toil_batch (free : d.agenda = []) (t : Station) (origin : Option TaskId)
    (ready : List (ReadyTimer Body)) :
    (⟨t, d.plan (batch origin ready)⟩ : Shift).toil = 3 + 8 * readyWeight ready + t.toil := by
  rw [batch, toil_cons, toil_settle free]
  simp only [Chore.toil]
  omega

theorem readyWeight_cons (r : ReadyTimer Body) (ready : List (ReadyTimer Body)) :
    readyWeight (r :: ready) = 1 + Body.weight r.callback + readyWeight ready := rfl

/-- A look for timers: none waits, or some are handed out, or the host is to be driven. -/
theorem proceeds_looking (free : d.agenda = [])
    (ledger : Ledger origin s set ds [] [] t d.failures) :
    Proceeds origin s set ⟨t, d.plan [.settle origin .looking]⟩ := by
  by_cases none : t.worker.bridge.timers.waiting = []
  · have turned : (⟨t, d.plan [.settle origin .looking]⟩ : Shift).turn? = some ⟨t, d⟩ := by
      have empty : t.worker.bridge.timers.waiting.isEmpty = true := by rw [none]; rfl
      show (⟨t, d⟩ : Shift).settle? origin .looking = _
      simp only [Shift.settle?, empty, if_true]
    refine proceeds_quiet turned rfl (.settled free ledger none) ?_
    rw [toil_settle free, Shift.toil, free]
    simp [Chore.toil]
  · let ready := (t.worker.bridge.takeReady t.host).1
    let k : Station :=
      { t with worker := { t.worker with bridge := (t.worker.bridge.takeReady t.host).2 } }
    have turned : (⟨t, d.plan [.settle origin .looking]⟩ : Shift).turn? = some ⟨k, d.plan
        (if ready.isEmpty then [.settle origin .driving] else batch origin ready)⟩ :=
      Shift.settle?_looking (h := t.host) none rfl origin t d
    have ledger' : Ledger origin s set ds [] ready k d.failures := ledger.take
    have less : k.toil + 8 * readyWeight ready + 2 * ready.length = t.toil := t.toil_takeReady
    cases found : ready with
    | nil =>
      have pending := Bridge.pending_of_takeReady ledger.answered none found
      rw [found] at turned ledger'
      refine proceeds_quiet turned rfl (.driving free ledger' pending) ?_
      show (⟨k, d.plan [.settle origin .driving]⟩ : Shift).toil < _
      rw [toil_settle free, toil_settle free]
      simp only [Chore.toil]
      omega
    | cons r rest =>
      rw [found] at turned ledger' less
      refine proceeds_quiet turned rfl (.handing free ledger') ?_
      show (⟨k, d.plan (batch origin (r :: rest))⟩ : Shift).toil < _
      rw [toil_batch free, toil_settle free]
      simp only [Chore.toil]
      rw [List.length_cons] at less
      omega

/-- A drive, which fires a timer. -/
theorem proceeds_driving (free : d.agenda = [])
    (ledger : Ledger origin s set ds [] [] t d.failures) (pending : t.host.timers.pending ≠ []) :
    Proceeds origin s set ⟨t, d.plan [.settle origin .driving]⟩ := by
  have fired : t.host.drive.2 = true := (Host.drive_eq_true_iff t.host).mpr pending
  have turned : (⟨t, d.plan [.settle origin .driving]⟩ : Shift).turn?
      = some ⟨{ t with host := t.host.drive.1 }, d.plan [.settle origin .looking]⟩ := by
    show some (_ : Shift) = _
    rw [fired]
    rfl
  have less := Station.toil_drive pending
  refine proceeds_quiet turned rfl (.looking free (ledger.withHost (Host.later_drive t.host))) ?_
  rw [toil_settle free, toil_settle free]
  simp only [Chore.toil]
  omega

/-- The next timer of a batch: its callback begins, or it was cancelled. -/
theorem proceeds_handing (free : d.agenda = [])
    (ledger : Ledger origin s set ds [] ready t d.failures) :
    Proceeds origin s set ⟨t, d.plan (batch origin ready)⟩ := by
  cases ready with
  | nil =>
    have turned : (⟨t, d.plan (batch origin [])⟩ : Shift).turn?
        = some ⟨t, d.plan [.settle origin .looking]⟩ := rfl
    refine proceeds_quiet turned rfl (.looking free ledger) ?_
    rw [toil_settle free, toil_batch free]
    simp only [Chore.toil]
    omega
  | cons r rest =>
    have weight := readyWeight_cons r rest
    cases result : r.result with
    | ok u =>
      let began : Occurrence := .began (.timer r.id) origin s.worker.registry.running r.callback
      have turned : (⟨t, d.plan (batch origin (r :: rest))⟩ : Shift).turn?
          = some ⟨t.note began, d.plan (.goOn (.timer r.id) origin r.callback :: batch origin rest)⟩ := by
        show some ((⟨t, d.plan [.settle origin .looking]⟩ : Shift).nextTimer origin (r :: rest)) = _
        simp only [Shift.nextTimer, result, began, ← ledger.running]
        rfl
      have opened : Ledger origin s set ds [began] (r :: rest) (t.note began) d.failures :=
        ledger.note rfl rfl
      refine proceeds_quiet turned rfl (.inside free result .begun opened) ?_
      · rw [toil_cons, toil_batch free, toil_batch free, Station.toil_note, weight]
        simp only [Chore.toil]
        omega
    | error e =>
      let c : Handover := ⟨r, [], .error (.host e)⟩
      have turned : (⟨t, d.plan (batch origin (r :: rest))⟩ : Shift).turn?
          = some ⟨t, d.plan (.conclude c.timer.id origin c.outcome :: batch origin rest)⟩ := by
        show some ((⟨t, d.plan [.settle origin .looking]⟩ : Shift).nextTimer origin (r :: rest)) = _
        simp only [Shift.nextTimer, result]
        rfl
      have silent : c.journal origin s.worker.registry.running = [] :=
        Handover.journal_cancelled result
      have sound : c.Sound origin := .rejected e result rfl rfl
      rw [← silent] at ledger
      refine proceeds_quiet turned rfl (.concluding free sound ledger) ?_
      · rw [toil_cons, toil_batch free, toil_batch free, weight]
        simp only [Chore.toil]
        omega

theorem newTimers_of_carries {a : Action} {result : Except TaskError Answer}
    {regs : List Occurrence} (carries : t.Carries a result regs new u) (d : Desk) {w : Shift}
    (same : w.station.worker = u.worker) : Shift.newTimers ⟨t, d⟩ w = new := by
  have single : new.length ≤ 1 := by
    rw [← List.length_map WaitingTimer.entry, carries.named]
    exact Option.length_toList_le
  rw [Shift.newTimers, same, carries.numbered, carries.waiting]
  match new, single with
  | [], _ => simp
  | [x], _ => simp

/-- A callback ends. -/
theorem phase_endCallback {os : List Occurrence} {outcome : Except TaskError Unit}
    (free : d.agenda = []) (fired : r.result = .ok ())
    (ran : Ran origin r.callback os outcome)
    (ledger : Ledger origin s set ds
      (.began (.timer r.id) origin s.worker.registry.running r.callback :: os) (r :: ready) t
      d.failures) :
    Phase origin s set ((⟨t, d.plan (batch origin ready)⟩ : Shift).endCallback (.timer r.id) origin
      outcome) := by
  let c : Handover := ⟨r, os, outcome⟩
  have ended := ledger.note (o := .ended (.timer r.id) outcome) rfl rfl
  have told : c.journal origin s.worker.registry.running = _ := Handover.journal_fired fired
  rw [List.cons_append, ← told] at ended
  exact .concluding (c := c) free (.ran fired ran) ended

/-- An action comes to its result: its callback goes on, or ends. -/
theorem phase_resume {os regs : List Occurrence} {a : Action} {rest : Body}
    {result : Except TaskError Answer} (free : d.agenda = []) (fired : r.result = .ok ())
    (underway : Underway origin r.callback os (a :: rest))
    (ledger : Ledger origin s set ds
      (.began (.timer r.id) origin s.worker.registry.running r.callback :: os) (r :: ready) t
      d.failures)
    (carries : t.Carries a result regs new u) (answered : u.Answered) :
    let w := (⟨u, d.plan (batch origin ready)⟩ : Shift).resume a result
      (.callback (.timer r.id) origin rest)
    Phase origin s (set ++ new) w ∧ w.station.worker = u.worker
      ∧ w.toil ≤ 2 + 8 * Body.weight rest + (3 + 8 * readyWeight ready + u.toil) := by
  intro w
  have acted := ledger.acted carries answered u.host.clock
  rw [List.cons_append] at acted
  -- whatever becomes of the action, it is written into the journal first
  let noted : Station := u.note (.acted origin u.host.clock a result)
  have goesOn (may : result.isOk ∨ a.isAttempt)
      (goes : w = ⟨noted, d.plan (.goOn (.timer r.id) origin rest :: batch origin ready)⟩) :
      Phase origin s (set ++ new) w ∧ w.station.worker = u.worker
        ∧ w.toil ≤ 2 + 8 * Body.weight rest + (3 + 8 * readyWeight ready + u.toil) := by
    rw [goes]
    refine ⟨.inside free fired (underway.next carries.registered _ result may) acted, rfl, ?_⟩
    rw [toil_cons, toil_batch free]
    exact Nat.le_refl _
  cases result with
  | ok answer => exact goesOn (Or.inl rfl) rfl
  | error e =>
    by_cases attempt : a.isAttempt
    · refine goesOn (Or.inr attempt) ?_
      simp only [w, Shift.resume, attempt, if_true]
      rfl
    · have ends : w = (⟨noted, d.plan (batch origin ready)⟩ : Shift).endCallback (.timer r.id)
          origin (.error e) := by
        simp only [w, Shift.resume, attempt]
        rfl
      rw [ends]
      have required : a.isAttempt = false := by simpa using attempt
      refine ⟨phase_endCallback free fired (.failed underway carries.registered _ e required) acted,
        rfl, ?_⟩
      show (⟨_, d.plan (.conclude r.id origin (.error e) :: batch origin ready)⟩ : Shift).toil ≤ _
      rw [toil_cons, toil_batch free]
      simp only [Chore.toil]
      have same : (noted.note (.ended (.timer r.id) (.error e))).toil = u.toil := rfl
      omega

/-- A callback goes on with its next action, or ends. -/
theorem proceeds_inside {os : List Occurrence} {rest : Body} (free : d.agenda = [])
    (fired : r.result = .ok ()) (underway : Underway origin r.callback os rest)
    (ledger : Ledger origin s set ds
      (.began (.timer r.id) origin s.worker.registry.running r.callback :: os) (r :: ready) t
      d.failures) :
    Proceeds origin s set ⟨t, d.plan (.goOn (.timer r.id) origin rest :: batch origin ready)⟩ := by
  cases rest with
  | nil =>
    have phase := phase_endCallback free fired (.ended underway) ledger
    refine proceeds_quiet rfl rfl phase ?_
    show (⟨_, d.plan (.conclude r.id origin (.ok ()) :: batch origin ready)⟩ : Shift).toil < _
    rw [toil_cons, toil_cons, toil_batch free, toil_batch free, Station.toil_note]
    simp only [Chore.toil]
    omega
  | cons a rest =>
    have weight : Body.weight (a :: rest) = a.weight + Body.weight rest := rfl
    cases pauses : a.pause? with
    | some delay =>
      let h := (t.host.setTimeout delay).1
      have turned : (⟨t, d.plan (.goOn (.timer r.id) origin (a :: rest) :: batch origin ready)⟩ :
          Shift).turn? = some ⟨{ t with host := h }, d.plan (.await
            (.callback (.timer r.id) origin rest) a (t.host.setTimeout delay).2 .looking
              :: batch origin ready)⟩ := by
        show some ((⟨t, d.plan (batch origin ready)⟩ : Shift).carryOut _ a) = _
        simp only [Shift.carryOut, pauses]
        rfl
      have set' := ledger.withHost (Host.later_setTimeout t.host delay)
      refine proceeds_quiet turned rfl (.pausing free fired underway pauses
        (Host.answers_setTimeout t.host delay) (Or.inl rfl) set') ?_
      have sized := t.host.size_setTimeout_le delay
      have heavy := a.one_le_weight
      rw [toil_cons, toil_cons, toil_batch free, toil_batch free]
      simp only [Chore.toil, Stage.toil, Station.toil, Station.timerToil, h]
      omega
    | none =>
      obtain ⟨regs, new, carries⟩ := t.carries_act pauses
      have answered := Station.answered_effect ledger.answered (Station.effect_act a a.obeys_any)
      obtain ⟨phase, same, less⟩ := phase_resume free fired underway ledger carries answered
      have turned : (⟨t, d.plan (.goOn (.timer r.id) origin (a :: rest) :: batch origin ready)⟩ :
          Shift).turn? = some ((⟨(t.act a).1, d.plan (batch origin ready)⟩ : Shift).resume a
            (t.act a).2 (.callback (.timer r.id) origin rest)) := by
        show some ((⟨t, d.plan (batch origin ready)⟩ : Shift).carryOut _ a) = _
        simp only [Shift.carryOut, pauses]
      refine ⟨_, turned, ?_, ?_⟩
      · rw [newTimers_of_carries carries _ same]
        exact phase
      · have toil := carries.toil
        rw [toil_cons, toil_batch free]
        simp only [Chore.toil]
        omega

/-- A turn of a pause: it is over, or the host is to be driven, or is driven. -/
theorem proceeds_pausing {os : List Occurrence} {a : Action} {rest : Body} {delay : Duration}
    {σ : Signal} {stage : Stage} (free : d.agenda = []) (fired : r.result = .ok ())
    (underway : Underway origin r.callback os (a :: rest)) (pauses : a.pause? = some delay)
    (answers : t.host.Answers σ)
    (going : stage = .looking ∨ stage = .driving ∧ t.host.completion? σ = none)
    (ledger : Ledger origin s set ds
      (.began (.timer r.id) origin s.worker.registry.running r.callback :: os) (r :: ready) t
      d.failures) :
    Proceeds origin s set ⟨t, d.plan (.await (.callback (.timer r.id) origin rest) a σ stage
      :: batch origin ready)⟩ := by
  let again (k : Station) (stage : Stage) : Shift := ⟨k, d.plan
    (.await (.callback (.timer r.id) origin rest) a σ stage :: batch origin ready)⟩
  rcases going with rfl | ⟨rfl, missed⟩
  · cases found : t.host.completion? σ with
    | some c =>
      have turned : (again t .looking).turn? = some ((⟨t, d.plan (batch origin ready)⟩ : Shift).resume
          a c.answer (.callback (.timer r.id) origin rest)) := by
        show (⟨t, d.plan (batch origin ready)⟩ : Shift).await? _ a σ .looking = _
        simp only [Shift.await?, found]
      obtain ⟨phase, same, less⟩ := phase_resume free fired underway ledger
        (t.carries_pause pauses c.answer) ledger.answered
      rw [List.append_nil] at phase
      refine proceeds_quiet turned (congrArg (·.bridge.timers.nextId) same) phase ?_
      rw [toil_cons, toil_batch free]
      simp only [Chore.toil, Stage.toil]
      omega
    | none =>
      have turned : (again t .looking).turn? = some (again t .driving) := by
        show (⟨t, d.plan (batch origin ready)⟩ : Shift).await? _ a σ .looking = _
        simp only [Shift.await?, found]
        rfl
      refine proceeds_quiet turned rfl
        (.pausing free fired underway pauses answers (Or.inr ⟨rfl, found⟩) ledger) ?_
      rw [toil_cons, toil_cons]
      simp only [Chore.toil, Stage.toil]
      omega
  · have pending := Host.pending_of_answers answers missed
    have drives : t.host.drive.2 = true := (Host.drive_eq_true_iff t.host).mpr pending
    have later := Host.later_drive t.host
    have turned : (again t .driving).turn? = some (again { t with host := t.host.drive.1 } .looking) := by
      show some (_ : Shift) = _
      rw [drives]
      rfl
    refine proceeds_quiet turned rfl (.pausing free fired underway pauses (later.answers σ answers)
      (Or.inl rfl) (ledger.withHost later)) ?_
    have less := Station.toil_drive pending
    rw [toil_cons, toil_cons, toil_batch free, toil_batch free]
    simp only [Chore.toil, Stage.toil]
    omega

/-- A handover is concluded. -/
theorem proceeds_concluding {c : Handover} (free : d.agenda = []) (sound : c.Sound origin)
    (ledger : Ledger origin s set ds (c.journal origin s.worker.registry.running)
      (c.timer :: ready) t d.failures) :
    Proceeds origin s set
      ⟨t, d.plan (.conclude c.timer.id origin c.outcome :: batch origin ready)⟩ := by
  obtain ⟨well, failed⟩ := ledger.conclude sound
  cases outcome : c.outcome with
  | ok u =>
    have turned : (⟨t, d.plan (.conclude c.timer.id origin (.ok u) :: batch origin ready)⟩ :
        Shift).turn? = some ⟨t, d.plan (batch origin ready)⟩ := rfl
    refine proceeds_quiet turned rfl (.handing free (well outcome)) ?_
    rw [toil_cons]
    simp only [Chore.toil]
    omega
  | error e =>
    let k : Station := t.log (.timerFailed c.timer.id e origin)
    have turned : (⟨t, d.plan (.conclude c.timer.id origin (.error e) :: batch origin ready)⟩ :
        Shift).turn? = some ⟨k, (d.addFailures 1).plan (batch origin ready)⟩ := rfl
    have free' : (d.addFailures 1).agenda = [] := free
    refine proceeds_quiet turned rfl (.handing free' (failed e outcome)) ?_
    rw [toil_cons, toil_batch free, toil_batch free', Station.toil_log]
    simp only [Chore.toil]
    omega

end

/-- A settlement that is not over goes on: whatever phase it is in, its next turn leads to
another, and takes away from the toil. -/
theorem Phase.turn {v : Shift} (phase : Phase origin s set v) (busy : v.desk.agenda ≠ []) :
    Proceeds origin s set v := by
  cases phase with
  | looking free ledger => exact proceeds_looking free ledger
  | driving free ledger pending => exact proceeds_driving free ledger pending
  | handing free ledger => exact proceeds_handing free ledger
  | inside free fired underway ledger => exact proceeds_inside free fired underway ledger
  | pausing free fired underway pauses answers going ledger =>
    exact proceeds_pausing free fired underway pauses answers going ledger
  | concluding free sound ledger => exact proceeds_concluding free sound ledger
  | settled free ledger none => exact absurd free busy

/-! ### Courses of a settlement -/

/-- Outages to come concern no phase. -/
theorem Phase.obstruct {v : Shift} (phase : Phase origin s set v) (refused : Nat) :
    Phase origin s set (v.obstruct refused) := by
  have kept {t : Station} {d : Desk} {ds : List Handover} {opened : List Occurrence}
      {hands : List (ReadyTimer Body)} (ledger : Ledger origin s set ds opened hands t d.failures) :
      Ledger origin s set ds opened hands ((⟨t, d⟩ : Shift).obstruct refused).station d.failures :=
    { ledger with answered := ledger.answered }
  cases phase with
  | looking free ledger => exact .looking free (kept ledger)
  | driving free ledger pending => exact .driving free (kept ledger) pending
  | handing free ledger => exact .handing free (kept ledger)
  | inside free fired underway ledger => exact .inside free fired underway (kept ledger)
  | pausing free fired underway pauses answers going ledger =>
    exact .pausing free fired underway pauses answers going (kept ledger)
  | concluding free sound ledger => exact .concluding free sound (kept ledger)
  | settled free ledger none => exact .settled free (kept ledger) none

/-- At every point of a course a settlement is in some phase, and every turn has taken away
from the toil. -/
theorem phase_course {v w : Shift} (begins : Phase origin s [] v)
    (course : Shift.Course n set v w) :
    Phase origin s set w ∧ n + w.toil ≤ v.toil := by
  induction course with
  | rest v => exact ⟨begins, Nat.le_of_eq (Nat.zero_add _)⟩
  | @turn n set v w x before refused turned ih =>
    obtain ⟨phase, spent⟩ := ih begins
    have busy : (w.obstruct refused).desk.agenda ≠ [] := by
      intro free
      cases turned.symm.trans (Shift.turn?_free _ free)
    obtain ⟨y, turned', next, less⟩ := (phase.obstruct refused).turn busy
    obtain rfl := Option.some.inj (turned.symm.trans turned')
    have same : (w.obstruct refused).toil = w.toil := rfl
    exact ⟨next, by omega⟩

/-! ### The account -/

/-- What a settlement at a station has come to, when `set` are the timers that were set
meanwhile: the timers that waited and these, each handed over once and treated as it should
be; the failures counted; and nothing in journal and log but what tells of the handovers, in
their order. -/
structure Accounted (origin : Option TaskId) (s : Station) (set : List (WaitingTimer Signal Body))
    (ds : List Handover) (t : Station) (number : Nat) : Prop where
  settled : t.worker.bridge.timers.waiting = []
  handed : (ds.map Handover.timer).Perm
    ((s.worker.bridge.timers.waiting ++ set).map WaitingTimer.due)
  sound : ∀ d ∈ ds, d.Sound origin
  journal : t.journal = s.journal ++ ds.flatMap (Handover.journal origin s.worker.registry.running)
  named : set.map WaitingTimer.entry
    = timersSet (ds.flatMap (Handover.journal origin s.worker.registry.running))
  failures : number = ds.countP Handover.isFailure
  logger : t.worker.logger = s.worker.logger.record (ds.flatMap (Handover.entries origin))
  reports : (ds.filterMap (Handover.report? origin)).length = number

theorem length_reports (origin : Option TaskId) (ds : List Handover) :
    (ds.filterMap (Handover.report? origin)).length = ds.countP Handover.isFailure := by
  induction ds with
  | nil => rfl
  | cons d ds ih =>
    cases outcome : d.outcome with
    | ok u =>
      have quiet : d.report? origin = none := by rw [Handover.report?, outcome]
      simp [quiet, Handover.isFailure, outcome, ih]
    | error e => simp [Handover.report?_eq outcome, Handover.isFailure, outcome, ih]

/-- A settlement that is over is accounted for. -/
theorem Phase.accounted {v : Shift} (phase : Phase origin s set v) (free : v.desk.agenda = []) :
    ∃ ds, Accounted origin s set ds v.station v.desk.failures := by
  cases phase with
  | @settled t d ds free ledger none =>
    have handed := ledger.handed
    have journal := ledger.journal
    have named := ledger.named
    have logger := ledger.logger
    simp only [none, List.map_nil, List.append_nil] at handed journal named
    refine ⟨ds, ?_⟩
    exact {
      settled := none
      handed := handed
      sound := ledger.sound
      journal := journal
      named := named
      failures := ledger.failures
      logger := by
        rw [logger]
        exact congrArg _ (List.append_nil _)
      reports := (length_reports origin ds).trans ledger.failures.symm }
  | _ => cases free

end Settlement

namespace Station

variable {s : Station}

theorem accounted_settle (answered : s.Answered) (origin : Option TaskId) :
    ∃ n set ds, Shift.Course n set ⟨s, Desk.empty.plan [.settle origin .looking]⟩
        ⟨(s.settle origin).1, Desk.empty.addFailures (s.settle origin).2⟩
      ∧ Settlement.Accounted origin s set ds (s.settle origin).1 (s.settle origin).2 := by
  obtain ⟨n, set, course⟩ := Shift.course_turns (Shift.turns_settle origin answered Desk.empty)
  obtain ⟨phase, -⟩ := Settlement.phase_course (.looking rfl (.opening answered)) course
  obtain ⟨ds, accounted⟩ := phase.accounted rfl
  have counted : (Desk.empty.addFailures (s.settle origin).2).failures = (s.settle origin).2 :=
    Nat.zero_add _
  rw [counted] at accounted
  exact ⟨n, set, ds, course, accounted⟩

theorem waiting_settle (answered : s.Answered) (origin : Option TaskId) :
    (s.settle origin).1.worker.bridge.timers.waiting = [] := by
  obtain ⟨n, set, ds, -, accounted⟩ := accounted_settle answered origin
  exact accounted.settled

/-- **Settling accounts for every timer.** Let every timer that waits have an outcome or be
given one, as the timers of every worker of a session do, which come from its host.
However timers are set meanwhile, and whichever of them are cancelled at once, a settlement
takes only so many turns and is never stuck; when it is over, the timers that waited at first
and those that were set have each been handed over once, none is left, and journal, log and
number of failures account for them. This holds of what settling in one piece gives, which
is one of these courses. -/
theorem settle_accounts (answered : s.Answered) (origin : Option TaskId) :
    let first : Shift := ⟨s, Desk.empty.plan [.settle origin .looking]⟩
    (∀ n set v, first.Course n set v → n + v.toil ≤ first.toil
      ∧ (v.desk.agenda ≠ [] → ∀ refused, (v.obstruct refused).turn?.isSome)
      ∧ (v.desk.agenda = [] → ∃ ds, Settlement.Accounted origin s set ds v.station v.desk.failures))
    ∧ ∃ n set ds, first.Course n set
        ⟨(s.settle origin).1, Desk.empty.addFailures (s.settle origin).2⟩
      ∧ Settlement.Accounted origin s set ds (s.settle origin).1 (s.settle origin).2 := by
  intro first
  refine ⟨fun n set v course => ?_, accounted_settle answered origin⟩
  have begins : Settlement.Phase origin s [] first := .looking rfl (.opening answered)
  obtain ⟨phase, spent⟩ := Settlement.phase_course begins course
  refine ⟨spent, fun busy refused => ?_, phase.accounted⟩
  obtain ⟨w, turned, -⟩ := (phase.obstruct refused).turn busy
  rw [turned]
  rfl

end Station

/-- A worker that has set three timers: an outage cancelled the first; the second will set
another one, which is to fail; the third is to fail. -/
def threeTimers : Station :=
  let h : Host := { Host.empty with outages := { Outages.clear with timers := 1 } }
  (Station.runBody none
    [.setTimeout (.ofNanos 1) [.mark .null],
      .setTimeout (.ofNanos 9) [.pause (.ofNanos 4), .setTimeout (.ofNanos 2) [.fail "nested"]],
      .setTimeout (.ofNanos 5) [.fail "late"]]
    ⟨h, .ofHandle ⟨.spawned 0, none, "worker"⟩, []⟩).1

theorem answered_threeTimers : threeTimers.Answered :=
  Station.answered_deeds (fun _ waits => by cases waits)
    (Station.deeds_runBody none (Body.obeys_any _) _)

theorem settle_accounts_threeTimers :
    threeTimers.Answered
    ∧ (∃ n set ds, Shift.Course n set ⟨threeTimers, Desk.empty.plan [.settle (some ⟨"a"⟩) .looking]⟩
        ⟨(threeTimers.settle (some ⟨"a"⟩)).1, Desk.empty.addFailures 3⟩
      ∧ Settlement.Accounted (some ⟨"a"⟩) threeTimers set ds (threeTimers.settle (some ⟨"a"⟩)).1 3)
    ∧ (threeTimers.settle (some ⟨"a"⟩)).1.worker.logger.entries.map
        (fun e => (e.message, e.field? "error", e.field? "task"))
      = [("timer callback failed", some "Host op failed: Operation cancelled before completion",
          some "a"),
        ("timer callback failed", some "late", some "a"),
        ("timer callback failed", some "nested", some "a")] := by
  obtain ⟨-, course⟩ := Station.settle_accounts answered_threeTimers (some ⟨"a"⟩)
  have three : (threeTimers.settle (some ⟨"a"⟩)).2 = 3 := by decide +kernel
  rw [three] at course
  exact ⟨answered_threeTimers, course, by decide +kernel⟩

end TaskHost
