/-
# What logs keep

A log that is used records entries at its end and changes in no other way
(`Logger.Grows`). Which entry an action records can be read off the action, hence off the
journal (`logged`, `Station.logger_act`). So whatever a worker does, in its callbacks too,
its log grows (`View.grows_moves`), and so does the log of every worker of a session with
every command (`Session.grows_exec`).

The one thing that does not let a log grow is to give its worker another threshold: the
worker gets a new log, and what was recorded is gone (`Session.logs_kept_until_threshold`,
`Session.threshold_forgets`).

Key definitions: `Logger.record`, `Logger.Grows`, `logged`, `Session.Request`.
Key theorems: `Station.logger_act`, `View.grows_moves`, `Session.grows_exec`,
`Session.logs_kept_until_threshold`.
-/
import TaskHost.Proofs.Blocks

namespace TaskHost

/-! ### Logs that grow -/

namespace Logger

variable {l k m : Logger}

/-- The log after entries were recorded. -/
def record (l : Logger) (es : List LogEntry) : Logger :=
  { l with entries := l.entries ++ es.map l.attributed }

@[simp] theorem record_nil (l : Logger) : l.record [] = l := by
  simp [record]

@[simp] theorem record_record (l : Logger) (es fs : List LogEntry) :
    (l.record es).record fs = l.record (es ++ fs) := by
  simp only [record, List.map_append, ← List.append_assoc]
  rfl

/-- A log and the same log later: entries were recorded, and nothing else changed. -/
def Grows (l k : Logger) : Prop := ∃ es, k = l.record es

theorem grows_record (l : Logger) (es : List LogEntry) : l.Grows (l.record es) := ⟨es, rfl⟩

theorem Grows.refl (l : Logger) : l.Grows l := ⟨[], l.record_nil.symm⟩

theorem Grows.trans (first : l.Grows k) (second : k.Grows m) : l.Grows m := by
  obtain ⟨es, rfl⟩ := first
  obtain ⟨fs, rfl⟩ := second
  exact ⟨es ++ fs, record_record l es fs⟩

theorem Grows.entries (grows : l.Grows k) : l.entries <+: k.entries := by
  obtain ⟨es, rfl⟩ := grows
  exact List.prefix_append _ _

theorem Grows.threshold (grows : l.Grows k) : k.threshold = l.threshold := by
  obtain ⟨es, rfl⟩ := grows
  rfl

end Logger

/-! ### Which entries are recorded -/

/-- The entry that an action logs. -/
def Action.logs? (a : Action) : Option LogEntry :=
  match a.plain with
  | .log e => some e
  | _ => none

/-- The entry that was logged by an action of a callback. -/
def Occurrence.logs? : Occurrence → Option LogEntry
  | .acted _ _ a _ => a.logs?
  | _ => none

/-- The entries that callbacks logged, in order. -/
def logged (journal : List Occurrence) : List LogEntry := journal.filterMap Occurrence.logs?

theorem logged_append (a b : List Occurrence) : logged (a ++ b) = logged a ++ logged b :=
  List.filterMap_append

namespace Station

variable {law : HostCall → Prop} {s t : Station}

theorem logger_log (s : Station) (e : LogEntry) :
    (s.log e).worker.logger = s.worker.logger.record [e] := rfl

theorem logger_register (s : Station) (task : TaskId) (body : Body) :
    (s.register task body).1.worker.logger = s.worker.logger := by
  rcases register_cases s task body with ⟨e, -, same⟩ | ⟨-, h, e, same⟩ | ⟨-, h, lost, same⟩
  · rw [same]
  · rw [same]
  · rw [same]
    rfl

/-- An action logs its entry, if it has one, and no other. -/
theorem logger_act : ∀ (s : Station) (a : Action),
    (s.act a).1.worker.logger = s.worker.logger.record a.logs?.toList
  | s, .log e => logger_log s e
  | s, .register task body => by
    rw [show (Action.register task body).logs?.toList = [] from rfl, Logger.record_nil]
    exact logger_register s task body
  | s, .attempt a => logger_act s a
  | s, .call _ | s, .mark _ | s, .who | s, .setTimeout _ _ | s, .console _ _ | s, .pause _
  | s, .fail _ => (Logger.record_nil _).symm

theorem grows_deed (deed : Deed law s t) : s.worker.logger.Grows t.worker.logger := by
  cases deed with
  | act a obeys =>
    rw [logger_act]
    exact Logger.grows_record _ _
  | note o remark => exact .refl _
  | poll => exact .refl _

end Station

/-! ### Workers with loops, and sessions -/

namespace View

variable {law : HostCall → Prop} {v w : View}

theorem grows_move (move : Move law v w) :
    v.station.worker.logger.Grows w.station.worker.logger := by
  cases move with
  | deed loops deed => exact Station.grows_deed deed
  | pull pre post report s =>
    dsimp only
    rw [worker_pull]
    exact .refl _
  | _ => exact .refl _

/-- Whatever a worker and its loops do, the worker's log grows. -/
theorem grows_moves (moves : Moves law v w) :
    v.station.worker.logger.Grows w.station.worker.logger := by
  induction moves with
  | refl => exact .refl _
  | tail _ move ih => exact ih.trans (grows_move move)

end View

namespace Session

variable {L : Law} {s t : Session} {w : Nat} {worker : Worker}

theorem grows_set (member : s.workers[w]? = some worker) {i : Nat} {actor after : Worker}
    (acting : s.workers[i]? = some actor) (grows : actor.logger.Grows after.logger) :
    ∃ worker', (s.workers.set i after)[w]? = some worker'
      ∧ worker.logger.Grows worker'.logger := by
  by_cases same : i = w
  · subst same
    obtain rfl := Option.some.inj (acting.symm.trans member)
    exact ⟨after, List.getElem?_set_self (List.getElem?_eq_some_iff.mp member).1, grows⟩
  · exact ⟨worker, by rw [List.getElem?_set_ne same]; exact member, .refl _⟩

theorem grows_change (change : Change L s t) (member : s.workers[w]? = some worker) :
    ∃ worker', t.workers[w]? = some worker' ∧ worker.logger.Grows worker'.logger := by
  have bound := (List.getElem?_eq_some_iff.mp member).1
  have kept (workers : t.workers = s.workers) :
      ∃ worker', t.workers[w]? = some worker' ∧ worker.logger.Grows worker'.logger :=
    ⟨worker, workers ▸ member, .refl _⟩
  have hired {new : Worker} (workers : t.workers = s.workers ++ [new]) :
      ∃ worker', t.workers[w]? = some worker' ∧ worker.logger.Grows worker'.logger :=
    ⟨worker, by rw [workers, List.getElem?_append_left bound]; exact member, .refl _⟩
  cases change with
  | idle host contexts workers loops journal => exact kept workers
  | spawned handle new isNew serial host contexts workers loops journal => exact hired workers
  | adopted handle new isNew allowed host workers loops journal => exact hired workers
  | looped host workers loops journal => exact kept workers
  | worked i actor u acting moves rests host workers loops journal =>
    rw [workers]
    exact grows_set member acting (View.grows_moves (moves []))
  | turned i l actor loop next u acting place allowed moves rests host workers loops journal =>
    rw [workers]
    exact grows_set member acting (View.grows_moves (moves [] []))

/-- Every command lets the logs of all workers grow. -/
theorem grows_exec (member : s.workers[w]? = some worker) (c : Command) :
    ∃ worker', (s.exec c).1.workers[w]? = some worker'
      ∧ worker.logger.Grows worker'.logger :=
  grows_change (change_exec (lawful_any s) c.obeys_any) member

/-! ### Other thresholds -/

/-- What can be asked of a session while it goes on: a command, or that a worker gets
another threshold for what it prints. -/
inductive Request where
  | command (c : Command)
  | setThreshold (worker : Nat) (level : LogLevel)

/-- The session after a request. -/
def handle (s : Session) : Request → Session
  | .command c => (s.exec c).1
  | .setThreshold w level => { s with workers := s.workers.modify w (·.withLogThreshold level) }

/-- The session after requests, one after the other. -/
def handleAll (s : Session) (requests : List Request) : Session := requests.foldl handle s

theorem grows_handle (member : s.workers[w]? = some worker) {r : Request}
    (other : ∀ level, r ≠ .setThreshold w level) :
    ∃ worker', (s.handle r).workers[w]? = some worker'
      ∧ worker.logger.Grows worker'.logger := by
  cases r with
  | command c => exact grows_exec member c
  | setThreshold i level =>
    have apart : i ≠ w := fun same => other level (by rw [same])
    refine ⟨worker, ?_, .refl _⟩
    simp [handle, apart, member]

/-- **Logs are kept until the threshold changes.** Whatever a worker and its loops do, in
callbacks too, the worker's log grows. And whatever is asked of a session, the log of each
of its workers grows and keeps its threshold, as long as the worker gets no other threshold.
When it does get one, all that the log has recorded is lost, and nothing else about the
session changes. -/
theorem logs_kept_until_threshold (s : Session) (w : Nat) (worker : Worker)
    (member : s.workers[w]? = some worker) :
    (∀ loops v, View.Moves HostCall.Any ⟨loops, ⟨s.host, worker, []⟩⟩ v →
      worker.logger.Grows v.station.worker.logger)
    ∧ (∀ requests, (∀ r ∈ requests, ∀ level, r ≠ .setThreshold w level) →
      ∃ worker', (s.handleAll requests).workers[w]? = some worker'
        ∧ worker.logger.Grows worker'.logger)
    ∧ ∀ level, s.handle (.setThreshold w level) = { s with
        workers := s.workers.set w { worker with logger := ⟨worker.handle.worker, level, []⟩ } } := by
  refine ⟨fun loops v moves => View.grows_moves moves, fun requests others => ?_, fun level => ?_⟩
  · induction requests generalizing s worker with
    | nil => exact ⟨worker, member, .refl _⟩
    | cons r rest ih =>
      obtain ⟨after, there, first⟩ := grows_handle member (others r List.mem_cons_self)
      obtain ⟨last, present, more⟩ :=
        ih (s.handle r) after there fun q hq => others q (List.mem_cons_of_mem r hq)
      exact ⟨last, present, first.trans more⟩
  · have modified : s.workers.modify w (·.withLogThreshold level)
        = s.workers.set w (worker.withLogThreshold level) := by
      refine List.ext_getElem? fun i => ?_
      rw [List.getElem?_modify, List.getElem?_set]
      by_cases same : w = i
      · subst same
        obtain ⟨bound, here⟩ := List.getElem?_eq_some_iff.mp member
        simp [bound, here]
      · simp [same]
    rw [handle, modified]
    rfl

/-- A worker whose timer has failed: the failure is in its log. -/
def failedTimer : List Command :=
  [.spawn ⟨"worker", none⟩ none, .setTimeout 0 (.ofNanos 5) [.fail "late"], .settle 0 none]

theorem logs_kept_until_threshold_failedTimer :
    ∃ worker, ((ofHost Host.empty).play failedTimer).workers[0]? = some worker
      ∧ ∃ worker', (((ofHost Host.empty).play failedTimer).handleAll
          [.command (.settle 0 none), .setThreshold 1 .debug]).workers[0]? = some worker'
        ∧ worker.logger.entries <+: worker'.logger.entries
        ∧ worker'.logger.threshold = worker.logger.threshold := by
  have present : ((ofHost Host.empty).play failedTimer).workers[0]?.isSome := by decide +kernel
  obtain ⟨worker, member⟩ := Option.isSome_iff_exists.mp present
  obtain ⟨-, kept, -⟩ := logs_kept_until_threshold _ 0 worker member
  obtain ⟨worker', there, grows⟩ :=
    kept [.command (.settle 0 none), .setThreshold 1 .debug] (by simp)
  exact ⟨worker, member, worker', there, grows.entries, grows.threshold⟩

/-- A threshold that is changed after a timer has failed: the entry about it is gone. -/
theorem threshold_forgets :
    ¬ ∀ (s : Session) (r : Request) (w : Nat) (before after : Worker),
      s.workers[w]? = some before → (s.handle r).workers[w]? = some after →
        before.logger.entries <+: after.logger.entries := by
  intro kept
  let s := (ofHost Host.empty).play failedTimer
  have present : s.workers[0]?.isSome ∧ (s.handle (.setThreshold 0 .debug)).workers[0]?.isSome := by
    decide +kernel
  obtain ⟨before, member⟩ := Option.isSome_iff_exists.mp present.1
  obtain ⟨after, member'⟩ := Option.isSome_iff_exists.mp present.2
  have lengths : (s.workers[0]?.map (·.logger.entries.length),
      (s.handle (.setThreshold 0 .debug)).workers[0]?.map (·.logger.entries.length))
      = (some 1, some 0) := by decide +kernel
  rw [member, member'] at lengths
  obtain ⟨some, none⟩ := Prod.mk.inj lengths
  have one : before.logger.entries.length = 1 := Option.some.inj some
  have zero : after.logger.entries.length = 0 := Option.some.inj none
  have fewer := (kept s _ 0 before after member member').length_le
  omega

end Session
end TaskHost
