/-
# What a worker tells its host

A worker tells its host of every console call, of every entry that it logs and of every
signal; such a notice tells which lines are printed (`Notice`, `Notice.lines`). Which notice an
action brings can be read off the action (`Action.notice?`), and which one a turn brings off
the chore that is next on the agenda (`Shift.notice?`): entries are also logged when a timer or
a task has failed, when a task has no callback, and when a loop is drained.

A turn prints the lines of its notice and records its entry, and does neither besides
(`Shift.prints_turn`). So turn by turn the lines and the log of a worker are those of its
notices (`Shift.Shows`, `Shift.Shows.prints`).

Key definitions: `Notice`, `Notice.lines`, `Station.Prints`, `Action.notice?`,
`Shift.notice?`, `Shift.Shows`.
Key theorems: `Station.prints_act`, `Shift.prints_turn`, `Shift.Shows.prints`,
`Shift.shows_unique`.
-/
import TaskHost.Proofs.Logs
import TaskHost.Proofs.Spoils
import TaskHost.Proofs.Turns

namespace TaskHost

/-! ### Notices -/

/-- What a host may have to print: the arguments of a console call, an entry of the log of a
worker, with the source and the threshold of the log, a signal, or a line as it is. -/
inductive Notice where
  | console (stream : ConsoleStream) (args : List Json)
  | entry (source : Option WorkerId) (threshold : LogLevel) (e : LogEntry)
  | signal
  | print (line : String) (isError : Bool)

namespace Notice

/-- The lines that are printed: one, except for an entry below the threshold. -/
def lines : Notice → List PrintedLine
  | .console stream args => [⟨stream.line args, stream = .err⟩]
  | .entry source threshold e =>
    if threshold.rank ≤ e.level.rank then
      [⟨(e.ofSource source).render, e.level = .warn ∨ e.level = .error⟩]
    else []
  | .signal => [⟨"woof\n", false⟩]
  | .print line isError => [⟨line, isError⟩]

/-- The entry that is recorded. -/
def recorded? : Notice → Option LogEntry
  | .entry _ _ e => some e
  | _ => none

end Notice

theorem Host.output_signal (h : Host) (id : ContextId) :
    (h.signal id).output = h.output ++ Notice.signal.lines := by
  cases id <;> rfl

/-- The notice of an entry that a log is given. -/
def Logger.notice (l : Logger) (e : LogEntry) : Notice := .entry l.source l.threshold e

/-- The notice that an action brings. -/
def Action.notice? (l : Logger) : Action → Option Notice
  | .console stream args => some (.console stream args)
  | .log e => some (l.notice e)
  | .call .signal => some .signal
  | .attempt a => a.notice? l
  | _ => none

namespace Station

variable {s t u : Station} {ns ms : List Notice}

/-- Whether the lines and the log have gone on by notices, from one station to another; the
entries among them bear the source and the threshold of the log. -/
structure Prints (s : Station) (ns : List Notice) (t : Station) : Prop where
  output : t.host.output = s.host.output ++ ns.flatMap Notice.lines
  logger : t.worker.logger = s.worker.logger.record (ns.filterMap Notice.recorded?)
  signed : ∀ source threshold e, .entry source threshold e ∈ ns →
    source = s.worker.logger.source ∧ threshold = s.worker.logger.threshold

theorem Prints.none (output : t.host.output = s.host.output)
    (logger : t.worker.logger = s.worker.logger) : s.Prints [] t := by
  refine ⟨?_, ?_, fun _ _ _ member => nomatch member⟩
  · rw [output]
    simp
  · rw [logger]
    simp

theorem Prints.refl (s : Station) : s.Prints [] s := .none rfl rfl

theorem Prints.direct {n : Notice} (plain : n.recorded? = Option.none)
    (output : t.host.output = s.host.output ++ n.lines)
    (logger : t.worker.logger = s.worker.logger) : s.Prints [n] t := by
  refine ⟨by rw [output, List.flatMap_singleton], ?_, fun source threshold e member => ?_⟩
  · rw [logger, List.filterMap_cons_none plain, List.filterMap_nil, Logger.record_nil]
  · obtain rfl := List.mem_singleton.mp member
    cases plain

theorem Prints.trans (first : s.Prints ns t) (second : t.Prints ms u) :
    s.Prints (ns ++ ms) u := by
  refine ⟨?_, ?_, fun source threshold e member => ?_⟩
  · rw [second.output, first.output, List.flatMap_append, List.append_assoc]
  · rw [second.logger, first.logger, List.filterMap_append, Logger.record_record]
  · rcases List.mem_append.mp member with earlier | later
    · exact first.signed source threshold e earlier
    · have signed := second.signed source threshold e later
      rwa [first.logger] at signed

/-- Every entry that is logged is recorded, and printed if it reaches the threshold. -/
theorem prints_log (s : Station) (e : LogEntry) :
    s.Prints [s.worker.logger.notice e] (s.log e) := by
  have signed : ∀ source threshold e', .entry source threshold e' ∈ [s.worker.logger.notice e] →
      source = s.worker.logger.source ∧ threshold = s.worker.logger.threshold := by
    intro source threshold e' member
    obtain ⟨rfl, rfl, -⟩ := Notice.entry.inj (List.mem_singleton.mp member)
    exact ⟨rfl, rfl⟩
  refine ⟨?_, logger_log s e, signed⟩
  have isError : e.level.atLeast .warn = decide (e.level = .warn ∨ e.level = .error) := by
    cases e.level <;> rfl
  have logged : (s.log e).host = if e.level.atLeast s.worker.logger.threshold
      then s.host.print (e.ofSource s.worker.logger.source).render (e.level.atLeast .warn)
      else s.host := rfl
  rw [logged, isError, LogLevel.atLeast, List.flatMap_singleton, Logger.notice, Notice.lines]
  by_cases reached : s.worker.logger.threshold.rank ≤ e.level.rank
  · rw [if_pos (decide_eq_true reached), if_pos reached]
    rfl
  · rw [if_neg (by simpa using reached), if_neg reached, List.append_nil]

theorem prints_call (s : Station) (c : HostCall) :
    s.Prints ((Action.call c).notice? s.worker.logger).toList (s.call c).1 := by
  cases c with
  | signal =>
    exact .direct rfl (Host.output_signal s.host s.context) rfl
  | sleep delay => exact .none ((Host.mute_sleep delay).output s.host) rfl
  | push task => exact .none ((Host.mute_registerTask s.context task).output s.host) rfl
  | pull => exact .none ((Host.mute_pull s.context).output s.host) rfl
  | _ => exact .none rfl rfl

theorem output_register (s : Station) (task : TaskId) (body : Body) :
    (s.register task body).1.host.output = s.host.output := by
  have asked := (Host.mute_registerTask s.context task).output s.host
  unfold register Registry.register
  cases s.worker.registry.refusal? task with
  | some e => rfl
  | none =>
    dsimp only
    cases registered : s.host.registerTask s.context task with
    | mk h r =>
      rw [registered] at asked
      cases r <;> exact asked

/-- An action prints the lines of its notice and records its entry. -/
theorem prints_act : ∀ (s : Station) (a : Action),
    s.Prints (a.notice? s.worker.logger).toList (s.act a).1
  | s, .call c => prints_call s c
  | s, .log e => prints_log s e
  | s, .console stream args => by
    refine .direct rfl ?_ rfl
    cases stream <;> rfl
  | s, .register task body => .none (output_register s task body) (logger_register s task body)
  | s, .setTimeout delay body => .none ((Host.mute_setTimeout delay).output s.host) rfl
  | s, .pause delay => .none ((Host.mute_sleep delay).output s.host) rfl
  | s, .attempt a => prints_act s a
  | s, .mark _ | s, .who | s, .fail _ => .refl s

end Station

theorem Action.notice?_of_pause {delay : Duration} (l : Logger) :
    ∀ {a : Action}, a.pause? = some delay → a.notice? l = none
  | .call (.sleep _), _ => rfl
  | .pause _, _ => rfl
  | .attempt a, pauses => notice?_of_pause l (a := a) pauses

/-! ### The notice of a turn -/

namespace Shift

variable {s t u v w : Shift} {ns ms : List Notice}

/-- The log of the worker. -/
abbrev logger (s : Shift) : Logger := s.station.worker.logger

/-- The notice that a step of a loop brings: a task that is to be run has no callback. -/
def stepNotice? (s : Shift) (l : DispatchLoop) : Option Notice :=
  match l.state with
  | .dispatching task =>
    match s.station.worker.registry.callback? task with
    | some _ => none
    | none => some (s.logger.notice (.taskSkipped task))
  | _ => none

/-- The notice that a chore brings. -/
def noticeOf? (s : Shift) : Chore → Option Notice
  | .ask a => a.notice? s.logger
  | .goOn _ _ (a :: _) => a.notice? s.logger
  | .conclude timer origin (.error e) => some (s.logger.notice (.timerFailed timer e origin))
  | .finish task (.error e) => some (s.logger.notice (.taskFailed task e))
  | .sumUp => s.desk.loop?.map fun l => s.logger.notice (.drainFinished l.report)
  | .step _ => s.desk.loop?.bind s.stepNotice?
  | _ => none

/-- The notice that the next turn brings. -/
def notice? (s : Shift) : Option Notice :=
  match s.desk.agenda with
  | [] => none
  | c :: _ => s.noticeOf? c

theorem prints_resume (s : Shift) (a : Action) (r : Except TaskError Answer) (cause : Cause) :
    s.station.Prints [] (s.resume a r cause).station := by
  cases cause with
  | asked => exact .refl _
  | callback trigger scope rest =>
    unfold resume
    cases r with
    | ok answer => exact .none rfl rfl
    | error e =>
      simp only
      split <;> exact .none rfl rfl

theorem prints_carryOut (s : Shift) (cause : Cause) (a : Action) :
    s.station.Prints (a.notice? s.logger).toList (s.carryOut cause a).station := by
  unfold carryOut
  split
  · next delay pauses =>
    rw [Action.notice?_of_pause _ pauses]
    exact .none ((Host.mute_setTimeout delay).output s.station.host) rfl
  · have acted := Station.prints_act s.station a
    have resumed := prints_resume ⟨(s.station.act a).1, s.desk⟩ a (s.station.act a).2 cause
    have both := acted.trans resumed
    rwa [List.append_nil] at both

theorem prints_await {cause : Cause} {a : Action} {σ : Signal} {stage : Stage}
    (turned : s.await? cause a σ stage = some t) : s.station.Prints [] t.station := by
  cases stage with
  | looking =>
    simp only [await?] at turned
    split at turned <;> obtain rfl := Option.some.inj turned
    · exact prints_resume s a _ cause
    · exact .refl _
  | driving =>
    obtain rfl := Option.some.inj turned
    exact .none (Host.mute_drive.output s.station.host) rfl
  | blocked =>
    obtain ⟨c, -, rfl⟩ := Option.map_eq_some_iff.mp turned
    exact prints_resume s a _ cause

theorem prints_settle {origin : Option TaskId} {stage : Stage}
    (turned : s.settle? origin stage = some t) : s.station.Prints [] t.station := by
  cases stage with
  | looking =>
    simp only [settle?] at turned
    split at turned
    · obtain rfl := Option.some.inj turned
      exact .refl _
    · split at turned <;> obtain rfl := Option.some.inj turned <;> exact .none rfl rfl
  | driving =>
    obtain rfl := Option.some.inj turned
    exact .none (Host.mute_drive.output s.station.host) rfl
  | blocked =>
    simp only [settle?] at turned
    split at turned
    · obtain rfl := Option.some.inj turned
      exact .refl _
    · obtain ⟨c, -, rfl⟩ := Option.map_eq_some_iff.mp turned
      exact .refl _

theorem prints_beginStep (s : Shift) (l : DispatchLoop) (more : List Chore) :
    s.station.Prints (s.stepNotice? l).toList (s.beginStep l more).station := by
  obtain ⟨state, report⟩ := l
  cases state with
  | idle => exact .refl _
  | pullPending =>
    have asked := (Host.mute_pull s.station.context).output s.station.host
    simp only [beginStep, Station.pull]
    cases pulled : s.station.host.pull s.station.context with
    | mk h r =>
      rw [pulled] at asked
      cases r with
      | error e => exact .none asked rfl
      | ok task => cases task <;> exact .none asked rfl
  | dispatching task =>
    simp only [beginStep, stepNotice?, Station.takeCallback, Registry.take]
    cases s.station.worker.registry.callback? task with
    | none => exact Station.prints_log s.station _
    | some body => exact .none rfl rfl
  | drained => exact .refl _

theorem prints_take {c : Chore} (taken : s.take? c = some t) :
    s.station.Prints (s.noticeOf? c).toList t.station := by
  cases c with
  | ask a =>
    obtain rfl := Option.some.inj taken
    exact prints_carryOut s .asked a
  | await cause a σ stage => exact prints_await taken
  | goOn trigger scope body =>
    cases body with
    | nil =>
      obtain rfl := Option.some.inj taken
      exact .none rfl rfl
    | cons a rest =>
      obtain rfl := Option.some.inj taken
      exact prints_carryOut s (.callback trigger scope rest) a
  | conclude timer origin outcome =>
    obtain rfl := Option.some.inj taken
    cases outcome with
    | ok u => exact .refl _
    | error e => exact Station.prints_log s.station _
  | timers origin ready =>
    obtain rfl := Option.some.inj taken
    cases ready with
    | nil => exact .refl _
    | cons r rest =>
      simp only [nextTimer]
      split <;> exact .none rfl rfl
  | settle origin stage => exact prints_settle taken
  | finish task outcome =>
    obtain rfl := Option.some.inj taken
    cases outcome with
    | ok u => exact .none rfl rfl
    | error e =>
      have logged := Station.prints_log s.station.finishTask (.taskFailed task e)
      exact ⟨logged.output, logged.logger, logged.signed⟩
  | sumUp =>
    simp only [take?] at taken
    simp only [noticeOf?]
    split at taken <;> obtain rfl := Option.some.inj taken
    · next l present =>
      rw [present]
      exact Station.prints_log s.station _
    · next none =>
      rw [none]
      exact .refl _
  | step again =>
    simp only [take?] at taken
    simp only [noticeOf?]
    split at taken <;> obtain rfl := Option.some.inj taken
    · next l present =>
      rw [present]
      exact prints_beginStep s l _
    · next none =>
      rw [none]
      exact .refl _

/-- A turn prints the lines of its notice and records its entry. -/
theorem prints_turn (turned : s.turn? = some t) :
    s.station.Prints s.notice?.toList t.station := by
  cases agenda : s.desk.agenda with
  | nil =>
    simp only [turn?, agenda] at turned
    cases turned
  | cons c rest =>
    simp only [turn?, agenda] at turned
    have taken := prints_take turned
    simp only [notice?, agenda]
    exact taken

/-- A worker that is free or blocked has nothing to tell. -/
theorem notice?_of_turn? (stopped : s.turn? = none) : s.notice? = none := by
  cases agenda : s.desk.agenda with
  | nil => simp only [notice?, agenda]
  | cons c rest =>
    simp only [turn?, agenda] at stopped
    simp only [notice?, agenda]
    cases c with
    | await | settle => rfl
    | goOn trigger scope body => cases body <;> cases stopped
    | sumUp | step =>
      simp only [take?] at stopped
      split at stopped <;> cases stopped
    | _ => cases stopped

/-! ### Turn by turn -/

/-- One turn after the other, with the notices that they bring. -/
inductive Shows : Shift → List Notice → Shift → Prop
  | done (s : Shift) : Shows s [] s
  | turn {s t u : Shift} {ns : List Notice} (turned : s.turn? = some t) (rest : Shows t ns u) :
      Shows s (s.notice?.toList ++ ns) u

theorem exists_shows (turns : Turns s t) : ∃ ns, Shows s ns t := by
  induction turns using Relation.ReflTransGen.head_induction_on with
  | refl => exact ⟨[], .done t⟩
  | head turned _ ih =>
    obtain ⟨ns, shows⟩ := ih
    exact ⟨_, .turn turned shows⟩

/-- The lines and the log go on by the notices. -/
theorem Shows.prints (shows : Shows s ns t) : s.station.Prints ns t.station := by
  induction shows with
  | done s => exact .refl _
  | turn turned rest ih => exact (prints_turn turned).trans ih

/-- A shift comes to one end only, and tells the same on the way. -/
theorem shows_unique (first : Shows s ns v) (second : Shows s ms w) (free : v.turn? = none)
    (free' : w.turn? = none) : ns = ms ∧ v = w := by
  induction first generalizing ms with
  | done s =>
    cases second with
    | done => exact ⟨rfl, rfl⟩
    | turn turned rest => cases free.symm.trans turned
  | turn turned rest ih =>
    cases second with
    | done => cases free'.symm.trans turned
    | turn turned' rest' =>
      obtain rfl := Option.some.inj (turned.symm.trans turned')
      obtain ⟨rfl, rfl⟩ := ih rest' free
      exact ⟨rfl, rfl⟩

end Shift
end TaskHost
