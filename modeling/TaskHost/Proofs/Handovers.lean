/-
# Timers that are handed over

What a single action of a callback brings about when it neither pauses nor waits: what it
writes, what it logs and which timer it sets (`Station.Carries`, `Station.carries_act`).
A callback that is underway has carried out some of its actions and goes on with the rest
(`Underway`); it has run when none is left, or when an action that it could not do without
has failed (`Ran`).

A handover is a timer that a bridge has handed out, with what its callback did and what
came of it. The callback of a timer that fired runs from its beginning to its end; that of
a timer that the host cancelled does not run (`Handover.Sound`).

Key definitions: `Station.Carries`, `Underway`, `Ran`, `Handover`, `Handover.Sound`.
Key theorems: `Station.carries_act`, `Bridge.takeReady_due`.
-/
import TaskHost.Proofs.Logs
import TaskHost.Proofs.Ownership
import TaskHost.Proofs.Turns

namespace TaskHost

/-! ### How timers end -/

/-- The result of a timer, by the signal that the host gave for it. -/
def Signal.result : Signal → Except HostError Unit
  | .scheduled _ => .ok ()
  | .cancelled => .error .cancelled

theorem Host.completion?_result {h : Host} {σ : Signal} {c : Completion Unit}
    (found : h.completion? σ = some c) : c.result = σ.result := by
  cases σ with
  | cancelled =>
    obtain rfl := Option.some.inj found
    rfl
  | scheduled order =>
    obtain ⟨seq, -, rfl⟩ := Option.map_eq_some_iff.mp found
    rfl

/-- A waiting timer as it will be handed out. -/
def WaitingTimer.due {φ : Type} (w : WaitingTimer Signal φ) : ReadyTimer φ :=
  ⟨w.id, w.signal.result, w.callback⟩

/-- What is handed out and what stays are what was waiting, each with its result. -/
theorem Bridge.takeReady_due {φ : Type} (b : Bridge φ) (h : Host) :
    ((b.takeReady h).1 ++ (b.takeReady h).2.timers.waiting.map WaitingTimer.due).Perm
      (b.timers.waiting.map WaitingTimer.due) := by
  have split := TimerTable.takeReady_perm_map b.timers h.completion? id WaitingTimer.due
    fun w c found => by
      rw [WaitingTimer.due, ← Host.completion?_result found]
      rfl
  rw [List.map_id] at split
  exact split

theorem Host.size_setTimeout_le (h : Host) (delay : Duration) :
    (h.setTimeout delay).1.timers.size ≤ h.timers.size + 1 := by
  unfold setTimeout
  split
  · exact Nat.le_succ _
  · exact Nat.le_of_eq List.length_append

/-! ### Actions that do not pause -/

theorem Action.one_le_weight : ∀ a : Action, 1 ≤ a.weight
  | .register _ _ | .setTimeout _ _ => by
    rw [weight]
    omega
  | .attempt a => by
    rw [weight]
    exact a.one_le_weight
  | .call _ | .mark _ | .who | .console _ _ | .log _ | .pause _ | .fail _ => by
    simp [weight]

/-- Whether an occurrence tells of a registration. -/
def Occurrence.IsRegistration : Occurrence → Prop
  | .registered .. => True
  | _ => False

theorem silent_registrations {regs : List Occurrence} (registered : ∀ o ∈ regs, o.IsRegistration) :
    timersSet regs = [] ∧ logged regs = [] := by
  constructor
  · refine List.filterMap_eq_nil_iff.mpr fun o member => ?_
    have registration := registered o member
    cases o <;> first | rfl | exact registration.elim
  · refine List.filterMap_eq_nil_iff.mpr fun o member => ?_
    have registration := registered o member
    cases o <;> first | rfl | exact registration.elim

theorem Action.timer?_of_pause {delay : Duration} (r : Except TaskError Answer) :
    ∀ {a : Action}, a.pause? = some delay → a.timer? r = none
  | .call _, _ => rfl
  | .pause _, _ => rfl
  | .attempt a, pauses => timer?_of_pause (a := a) r pauses

theorem Action.logs?_of_pause {delay : Duration} :
    ∀ {a : Action}, a.pause? = some delay → a.logs? = none
  | .call _, _ => rfl
  | .pause _, _ => rfl
  | .attempt a, pauses => logs?_of_pause (a := a) pauses

namespace Station

/-- What an action with this result brings about: it may register a task, log an entry and
set a timer. -/
structure Carries (s : Station) (a : Action) (r : Except TaskError Answer)
    (regs : List Occurrence) (new : List (WaitingTimer Signal Body)) (t : Station) : Prop where
  written : t.journal = s.journal ++ regs
  registered : ∀ o ∈ regs, o.IsRegistration
  logger : t.worker.logger = s.worker.logger.record a.logs?.toList
  running : t.worker.registry.running = s.worker.registry.running
  waiting : t.worker.bridge.timers.waiting = s.worker.bridge.timers.waiting ++ new
  numbered : t.worker.bridge.timers.nextId = s.worker.bridge.timers.nextId + new.length
  named : new.map WaitingTimer.entry = (a.timer? r).toList
  size : t.host.timers.size ≤ s.host.timers.size + new.length
  weight : bodiesWeight (new.map WaitingTimer.callback) + new.length ≤ a.weight

/-- An action that changes nothing but the host, and not the timers of the host. -/
theorem carries_host {s : Station} {a : Action} {r : Except TaskError Answer} {h : Host}
    (still : s.host.Still h) (unlogged : a.logs? = none) (unset : a.timer? r = none) :
    s.Carries a r [] [] { s with host := h } where
  written := (List.append_nil _).symm
  registered o member := by cases member
  logger := by
    rw [unlogged]
    exact (Logger.record_nil _).symm
  running := rfl
  waiting := (List.append_nil _).symm
  numbered := rfl
  named := by
    rw [unset]
    rfl
  size := Nat.le_of_eq (congrArg TimerQueue.size still.timers)
  weight := Nat.zero_le _

theorem carries_pause (s : Station) {a : Action} {delay : Duration}
    (pauses : a.pause? = some delay) (r : Except TaskError Answer) : s.Carries a r [] [] s :=
  carries_host (.refl s.host) (Action.logs?_of_pause pauses) (Action.timer?_of_pause r pauses)

theorem carries_call (s : Station) {c : HostCall} (calm : (Action.call c).pause? = none) :
    s.Carries (.call c) (s.act (.call c)).2 [] [] (s.act (.call c)).1 := by
  refine carries_host (h := (s.worker.bridge.call s.host c).1) ?_ rfl rfl
  have same {h : Host} (timers : h.timers = s.host.timers) (clock : h.clock = s.host.clock)
      (fired : h.fired = s.host.fired) (more : s.host.completions ≤ h.completions)
      (outages : h.outages.timers = s.host.outages.timers) : s.host.Still h :=
    ⟨clock, timers, fired, more, outages⟩
  cases c with
  | sleep delay => cases calm
  | push task => exact Host.still_registerTask s.host _ task
  | pull => exact Host.still_pull s.host _
  | signal => exact (Host.Request.signal s.worker.bridge.context).still_serve s.host rfl
  | read path => exact same rfl rfl rfl (Nat.le_succ _) rfl
  | readText path => exact same rfl rfl rfl (Nat.le_succ _) rfl
  | write path contents => exact same rfl rfl rfl (Nat.le_succ _) rfl
  | remove path => exact same rfl rfl rfl (Nat.le_refl _) rfl
  | fetch url => exact same rfl rfl rfl (Nat.le_succ _) rfl
  | pending => exact .refl s.host
  | now => exact .refl s.host

theorem carries_register (s : Station) (task : TaskId) (body : Body) :
    ∃ regs, s.Carries (.register task body) (s.act (.register task body)).2 regs []
      (s.act (.register task body)).1 := by
  have still := Host.still_registerTask s.host s.context task
  have sized : (s.register task body).1.host.timers.size ≤ s.host.timers.size := by
    unfold register
    rw [Registry.register_eq]
    cases s.worker.registry.refusal? task with
    | some e => exact Nat.le_refl _
    | none =>
      have size := Nat.le_of_eq (congrArg TimerQueue.size still.timers)
      cases accepted : s.host.registerTask s.context task with
      | mk h r =>
        rw [accepted] at size
        cases r <;> exact size
  have logger := logger_act s (.register task body)
  have running := running_effect (effect_act (s := s) (.register task body) (Action.obeys_any _))
  have facts (regs : List Occurrence) (written : (s.register task body).1.journal = s.journal ++ regs)
      (registered : ∀ o ∈ regs, o.IsRegistration)
      (bridge : (s.register task body).1.worker.bridge = s.worker.bridge) :
      s.Carries (.register task body) (s.act (.register task body)).2 regs []
        (s.act (.register task body)).1 :=
    { written := written
      registered := registered
      logger := logger
      running := running
      waiting := (congrArg (·.timers.waiting) bridge).trans (List.append_nil _).symm
      numbered := congrArg (·.timers.nextId) bridge
      named := rfl
      size := sized
      weight := Nat.zero_le _ }
  rcases register_cases s task body with ⟨e, -, same⟩ | ⟨-, h, e, same⟩ | ⟨-, h, lost, same⟩
  · refine ⟨[], facts [] ?_ (fun o member => by cases member) ?_⟩
    · rw [same, List.append_nil]
    · rw [same]
  · refine ⟨[], facts [] ?_ (fun o member => by cases member) ?_⟩
    · rw [same, List.append_nil]
    · rw [same]
  · refine ⟨[.registered task body lost], facts _ ?_ (fun o member => ?_) ?_⟩
    · rw [same]
      rfl
    · obtain rfl := List.mem_singleton.mp member
      trivial
    · rw [same]
      rfl

theorem carries_setTimeout (s : Station) (delay : Duration) (body : Body) :
    ∃ new, s.Carries (.setTimeout delay body) (s.act (.setTimeout delay body)).2 [] new
      (s.act (.setTimeout delay body)).1 := by
  refine ⟨[⟨s.worker.bridge.timers.next, (s.host.setTimeout delay).2, body⟩], ?_⟩
  exact {
    written := (List.append_nil _).symm
    registered := fun o member => by cases member
    logger := (Logger.record_nil _).symm
    running := rfl
    waiting := rfl
    numbered := rfl
    named := rfl
    size := s.host.size_setTimeout_le delay
    weight := by
      simp only [List.map_cons, List.map_nil, bodiesWeight, List.length_singleton, Action.weight]
      omega }

theorem carries_log (s : Station) (e : LogEntry) :
    s.Carries (.log e) (s.act (.log e)).2 [] [] (s.act (.log e)).1 := by
  have same : (s.log e).host.timers = s.host.timers := by
    simp only [log, Logger.log]
    split <;> rfl
  exact {
    written := (List.append_nil _).symm
    registered := fun o member => by cases member
    logger := logger_log s e
    running := rfl
    waiting := (List.append_nil _).symm
    numbered := rfl
    named := rfl
    size := Nat.le_of_eq (congrArg TimerQueue.size same)
    weight := Nat.zero_le _ }

/-- What an action brings about that does not pause. -/
theorem carries_act (s : Station) : ∀ {a : Action}, a.pause? = none →
    ∃ regs new, s.Carries a (s.act a).2 regs new (s.act a).1
  | .attempt a, calm => by
    obtain ⟨regs, new, carries⟩ := carries_act s (a := a) calm
    refine ⟨regs, new, { carries with weight := ?_ }⟩
    rw [Action.weight]
    exact carries.weight
  | .call c, calm => ⟨[], [], carries_call s calm⟩
  | .register task body, _ => by
    obtain ⟨regs, carries⟩ := carries_register s task body
    exact ⟨regs, [], carries⟩
  | .setTimeout delay body, _ => by
    obtain ⟨new, carries⟩ := carries_setTimeout s delay body
    exact ⟨[], new, carries⟩
  | .log e, _ => ⟨[], [], carries_log s e⟩
  | .console stream args, _ =>
    ⟨[], [], carries_host (h := s.host.consoleWrite stream args)
      ⟨rfl, rfl, rfl, Nat.le_refl _, rfl⟩ rfl rfl⟩
  | .mark _, _ | .who, _ | .fail _, _ => ⟨[], [], carries_host (.refl s.host) rfl rfl⟩

end Station

/-! ### Callbacks that run -/

/-- A callback that has written `os` and has `rest` before it: every action that it carried
out has succeeded or was only an attempt. -/
inductive Underway (scope : Option TaskId) (body : Body) : List Occurrence → Body → Prop
  | begun : Underway scope body [] body
  | next {os regs : List Occurrence} {a : Action} {rest : Body}
      (before : Underway scope body os (a :: rest)) (registered : ∀ o ∈ regs, o.IsRegistration)
      (clock : Instant) (r : Except TaskError Answer) (goesOn : r.isOk ∨ a.isAttempt) :
      Underway scope body (os ++ (regs ++ [.acted scope clock a r])) rest

/-- A callback that has run: all of its actions were carried out, or one that was more than
an attempt has failed, and the callback with it. -/
inductive Ran (scope : Option TaskId) (body : Body) :
    List Occurrence → Except TaskError Unit → Prop
  | ended {os : List Occurrence} (all : Underway scope body os []) : Ran scope body os (.ok ())
  | failed {os regs : List Occurrence} {a : Action} {rest : Body}
      (before : Underway scope body os (a :: rest)) (registered : ∀ o ∈ regs, o.IsRegistration)
      (clock : Instant) (e : TaskError) (required : a.isAttempt = false) :
      Ran scope body (os ++ (regs ++ [.acted scope clock a (.error e)])) (.error e)

/-- A timer that was handed out: what was written while its callback ran, and what came of
it. -/
structure Handover where
  timer : ReadyTimer Body
  inside : List Occurrence
  outcome : Except TaskError Unit

namespace Handover

/-- Whether the timer was cancelled, or its callback failed. -/
def isFailure (d : Handover) : Bool :=
  match d.outcome with
  | .ok () => false
  | .error _ => true

/-- What the journal tells of a handover: the callback of a timer that fired begins, does
what it does, and ends. -/
def journal (origin running : Option TaskId) (d : Handover) : List Occurrence :=
  match d.timer.result with
  | .ok () => .began (.timer d.timer.id) origin running d.timer.callback
      :: (d.inside ++ [.ended (.timer d.timer.id) d.outcome])
  | .error _ => []

/-- The entry about a failure: the timer, the text of its error, and the task that the
timer belongs to. -/
def report? (origin : Option TaskId) (d : Handover) : Option LogEntry :=
  match d.outcome with
  | .ok () => none
  | .error e => some ⟨.error, none, "timer callback failed",
      [("timer", d.timer.id.toText), ("error", e.message)]
        ++ (origin.map fun task => ("task", task.token)).toList⟩

/-- What the log tells of a handover: what the callback logged, then the failure. -/
def entries (origin : Option TaskId) (d : Handover) : List LogEntry :=
  logged d.inside ++ (d.report? origin).toList

/-- Whether the timer was treated as it should be: if it was cancelled, nothing was run, and
its error is what came of it; if it fired, its callback ran. -/
inductive Sound (scope : Option TaskId) (d : Handover) : Prop
  | rejected (e : HostError) (cancelled : d.timer.result = .error e) (silent : d.inside = [])
      (told : d.outcome = .error (.host e))
  | ran (fired : d.timer.result = .ok ()) (ran : Ran scope d.timer.callback d.inside d.outcome)

variable {origin running : Option TaskId} {d : Handover}

theorem report?_eq {e : TaskError} (failed : d.outcome = .error e) :
    d.report? origin = some (.timerFailed d.timer.id e origin) := by
  rw [report?, failed]
  cases origin <;> rfl

theorem journal_fired (fired : d.timer.result = .ok ()) : d.journal origin running
    = .began (.timer d.timer.id) origin running d.timer.callback
      :: (d.inside ++ [.ended (.timer d.timer.id) d.outcome]) := by
  rw [journal, fired]

theorem journal_cancelled {e : HostError} (cancelled : d.timer.result = .error e) :
    d.journal origin running = [] := by
  rw [journal, cancelled]

theorem Sound.logged_journal (sound : d.Sound origin) :
    logged (d.journal origin running) = logged d.inside := by
  cases sound with
  | rejected e cancelled silent told => rw [journal_cancelled cancelled, silent]
  | ran fired ran =>
    rw [journal_fired fired]
    exact (logged_append d.inside _).trans (List.append_nil _)

end Handover
end TaskHost
