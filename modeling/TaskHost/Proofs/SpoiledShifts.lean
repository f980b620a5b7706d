/-
# Turns of workers with spoiled callbacks

Two workers, of whom one has spoiled callbacks, take the same turns (`Shift.spoiled_turn`).
The failure at the end of a spoiled callback is the turn in which the other callback ends.
Nothing depends on how a callback ended but what is said of it afterwards: its
timers are settled in any case, a failure of a task is reported, and every failure is
logged and counted. Where failures were logged the books have an account of them, in the
order in which they were; those of callbacks that have ended and are not yet accounted
for are due to chores that are still on the desk.

Key definitions: `Chore.Spoiled`, `Agenda.Spoiled`, `Account`, `Books`, `Desk.Spoiled`,
`Shift.Spoiled`, `Shift.Advances`.
Key theorems: `Shift.Taken.breakCallback`, `Shift.Taken.conclude`, `Shift.Taken.finish`,
`Shift.spoiled_turn`, `Shift.advances_turn`.
-/
import TaskHost.Proofs.Spoils
import TaskHost.Proofs.Turns

namespace TaskHost

/-! ### Chores with spoiled callbacks -/

theorem Action.Spoiled.pause? : ∀ {a a' : Action}, a.Spoiled a' → a'.pause? = a.pause?
  | _, _, .call _ => rfl
  | _, _, .mark _ => rfl
  | _, _, .who => rfl
  | _, _, .register _ _ => rfl
  | _, _, .setTimeout _ _ => rfl
  | _, _, .console _ _ => rfl
  | _, _, .log _ => rfl
  | _, _, .pause _ => rfl
  | _, _, .fail _ => rfl
  | _, _, .attempt h => by
    have same := h.pause?
    exact same

/-- The same reason to carry out an action. -/
inductive Cause.Spoiled : Option Active → Cause → Cause → Prop
  | asked : Spoiled none .asked .asked
  | callback (trigger : Trigger) (scope : Option TaskId) {change : Option String} {b b' : Body}
      (rest : Body.Spoiled change b b') :
      Spoiled (some ⟨trigger, scope, change⟩) (.callback trigger scope b)
        (.callback trigger scope b')

/-- The same outcome of a callback, or that of a spoiled one that would have ended well,
which is then due to be accounted for. -/
inductive Outcome.Spoiled (trigger : Trigger) (scope : Option TaskId) :
    List Failure → Except TaskError Unit → Except TaskError Unit → Prop
  | same (outcome : Except TaskError Unit) : Outcome.Spoiled trigger scope [] outcome outcome
  | broke (text : String) :
      Outcome.Spoiled trigger scope [⟨trigger, scope, text⟩] (.ok ()) (.error (.failed text))

/-- The same chore, with the callback that it goes on with and the failures that are due
to be accounted for by it. -/
inductive Chore.Spoiled : Option Active → List Failure → Chore → Chore → Prop
  | ask {a a' : Action} (action : a.Spoiled a') : Spoiled none [] (.ask a) (.ask a')
  | await {active : Option Active} {cause cause' : Cause} (same : cause.Spoiled active cause')
      {a a' : Action} (action : a.Spoiled a') (signal : Signal) (stage : Stage) :
      Spoiled active [] (.await cause a signal stage) (.await cause' a' signal stage)
  | goOn (trigger : Trigger) (scope : Option TaskId) {change : Option String} {b b' : Body}
      (body : Body.Spoiled change b b') :
      Spoiled (some ⟨trigger, scope, change⟩) [] (.goOn trigger scope b) (.goOn trigger scope b')
  | conclude (timer : TimerId) (origin : Option TaskId) {due : List Failure}
      {r r' : Except TaskError Unit} (outcome : Outcome.Spoiled (.timer timer) origin due r r') :
      Spoiled none due (.conclude timer origin r) (.conclude timer origin r')
  | timers (origin : Option TaskId) {ready ready' : List (ReadyTimer Body)}
      (same : List.Forall₂ ReadyTimer.Spoiled ready ready') :
      Spoiled none [] (.timers origin ready) (.timers origin ready')
  | settle (origin : Option TaskId) (stage : Stage) :
      Spoiled none [] (.settle origin stage) (.settle origin stage)
  | finish (task : TaskId) {scope : Option TaskId} {due : List Failure}
      {r r' : Except TaskError Unit} (outcome : Outcome.Spoiled (.task task) scope due r r') :
      Spoiled none due (.finish task r) (.finish task r')
  | sumUp : Spoiled none [] .sumUp .sumUp
  | step (again : Bool) : Spoiled none [] (.step again) (.step again)

/-- The same chores; only the first one can go on with a callback. -/
inductive Agenda.Spoiled : Option Active → List Failure → List Chore → List Chore → Prop
  | nil : Agenda.Spoiled none [] [] []
  | cons {active : Option Active} {due later : List Failure} {c c' : Chore} {cs cs' : List Chore}
      (first : c.Spoiled active due c') (rest : Agenda.Spoiled none later cs cs') :
      Agenda.Spoiled active (due ++ later) (c :: cs) (c' :: cs')

theorem Agenda.Spoiled.append {active : Option Active} {due later : List Failure}
    {cs cs' ds ds' : List Chore} (first : Agenda.Spoiled active due cs cs')
    (rest : Agenda.Spoiled none later ds ds') :
    Agenda.Spoiled active (due ++ later) (cs ++ ds) (cs' ++ ds') := by
  induction first with
  | nil => exact rest
  | cons chore _ ih =>
    rw [List.append_assoc]
    exact .cons chore ih

theorem Agenda.Spoiled.free {active : Option Active} {due : List Failure} {cs' : List Chore}
    (agenda : Agenda.Spoiled active due [] cs') : cs' = [] ∧ active = none ∧ due = [] := by
  cases agenda
  exact ⟨rfl, rfl, rfl⟩

theorem Agenda.spoiled_singleton {active : Option Active} {due : List Failure} {c c' : Chore}
    (chore : c.Spoiled active due c') : Agenda.Spoiled active due [c] [c'] := by
  have whole := Agenda.Spoiled.cons chore .nil
  rwa [List.append_nil] at whole

theorem Trigger.spoiled_after (trigger : Trigger) (scope : Option TaskId) {due : List Failure}
    {r r' : Except TaskError Unit} (outcome : Outcome.Spoiled trigger scope due r r') :
    Agenda.Spoiled none due (trigger.after scope r) (trigger.after scope r') := by
  cases trigger with
  | task key =>
    exact .cons (.settle (some key) .looking) (Agenda.spoiled_singleton (.finish key outcome))
  | timer key => exact Agenda.spoiled_singleton (.conclude key scope outcome)

/-! ### Accounts -/

/-- A failure that was logged: by which worker, under which source, and the loop that has
reported on it. -/
structure Account where
  worker : Nat
  source : Option WorkerId
  loop : Option Nat
  failure : Failure

namespace Account

/-- The entries in which failures were logged. -/
def entries (G : List Account) : List LogEntry :=
  G.map fun a => a.failure.entry.ofSource a.source

/-- The tasks whose failures a loop has reported. -/
def moved (k : Nat) (G : List Account) : List (TaskId × String) :=
  (G.filter fun a => a.loop = some k).filterMap fun a => a.failure.task?

theorem entries_append (G E : List Account) : entries (G ++ E) = entries G ++ entries E := by
  simp [entries]

theorem moved_append (k : Nat) (G E : List Account) :
    moved k (G ++ E) = moved k G ++ moved k E := by
  simp [moved]

end Account

/-- Where failures are on record: in entries that the host has printed, in the log of a
worker, which has a source, and in its journal, in the reports of its loops, of which one
is the reporter of tasks that fail, and in its count of failed timers. -/
structure Books where
  printed : List LogEntry
  source : Option WorkerId
  logged : List Failure
  told : List Failure
  moved : Nat → List (TaskId × String)
  reporter : Option Nat
  counted : Nat

/-- The books with further accounts. -/
def Books.add (B : Books) (E : List Account) : Books where
  printed := B.printed ++ Account.entries E
  source := B.source
  logged := B.logged ++ E.map Account.failure
  told := B.told ++ E.map Account.failure
  moved k := B.moved k ++ Account.moved k E
  reporter := B.reporter
  counted := B.counted + (E.map Account.failure).countP Failure.isTimer

theorem Books.add_nil (B : Books) : B.add [] = B := by
  simp [Books.add, Account.entries, Account.moved]

theorem Books.add_add (B : Books) (E F : List Account) : (B.add E).add F = B.add (E ++ F) := by
  simp [Books.add, Account.entries, Account.moved, Nat.add_assoc]

/-- Whether an account is one of this worker and fits into its books. -/
structure Account.By (i : Nat) (B : Books) (a : Account) : Prop where
  worker : a.worker = i
  source : a.source = B.source
  loop : a.failure.isTimer ∨ a.loop = B.reporter

/-- What is to be found at the station. -/
def Books.ledger (B : Books) (active : Option Active) (broke : List Failure) : Ledger :=
  ⟨B.printed, B.source, B.logged, active, broke⟩

/-! ### Desks and shifts -/

/-- The loop in hand, if there is one. -/
def Desk.hand? (d : Desk) : Option Nat := if d.hand < d.loops.length then some d.hand else none

/-- The same loops, with failures among their reports, and the same endings. Only loops
that are there have reported any, and the loop in hand is the one that does. -/
structure Desk.Spoiled (B : Books) (d d' : Desk) : Prop where
  loops : Placewise (fun k => DispatchLoop.Spoiled (B.moved k)) d.loops d'.loops
  hand : d'.hand = d.hand
  failures : d'.failures = d.failures + B.counted
  endings : d'.endings = d.endings
  beyond : ∀ k, d.loops.length ≤ k → B.moved k = []
  reporter : d.hand? = B.reporter

namespace Desk

variable {B : Books} {d d' : Desk}

theorem Spoiled.loop? (spoiled : Spoiled B d d') :
    Option.Rel (DispatchLoop.Spoiled (B.moved d.hand)) d.loop? d'.loop? := by
  unfold Desk.loop?
  rw [spoiled.hand]
  exact spoiled.loops d.hand

/-- Loops that are changed alike. -/
theorem Spoiled.modifyLoop (spoiled : Spoiled B d d') {f f' : DispatchLoop → DispatchLoop}
    (same : ∀ l l', l.Spoiled (B.moved d.hand) l' → (f l).Spoiled (B.moved d.hand) (f' l')) :
    Spoiled B (d.modifyLoop f) (d'.modifyLoop f') where
  loops := by
    simp only [Desk.modifyLoop, spoiled.hand]
    exact spoiled.loops.modify (fun _ _ _ _ loop => loop) fun l l' _ loop => same l l' loop
  hand := spoiled.hand
  failures := spoiled.failures
  endings := spoiled.endings
  beyond k := by
    simp only [Desk.modifyLoop, List.length_modify]
    exact spoiled.beyond k
  reporter := by
    simp only [Desk.hand?, Desk.modifyLoop, List.length_modify]
    exact spoiled.reporter

theorem Spoiled.setLoop (spoiled : Spoiled B d d') {l l' : DispatchLoop}
    (loop : l.Spoiled (B.moved d.hand) l') : Spoiled B (d.setLoop l) (d'.setLoop l') :=
  spoiled.modifyLoop fun _ _ _ => loop

theorem Spoiled.addFailures (spoiled : Spoiled B d d') (n : Nat) :
    Spoiled B (d.addFailures n) (d'.addFailures n) where
  loops := spoiled.loops
  hand := spoiled.hand
  failures := by
    have same := spoiled.failures
    simp only [Desk.addFailures]
    omega
  endings := spoiled.endings
  beyond := spoiled.beyond
  reporter := spoiled.reporter

theorem Spoiled.note (spoiled : Spoiled B d d') (e : Ending) : Spoiled B (d.note e) (d'.note e) :=
  { spoiled with endings := congrArg (· ++ [e]) spoiled.endings }

/-- A timer has failed, and is counted. -/
theorem Spoiled.addTimer (spoiled : Spoiled B d d') {a : Account} (timer : a.failure.isTimer)
    (unreported : a.loop = none) : Spoiled (B.add [a]) d (d'.addFailures 1) := by
  have moved (k : Nat) : (B.add [a]).moved k = B.moved k := by
    simp [Books.add, Account.moved, unreported]
  refine ⟨?_, spoiled.hand, ?_, spoiled.endings, ?_, spoiled.reporter⟩
  · simp only [moved]
    exact spoiled.loops
  · have counted := spoiled.failures
    simp only [Desk.addFailures, Books.add, List.map_cons, List.map_nil, List.countP_singleton,
      timer, if_true]
    omega
  · simp only [moved]
    exact spoiled.beyond

/-- A task has failed, and the loop in hand reports on it. -/
theorem Spoiled.moveTask (spoiled : Spoiled B d d') {a : Account} {task : TaskId} {text : String}
    (failed : a.failure.task? = some (task, text)) (untimed : a.failure.isTimer = false)
    (reported : a.loop = B.reporter) :
    Spoiled (B.add [a]) (d.modifyLoop fun l => ⟨.pullPending, l.report.execute task⟩)
      (d'.modifyLoop fun l => ⟨.pullPending, l.report.fail task (.failed text)⟩) := by
  rw [← spoiled.reporter] at reported
  have others (k : Nat) (other : k ≠ d.hand) : (B.add [a]).moved k = B.moved k := by
    unfold Desk.hand? at reported
    split at reported <;> simp [Books.add, Account.moved, reported, other.symm]
  refine ⟨?_, spoiled.hand, ?_, spoiled.endings, fun k beyond => ?_, ?_⟩
  · simp only [Desk.modifyLoop, spoiled.hand]
    refine spoiled.loops.modify (fun k l l' other loop => ?_) fun l l' member loop => ?_
    · rw [others k other]
      exact loop
    · have within : d.hand < d.loops.length := (List.getElem?_eq_some_iff.mp member).1
      have moved : (B.add [a]).moved d.hand = B.moved d.hand ++ [(task, text)] := by
        simp [Books.add, Account.moved, reported, Desk.hand?, within, failed]
      rw [moved]
      exact ⟨rfl, loop.report.move task text⟩
  · have counted := spoiled.failures
    simpa [Desk.modifyLoop, Books.add, untimed] using counted
  · simp only [Desk.modifyLoop, List.length_modify] at beyond
    by_cases inHand : k = d.hand
    · have none : a.loop = none := by
        rw [reported, Desk.hand?, if_neg (by omega)]
      simpa [Books.add, Account.moved, none] using spoiled.beyond k beyond
    · rw [others k inHand]
      exact spoiled.beyond k beyond
  · simp only [Desk.hand?, Desk.modifyLoop, List.length_modify]
    exact spoiled.reporter

theorem Spoiled.plan (spoiled : Spoiled B d d') (cs cs' : List Chore) :
    Spoiled B (d.plan cs) (d'.plan cs') :=
  { spoiled with }

end Desk

namespace Shift

variable {i : Nat} {B : Books} {active : Option Active} {broke later : List Failure} {s s' : Shift}

/-- Two shifts that are the same but for spoiled callbacks: those that have ended with
their failure are in the books or due to be. -/
inductive Spoiled (B : Books) : Shift → Shift → Prop
  | of {active : Option Active} {broke due : List Failure} {u u' : Station} {d d' : Desk}
      (stations : u.Spoiled (B.ledger active broke) u')
      (agenda : Agenda.Spoiled active due d.agenda d'.agenda) (desks : Desk.Spoiled B d d')
      (reckoned : broke.Perm (B.told ++ due)) : Spoiled B ⟨u, d⟩ ⟨u', d'⟩

/-- Two shifts come to such two, with further accounts of the worker. -/
def Advances (i : Nat) (B : Books) (s s' : Shift) : Prop :=
  ∃ E : List Account, (∀ a ∈ E, a.By i B) ∧ Spoiled (B.add E) s s'

theorem Spoiled.advances (spoiled : Spoiled B s s') : Advances i B s s' :=
  ⟨[], (fun _ member => by cases member), by rwa [B.add_nil]⟩

/-- Two shifts whose first chore is in hand. -/
structure Taken (B : Books) (active : Option Active) (broke later : List Failure) (s s' : Shift) :
    Prop where
  stations : s.station.Spoiled (B.ledger active broke) s'.station
  rest : Agenda.Spoiled none later s.desk.agenda s'.desk.agenda
  desks : Desk.Spoiled B s.desk s'.desk

theorem Taken.goTo {active' : Option Active} {broke' due : List Failure} {u u' : Station}
    (taken : Taken B active broke later s s')
    (stations : u.Spoiled (B.ledger active' broke') u')
    {cs cs' : List Chore} (chores : Agenda.Spoiled active' due cs cs')
    (reckoned : broke'.Perm (B.told ++ (due ++ later))) :
    Spoiled B (s.goTo u cs) (s'.goTo u' cs') :=
  .of stations (chores.append taken.rest) (taken.desks.plan cs cs') reckoned

theorem Taken.endCallback {trigger : Trigger} {scope : Option TaskId} {change : Option String}
    (taken : Taken B (some ⟨trigger, scope, change⟩) broke later s s')
    (reckoned : broke.Perm (B.told ++ later)) (outcome : Except TaskError Unit)
    (ends : outcome = .ok () → change = none) :
    Spoiled B (s.endCallback trigger scope outcome) (s'.endCallback trigger scope outcome) := by
  refine taken.goTo ?_ (trigger.spoiled_after scope (.same outcome)) reckoned
  exact ⟨taken.stations.host, taken.stations.worker, taken.stations.journal.ended outcome ends⟩

/-- A spoiled callback fails where the other one ends well. -/
theorem Taken.breakCallback {trigger : Trigger} {scope : Option TaskId} {text : String}
    (taken : Taken B (some ⟨trigger, scope, some text⟩) broke later s s')
    (reckoned : broke.Perm (B.told ++ later)) (clock : Instant) :
    Spoiled B (s.endCallback trigger scope (.ok ()))
      ((⟨s'.station.note (.acted scope clock (.fail text) (.error (.failed text))), s'.desk⟩ :
        Shift).endCallback trigger scope (.error (.failed text))) := by
  have stations : (s.station.note (.ended trigger (.ok ()))).Spoiled
      (B.ledger none (broke ++ [⟨trigger, scope, text⟩]))
      ((s'.station.note (.acted scope clock (.fail text) (.error (.failed text)))).note
        (.ended trigger (.error (.failed text)))) := by
    refine ⟨taken.stations.host, taken.stations.worker, ?_⟩
    have journal := taken.stations.journal.broke clock
    simp only [Station.note, List.append_assoc]
    exact journal
  have due : (broke ++ [(⟨trigger, scope, text⟩ : Failure)]).Perm
      (B.told ++ ([⟨trigger, scope, text⟩] ++ later)) := by
    refine (reckoned.append_right _).trans ?_
    rw [List.append_assoc]
    exact List.perm_append_comm.append_left _
  exact taken.goTo stations (trigger.spoiled_after scope (.broke text)) due

/-- An action comes to the same result. -/
theorem Taken.resume (taken : Taken B active broke later s s')
    (reckoned : broke.Perm (B.told ++ later)) {cause cause' : Cause}
    (same : cause.Spoiled active cause') {a a' : Action} (action : a.Spoiled a')
    (r : Except TaskError Answer) : Spoiled B (s.resume a r cause) (s'.resume a' r cause') := by
  cases same with
  | asked => exact .of taken.stations taken.rest (taken.desks.note _) reckoned
  | @callback trigger scope change b b' rest =>
    have noted := taken.stations.note (.acted scope s.station.host.clock action r)
    have taken' : Taken B (some ⟨trigger, scope, change⟩) broke later
        ⟨s.station.note (.acted scope s.station.host.clock a r), s.desk⟩
        ⟨s'.station.note (.acted scope s.station.host.clock a' r), s'.desk⟩ :=
      ⟨noted, taken.rest, taken.desks⟩
    have goesOn := taken'.goTo noted (Agenda.spoiled_singleton (.goOn trigger scope rest)) reckoned
    unfold Shift.resume
    simp only [taken.stations.host.clock]
    cases r with
    | ok answer => exact goesOn
    | error e =>
      simp only [action.isAttempt]
      split
      · exact goesOn
      · exact taken'.endCallback reckoned (.error e) fun ends => by cases ends

/-- An action is carried out. -/
theorem Taken.carryOut (taken : Taken B active broke later s s')
    (reckoned : broke.Perm (B.told ++ later)) {cause cause' : Cause}
    (same : cause.Spoiled active cause') {a a' : Action} (action : a.Spoiled a') :
    Spoiled B (s.carryOut cause a) (s'.carryOut cause' a') := by
  unfold Shift.carryOut
  rw [action.pause?]
  cases a.pause? with
  | some delay =>
    obtain ⟨stations, signal⟩ := taken.stations.mute (Host.mute_setTimeout delay)
    simp only [signal]
    exact taken.goTo stations (Agenda.spoiled_singleton (.await same action _ .looking)) reckoned
  | none =>
    obtain ⟨stations, result⟩ := taken.stations.act action
    simp only [result]
    have acted : Taken B active broke later ⟨(s.station.act a).1, s.desk⟩
        ⟨(s'.station.act a').1, s'.desk⟩ := ⟨stations, taken.rest, taken.desks⟩
    exact acted.resume reckoned same action _

/-- A turn of a wait. -/
theorem Taken.await? (taken : Taken B active broke later s s')
    (reckoned : broke.Perm (B.told ++ later)) {cause cause' : Cause}
    (same : cause.Spoiled active cause') {a a' : Action} (action : a.Spoiled a') (σ : Signal)
    (stage : Stage) :
    Option.Rel (Spoiled B) (s.await? cause a σ stage) (s'.await? cause' a' σ stage) := by
  have completions := taken.stations.host.completion?
  have waits (stage : Stage) : Agenda.Spoiled active [] [.await cause a σ stage]
      [.await cause' a' σ stage] := Agenda.spoiled_singleton (.await same action σ stage)
  cases stage with
  | looking =>
    simp only [Shift.await?, completions]
    cases s.station.host.completion? σ with
    | some c => exact .some (taken.resume reckoned same action _)
    | none => exact .some (taken.goTo taken.stations (waits .driving) reckoned)
  | driving =>
    obtain ⟨stations, fired⟩ := taken.stations.mute Host.mute_drive
    simp only [Shift.await?, fired]
    exact .some (taken.goTo stations (waits _) reckoned)
  | blocked =>
    simp only [Shift.await?, completions]
    cases s.station.host.completion? σ with
    | some c => exact .some (taken.resume reckoned same action _)
    | none => exact .none

/-- A callback begins, and chores follow it. -/
theorem Taken.beginCallback {u u' : Station} (taken : Taken B none broke later s s')
    (reckoned : broke.Perm (B.told ++ later))
    (stations : u.Spoiled (B.ledger none broke) u')
    (trigger : Trigger) (scope : Option TaskId) {b b' : Body} (breaks : Body.MayBreak b b')
    {more more' : List Chore} (follow : Agenda.Spoiled none [] more more') :
    Spoiled B (s.beginCallback u trigger scope b more)
      (s'.beginCallback u' trigger scope b' more') := by
  obtain ⟨change, body⟩ := breaks
  have began : (u.note (.began trigger scope u.worker.registry.running b)).Spoiled
      (B.ledger (some ⟨trigger, scope, change⟩) broke)
      (u'.note (.began trigger scope u.worker.registry.running b')) :=
    ⟨stations.host, stations.worker, stations.journal.began trigger scope _ body⟩
  unfold Shift.beginCallback
  rw [stations.worker.registry.running]
  exact taken.goTo began (.cons (.goOn trigger scope body) follow) reckoned

/-- The next of the timers that were handed out. -/
theorem Taken.nextTimer (taken : Taken B none broke later s s')
    (reckoned : broke.Perm (B.told ++ later)) (origin : Option TaskId)
    {ready ready' : List (ReadyTimer Body)} (same : List.Forall₂ ReadyTimer.Spoiled ready ready') :
    Spoiled B (s.nextTimer origin ready) (s'.nextTimer origin ready') := by
  cases same with
  | nil => exact .of taken.stations taken.rest taken.desks reckoned
  | @cons r r' rest rest' timer others =>
    have follow : Agenda.Spoiled none [] [.timers origin rest] [.timers origin rest'] :=
      Agenda.spoiled_singleton (.timers origin others)
    simp only [Shift.nextTimer, timer.result, timer.id]
    cases r.result with
    | ok u =>
      exact taken.beginCallback reckoned taken.stations (.timer r.id) origin timer.callback follow
    | error e =>
      exact taken.goTo taken.stations (.cons (.conclude r.id origin (.same _)) follow) reckoned

theorem Taken.logFailure (taken : Taken B none broke later s s') {a : Account}
    (source : a.source = B.source)
    (reckoned : broke.Perm (B.told ++ ([a.failure] ++ later))) :
    s.station.Spoiled ((B.add [a]).ledger none broke) (s'.station.log a.failure.entry)
      ∧ broke.Perm ((B.add [a]).told ++ later) := by
  have stations := taken.stations.logFailure a.failure
  constructor
  · simp only [Books.ledger, Books.add, Account.entries, List.map_cons, List.map_nil, source]
    exact stations
  · simp only [Books.add, List.map_cons, List.map_nil, List.append_assoc]
    exact reckoned

/-- The end of a timer is accounted for. -/
theorem Taken.conclude (taken : Taken B none broke later s s') {timer : TimerId}
    {origin : Option TaskId} {due : List Failure} {r r' : Except TaskError Unit}
    (outcome : Outcome.Spoiled (.timer timer) origin due r r')
    (reckoned : broke.Perm (B.told ++ (due ++ later))) :
    Advances i B (s.conclude timer origin r) (s'.conclude timer origin r') := by
  cases outcome with
  | same =>
    refine Spoiled.advances ?_
    cases r with
    | ok u => exact .of taken.stations taken.rest taken.desks reckoned
    | error e => exact .of (taken.stations.log _) taken.rest (taken.desks.addFailures 1) reckoned
  | broke text =>
    let account : Account := ⟨i, B.source, none, .timer timer, origin, text⟩
    obtain ⟨stations, reckoned'⟩ := taken.logFailure (a := account) rfl reckoned
    have own : account.By i B := ⟨rfl, rfl, .inl rfl⟩
    exact ⟨[account], fun a member => by rwa [List.mem_singleton.mp member],
      .of stations taken.rest (taken.desks.addTimer rfl rfl) reckoned'⟩

/-- The end of a task is accounted for. -/
theorem Taken.finish (taken : Taken B none broke later s s') {task : TaskId}
    {scope : Option TaskId} {due : List Failure} {r r' : Except TaskError Unit}
    (outcome : Outcome.Spoiled (.task task) scope due r r')
    (reckoned : broke.Perm (B.told ++ (due ++ later))) :
    Advances i B (s.finish task r) (s'.finish task r') := by
  have finished : s.station.finishTask.Spoiled (B.ledger none broke) s'.station.finishTask :=
    taken.stations.withRegistry ⟨taken.stations.worker.registry.callbacks, rfl⟩
  cases outcome with
  | same =>
    refine Spoiled.advances ?_
    cases r with
    | ok u =>
      refine .of finished taken.rest (taken.desks.modifyLoop fun l l' loop => ?_) reckoned
      exact ⟨rfl, loop.report.execute task⟩
    | error e =>
      refine .of (finished.log _) taken.rest (taken.desks.modifyLoop fun l l' loop => ?_) reckoned
      exact ⟨rfl, loop.report.fail task e⟩
  | broke text =>
    let account : Account := ⟨i, B.source, B.reporter, .task task, scope, text⟩
    have own : account.By i B := ⟨rfl, rfl, .inr rfl⟩
    have taken' : Taken B none broke later ⟨s.station.finishTask, s.desk⟩
        ⟨s'.station.finishTask, s'.desk⟩ := ⟨finished, taken.rest, taken.desks⟩
    obtain ⟨stations, reckoned'⟩ := taken'.logFailure (a := account) rfl reckoned
    exact ⟨[account], fun a member => by rwa [List.mem_singleton.mp member],
      .of stations taken.rest (taken.desks.moveTask rfl rfl rfl) reckoned'⟩

/-- A turn of settling. -/
theorem Taken.settle? (taken : Taken B none broke later s s')
    (reckoned : broke.Perm (B.told ++ later)) (origin : Option TaskId)
    (stage : Stage) :
    Option.Rel (Spoiled B) (s.settle? origin stage) (s'.settle? origin stage) := by
  have bridge := taken.stations.worker.bridge
  have settles (stage : Stage) :
      Agenda.Spoiled none [] [.settle origin stage] [.settle origin stage] :=
    Agenda.spoiled_singleton (.settle origin stage)
  cases stage with
  | looking =>
    have empty : s'.station.worker.bridge.timers.waiting.isEmpty
        = s.station.worker.bridge.timers.waiting.isEmpty := by
      have waiting := bridge.waiting
      generalize s.station.worker.bridge.timers.waiting = l at waiting
      generalize s'.station.worker.bridge.timers.waiting = l' at waiting
      cases waiting <;> rfl
    have taking : s'.station.worker.bridge.takeReady s'.station.host
        = s'.station.worker.bridge.takeReady s.station.host := by
      unfold Bridge.takeReady
      rw [taken.stations.host.completion?]
    simp only [Shift.settle?, empty, taking]
    split
    · exact .some (.of taken.stations taken.rest taken.desks reckoned)
    · obtain ⟨ready, left⟩ := bridge.takeReady s.station.host
      have stations := taken.stations.withBridge left
      generalize (s.station.worker.bridge.takeReady s.station.host).1 = r at ready
      generalize (s'.station.worker.bridge.takeReady s.station.host).1 = r' at ready
      cases ready with
      | nil => exact .some (taken.goTo stations (settles .driving) reckoned)
      | cons timer others =>
        have runs := Agenda.Spoiled.cons (.timers origin (.cons timer others)) (settles .looking)
        exact .some (taken.goTo stations runs reckoned)
  | driving =>
    obtain ⟨stations, fired⟩ := taken.stations.mute Host.mute_drive
    simp only [Shift.settle?, fired]
    exact .some (taken.goTo stations (settles _) reckoned)
  | blocked =>
    have waiting := bridge.waiting
    simp only [Shift.settle?, taken.stations.host.completion?]
    generalize s.station.worker.bridge.timers.waiting = l at waiting
    generalize s'.station.worker.bridge.timers.waiting = l' at waiting
    cases waiting with
    | nil => exact .some (taken.goTo taken.stations (settles .looking) reckoned)
    | @cons w w' rest rest' timer others =>
      simp only [timer.signal]
      cases s.station.host.completion? w.signal with
      | some c => exact .some (taken.goTo taken.stations (settles .looking) reckoned)
      | none => exact .none

/-- A step of the loop in hand begins. -/
theorem Taken.beginStep (taken : Taken B none broke later s s')
    (reckoned : broke.Perm (B.told ++ later)) {l l' : DispatchLoop}
    (loop : l.Spoiled (B.moved s.desk.hand) l') {more : List Chore}
    (follow : Agenda.Spoiled none [] more more) :
    Spoiled B (s.beginStep l more) (s'.beginStep l' more) := by
  obtain ⟨state, report⟩ := l
  obtain ⟨state', report'⟩ := l'
  obtain ⟨rfl, reports⟩ := loop
  have become (next : LoopState) {r r' : DrainReport}
      (report : r.Spoiled (B.moved s.desk.hand) r') :
      Taken B none broke later ⟨s.station, s.desk.setLoop ⟨next, r⟩⟩
        ⟨s'.station, s'.desk.setLoop ⟨next, r'⟩⟩ :=
    ⟨taken.stations, taken.rest, taken.desks.setLoop ⟨rfl, report⟩⟩
  cases state' with
  | idle =>
    exact (become .pullPending reports).goTo taken.stations (.cons (.settle none .looking) follow)
      reckoned
  | pullPending =>
    have pulled := taken.stations.pull
    simp only [Shift.beginStep]
    cases up : s.station.pull with
    | mk u r =>
      cases up' : s'.station.pull with
      | mk u' r' =>
        rw [up, up'] at pulled
        obtain ⟨stations, rfl⟩ := pulled
        cases r' with
        | error e => exact .of stations taken.rest (taken.desks.note _) reckoned
        | ok task =>
          cases task with
          | none =>
            exact (become .drained reports).goTo stations (Agenda.spoiled_singleton .sumUp) reckoned
          | some task => exact (become (.dispatching task) reports).goTo stations follow reckoned
  | dispatching task =>
    obtain ⟨left, found⟩ := taken.stations.takeCallback task
    simp only [Shift.beginStep]
    cases up : s.station.takeCallback task with
    | mk r u =>
      cases up' : s'.station.takeCallback task with
      | mk r' u' =>
        rw [up, up'] at left found
        cases found with
        | none =>
          exact (become .pullPending (reports.skip task)).goTo (taken.stations.log _) follow
            reckoned
        | some breaks =>
          have begun : (u.beginTask task).Spoiled
              (B.ledger none broke) (u'.beginTask task) :=
            left.withRegistry ⟨left.worker.registry.callbacks, rfl⟩
          exact (become .pullPending reports).beginCallback reckoned begun (.task task) (some task)
            breaks follow
  | drained => exact .of taken.stations taken.rest taken.desks reckoned

/-- A chore is done alike, or as much of it as is one turn. -/
theorem Taken.take? (taken : Taken B active broke later s s') {due : List Failure}
    (reckoned : broke.Perm (B.told ++ (due ++ later))) {c c' : Chore}
    (chore : c.Spoiled active due c') :
    Option.Rel (Advances i B) (s.take? c) (s'.take? c') := by
  have only {a b : Option Shift} (h : Option.Rel (Spoiled B) a b) :
      Option.Rel (Advances i B) a b := by
    cases h with
    | none => exact .none
    | some h => exact .some h.advances
  cases chore with
  | ask action => exact only (.some (taken.carryOut reckoned .asked action))
  | await same action σ stage => exact only (taken.await? reckoned same action σ stage)
  | goOn trigger scope body =>
    cases body with
    | whole => exact only (.some (taken.endCallback reckoned (.ok ()) fun _ => rfl))
    | broken text => exact only (.some (taken.breakCallback reckoned _))
    | cons action rest =>
      exact only (.some (taken.carryOut reckoned (.callback trigger scope rest) action))
  | conclude timer origin outcome => exact .some (taken.conclude outcome reckoned)
  | timers origin same => exact only (.some (taken.nextTimer reckoned origin same))
  | settle origin stage => exact only (taken.settle? reckoned origin stage)
  | finish task outcome => exact .some (taken.finish outcome reckoned)
  | sumUp =>
    have loops := taken.desks.loop?
    refine only ?_
    simp only [Shift.take?]
    generalize s.desk.loop? = l at loops
    generalize s'.desk.loop? = l' at loops
    cases loops with
    | none => exact .some (.of taken.stations taken.rest taken.desks reckoned)
    | some loop =>
      exact .some (.of (taken.stations.logCounted loop.report) taken.rest taken.desks reckoned)
  | step again =>
    have loops := taken.desks.loop?
    have follow : Agenda.Spoiled none [] (if again then [.step true] else [])
        (if again then [.step true] else []) := by
      cases again with
      | false => exact .nil
      | true => exact Agenda.spoiled_singleton (.step true)
    refine only ?_
    simp only [Shift.take?]
    generalize s.desk.loop? = l at loops
    generalize s'.desk.loop? = l' at loops
    cases loops with
    | none => exact .some (.of taken.stations taken.rest taken.desks reckoned)
    | some loop => exact .some (taken.beginStep reckoned loop follow)

/-- A worker with spoiled callbacks takes the same turn. -/
theorem spoiled_turn (spoiled : Spoiled B s s') :
    Option.Rel (Advances i B) s.turn? s'.turn? := by
  obtain @⟨active, broke, due, u, u', d, d', stations, agenda, desks, reckoned⟩ := spoiled
  obtain ⟨cs, loops, hand, failures, endings⟩ := d
  obtain ⟨cs', loops', hand', failures', endings'⟩ := d'
  cases agenda with
  | nil => exact .none
  | @cons active due later c c' rest rest' chore others =>
    have taken : Taken B active broke later ⟨u, rest, loops, hand, failures, endings⟩
        ⟨u', rest', loops', hand', failures', endings'⟩ :=
      ⟨stations, others, ⟨desks.loops, desks.hand, desks.failures, desks.endings, desks.beyond,
        desks.reporter⟩⟩
    exact taken.take? reckoned chore

/-- And a turn after others, of which there are accounts. -/
theorem advances_turn (advances : Advances i B s s') :
    Option.Rel (Advances i B) s.turn? s'.turn? := by
  obtain ⟨E, own, spoiled⟩ := advances
  have turned := spoiled_turn (i := i) spoiled
  generalize s.turn? = r at turned
  generalize s'.turn? = r' at turned
  cases turned with
  | none => exact .none
  | some advances =>
    obtain ⟨F, own', reached⟩ := advances
    rw [B.add_add] at reached
    refine .some ⟨E ++ F, fun a member => ?_, reached⟩
    rcases List.mem_append.mp member with early | late
    · exact own a early
    · obtain ⟨worker, source, loop⟩ := own' a late
      exact ⟨worker, source, loop⟩

end Shift
end TaskHost
