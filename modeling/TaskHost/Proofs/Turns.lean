/-
# Workers that take turns

Workers of one host act at the same time: between any two calls that one of them makes,
others may call the host. Here a worker's operation is cut into turns, each of which
calls the host at most once (`Shift.turn?`). What remains to be done between two turns
lies on the worker's desk as an agenda of chores: the rest of a callback, a wait and how
far it is, timers handed out, the report on a task that is settling.

Turns that nobody disturbs come to what the station's functions do in one piece
(`Shift.turns_body`, `Shift.turns_settle`, `Shift.turns_step`, `Shift.turns_run`), and to
nothing else (`Shift.turns_unique`), so what relates two shifts from turn to turn relates
what they come to (`Shift.turns_related`). A settlement comes to its end because every timer that
a worker waits for gets an outcome (`Station.Answered`).

Key definitions: `Chore`, `Desk`, `Shift`, `Shift.turn?`, `Shift.Turns`, `Operation`,
`Station.Answered`.
Key theorems: `Shift.turns_act`, `Shift.turns_body`, `Shift.turns_settle`,
`Shift.turns_step`, `Shift.turns_run`, `Shift.turns_related`.
-/
import TaskHost.Proofs.Endings

namespace TaskHost

/-! ### Chores -/

/-- How far a wait is: about to look whether it is over, about to drive the host because
it was not, or blocked because the drive fired nothing. -/
inductive Stage where
  | looking
  | driving
  | blocked
  deriving DecidableEq, Repr

/-- How far a wait is after a drive. -/
def Stage.driven (fired : Bool) : Stage := if fired then .looking else .blocked

/-- Why an action is carried out: the worker was asked for it, or it is the next one of a
callback, of which the rest is to follow. -/
inductive Cause where
  | asked
  | callback (trigger : Trigger) (scope : Option TaskId) (rest : Body)

/-- What a worker has yet to do: carry out an action, wait for the pause in it to end, go
on with a callback, log the failure of a timer, run timers that were handed out, settle,
report on a task that was run, log what a drained loop has done, or step a loop, once or
until it is drained. -/
inductive Chore where
  | ask (action : Action)
  | await (cause : Cause) (action : Action) (signal : Signal) (stage : Stage)
  | goOn (trigger : Trigger) (scope : Option TaskId) (body : Body)
  | conclude (timer : TimerId) (origin : Option TaskId) (outcome : Except TaskError Unit)
  | timers (origin : Option TaskId) (ready : List (ReadyTimer Body))
  | settle (origin : Option TaskId) (stage : Stage)
  | finish (task : TaskId) (outcome : Except TaskError Unit)
  | sumUp
  | step (again : Bool)

/-- What is left to be done when a callback has ended: the timers of a task are settled
before it is reported on. -/
def Trigger.after (scope : Option TaskId) (outcome : Except TaskError Unit) : Trigger → List Chore
  | .task key => [.settle (some key) .looking, .finish key outcome]
  | .timer key => [.conclude key scope outcome]

/-- The duration for which an action pauses. -/
def Action.pause? : Action → Option Duration
  | .call (.sleep delay) => some delay
  | .pause delay => some delay
  | .attempt a => a.pause?
  | _ => none

/-- The result of an action that paused. -/
def Completion.answer (c : Completion Unit) : Except TaskError Answer :=
  (c.result.map fun () => Answer.done).mapError .host

/-- What an action came to that a worker was asked for, or why a loop stopped. -/
inductive Ending where
  | answered (result : Except TaskError Answer)
  | stopped (error : DispatchError)

/-- What lies on a worker's desk: the agenda, the worker's loops and which of them is in
hand, the number of timers that failed, and what operations came to. -/
structure Desk where
  agenda : List Chore
  loops : List DispatchLoop
  hand : Nat
  failures : Nat
  endings : List Ending

namespace Desk

def empty : Desk := ⟨[], [], 0, 0, []⟩

/-- Puts chores at the head of the agenda. -/
def plan (d : Desk) (chores : List Chore) : Desk := { d with agenda := chores ++ d.agenda }

/-- Notes what an operation came to. -/
def note (d : Desk) (e : Ending) : Desk := { d with endings := d.endings ++ [e] }

/-- A desk with one loop, which is in hand. -/
def withLoop (l : DispatchLoop) : Desk := { empty with loops := [l] }

/-- Counts timers that failed. -/
def addFailures (d : Desk) (n : Nat) : Desk := { d with failures := d.failures + n }

/-- The loop in hand. -/
def loop? (d : Desk) : Option DispatchLoop := d.loops[d.hand]?

/-- Changes the loop in hand. -/
def modifyLoop (d : Desk) (f : DispatchLoop → DispatchLoop) : Desk :=
  { d with loops := d.loops.modify d.hand f }

/-- Puts another loop into the place of the one in hand. -/
def setLoop (d : Desk) (l : DispatchLoop) : Desk := d.modifyLoop fun _ => l

end Desk

/-! ### Turns -/

/-- A worker at its station and at its desk. -/
structure Shift where
  station : Station
  desk : Desk

namespace Shift

/-- The shift at another station, with chores at the head of the agenda. -/
def goTo (s : Shift) (t : Station) (chores : List Chore) : Shift := ⟨t, s.desk.plan chores⟩

/-- A callback has ended. -/
def endCallback (s : Shift) (trigger : Trigger) (scope : Option TaskId)
    (outcome : Except TaskError Unit) : Shift :=
  s.goTo (s.station.note (.ended trigger outcome)) (trigger.after scope outcome)

/-- An action has come to a result. -/
def resume (s : Shift) (a : Action) (r : Except TaskError Answer) : Cause → Shift
  | .asked => { s with desk := s.desk.note (.answered r) }
  | .callback trigger scope rest =>
    let noted : Shift := ⟨s.station.note (.acted scope s.station.host.clock a r), s.desk⟩
    match r with
    | .ok _ => noted.goTo noted.station [.goOn trigger scope rest]
    | .error e =>
      if a.isAttempt then noted.goTo noted.station [.goOn trigger scope rest]
      else noted.endCallback trigger scope (.error e)

/-- Carries out an action; if it pauses, its timer is set. -/
def carryOut (s : Shift) (cause : Cause) (a : Action) : Shift :=
  match a.pause? with
  | some delay =>
    let (h, σ) := s.station.host.setTimeout delay
    s.goTo { s.station with host := h } [.await cause a σ .looking]
  | none => (⟨(s.station.act a).1, s.desk⟩ : Shift).resume a (s.station.act a).2 cause

/-- A turn of a wait for the end of a pause. -/
def await? (s : Shift) (cause : Cause) (a : Action) (σ : Signal) : Stage → Option Shift
  | .looking =>
    match s.station.host.completion? σ with
    | some c => some (s.resume a c.answer cause)
    | none => some (s.goTo s.station [.await cause a σ .driving])
  | .driving =>
    some (s.goTo { s.station with host := s.station.host.drive.1 }
      [.await cause a σ (.driven s.station.host.drive.2)])
  | .blocked => (s.station.host.completion? σ).map fun c => s.resume a c.answer cause

/-- A callback begins; chores may follow it. -/
def beginCallback (s : Shift) (t : Station) (trigger : Trigger) (scope : Option TaskId)
    (body : Body) (more : List Chore) : Shift :=
  s.goTo (t.note (.began trigger scope t.worker.registry.running body))
    (.goOn trigger scope body :: more)

/-- The next of the timers that were handed out. -/
def nextTimer (s : Shift) (origin : Option TaskId) : List (ReadyTimer Body) → Shift
  | [] => s
  | r :: rest =>
    match r.result with
    | .ok () => s.beginCallback s.station (.timer r.id) origin r.callback [.timers origin rest]
    | .error e => s.goTo s.station [.conclude r.id origin (.error (.host e)), .timers origin rest]

/-- The failure of a timer is logged and counted. -/
def conclude (s : Shift) (timer : TimerId) (origin : Option TaskId) : Except TaskError Unit → Shift
  | .ok () => s
  | .error e => ⟨s.station.log (.timerFailed timer e origin), s.desk.addFailures 1⟩

/-- A turn of settling. -/
def settle? (s : Shift) (origin : Option TaskId) : Stage → Option Shift
  | .looking =>
    if s.station.worker.bridge.timers.waiting.isEmpty then some s
    else
      let (ready, bridge) := s.station.worker.bridge.takeReady s.station.host
      let t : Station := { s.station with worker := { s.station.worker with bridge := bridge } }
      match ready with
      | [] => some (s.goTo t [.settle origin .driving])
      | r :: rest => some (s.goTo t [.timers origin (r :: rest), .settle origin .looking])
  | .driving =>
    some (s.goTo { s.station with host := s.station.host.drive.1 }
      [.settle origin (.driven s.station.host.drive.2)])
  | .blocked =>
    match s.station.worker.bridge.timers.waiting with
    | [] => some (s.goTo s.station [.settle origin .looking])
    | w :: _ =>
      (s.station.host.completion? w.signal).map fun _ => s.goTo s.station [.settle origin .looking]

/-- A task has been run and its timers are settled: the loop in hand reports on it. -/
def finish (s : Shift) (task : TaskId) : Except TaskError Unit → Shift
  | .ok () => ⟨s.station.finishTask,
      s.desk.modifyLoop fun l => ⟨.pullPending, l.report.execute task⟩⟩
  | .error e => ⟨s.station.finishTask.log (.taskFailed task e),
      s.desk.modifyLoop fun l => ⟨.pullPending, l.report.fail task e⟩⟩

/-- A step of the loop in hand begins. -/
def beginStep (s : Shift) (l : DispatchLoop) (more : List Chore) : Shift :=
  let become (l : DispatchLoop) : Shift := ⟨s.station, s.desk.setLoop l⟩
  match l.state with
  | .idle => (become ⟨.pullPending, l.report⟩).goTo s.station (.settle none .looking :: more)
  | .pullPending =>
    match s.station.pull with
    | (t, .error e) => ⟨t, s.desk.note (.stopped (.host e))⟩
    | (t, .ok (some task)) => (become ⟨.dispatching task, l.report⟩).goTo t more
    | (t, .ok none) => (become ⟨.drained, l.report⟩).goTo t [.sumUp]
  | .dispatching task =>
    match s.station.takeCallback task with
    | (none, _) =>
      (become ⟨.pullPending, l.report.skip task⟩).goTo (s.station.log (.taskSkipped task)) more
    | (some body, t) =>
      (become ⟨.pullPending, l.report⟩).beginCallback (t.beginTask task) (.task task) (some task)
        body more
  | .drained => s

/-- Does a chore, or as much of it as is one turn; none while the worker is blocked. -/
def take? (s : Shift) : Chore → Option Shift
  | .ask a => some (s.carryOut .asked a)
  | .await cause a σ stage => s.await? cause a σ stage
  | .goOn trigger scope [] => some (s.endCallback trigger scope (.ok ()))
  | .goOn trigger scope (a :: rest) => some (s.carryOut (.callback trigger scope rest) a)
  | .conclude timer origin outcome => some (s.conclude timer origin outcome)
  | .timers origin ready => some (s.nextTimer origin ready)
  | .settle origin stage => s.settle? origin stage
  | .finish task outcome => some (s.finish task outcome)
  | .sumUp =>
    match s.desk.loop? with
    | some l => some { s with station := s.station.log (.drainFinished l.report) }
    | none => some s
  | .step again =>
    match s.desk.loop? with
    | some l => some (s.beginStep l (if again then [.step true] else []))
    | none => some s

/-- The next turn; none if the worker is free, or blocked in a wait. -/
def turn? (s : Shift) : Option Shift :=
  match s.desk.agenda with
  | [] => none
  | c :: rest => (⟨s.station, { s.desk with agenda := rest }⟩ : Shift).take? c

/-- One turn after the other. -/
abbrev Turns : Shift → Shift → Prop := Relation.ReflTransGen fun s t => s.turn? = some t

end Shift

/-! ### Operations -/

/-- What a worker can be asked to do: an action, to settle, to make a loop, to step or to
run one of its loops, or to drain, which makes a loop and runs it. -/
inductive Operation where
  | act (action : Action)
  | settle (origin : Option TaskId)
  | newLoop
  | step (loop : Nat)
  | run (loop : Nat)
  | drain

/-- The desk when an operation begins. -/
def Desk.begin (d : Desk) : Operation → Desk
  | .act a => d.plan [.ask a]
  | .settle origin => d.plan [.settle origin .looking]
  | .newLoop => { d with loops := d.loops ++ [.start] }
  | .step i => { d with hand := i, agenda := .step false :: d.agenda }
  | .run i => { d with hand := i, agenda := .step true :: d.agenda }
  | .drain => { d with loops := d.loops ++ [.start], hand := d.loops.length,
                       agenda := .step true :: d.agenda }

/-! ### Timers that get an outcome -/

/-- Whether every timer that is waiting has an outcome or will be given one. -/
def Station.Answered (s : Station) : Prop :=
  ∀ w ∈ s.worker.bridge.timers.waiting, s.host.Answers w.signal

namespace Station

variable {s t : Station}

theorem Answered.later (answered : s.Answered) (later : s.host.Later t.host)
    (fewer : ∀ w ∈ t.worker.bridge.timers.waiting, w ∈ s.worker.bridge.timers.waiting) :
    t.Answered := fun w waits => later.answers _ (answered w (fewer w waits))

theorem answered_effect (answered : s.Answered) (effect : Effect HostCall.Any s t) :
    t.Answered := by
  have later := (keeps_effect effect).host.toLater
  cases effect with
  | timed delay body obeys =>
    intro w waits
    rcases List.mem_append.mp waits with old | new
    · exact later.answers _ (answered w old)
    · rw [List.mem_singleton.mp new]
      exact Host.answers_setTimeout s.host delay
  | _ => exact answered.later later fun _ waits => waits

theorem answered_deed (answered : s.Answered) (deed : Deed HostCall.Any s t) : t.Answered := by
  have later := (keeps_deed deed).host.toLater
  cases deed with
  | act a obeys => exact answered_effect answered (effect_act a obeys)
  | note o remark => exact answered.later later fun _ waits => waits
  | poll => exact answered.later later fun _ waits => Bridge.mem_of_mem_pollWithin waits

theorem answered_deeds (answered : s.Answered) (deeds : Deeds HostCall.Any s t) : t.Answered := by
  induction deeds with
  | refl => exact answered
  | tail _ deed ih => exact answered_deed ih deed

end Station

/-- Moves of a worker keep this. -/
theorem View.answered_moves {v w : View} (answered : v.station.Answered)
    (moves : Moves HostCall.Any v w) : w.station.Answered := by
  induction moves with
  | refl => exact answered
  | tail _ move ih =>
    have later := (keeps_move move).host.toLater
    cases move with
    | deed loops deed => exact Station.answered_deed ih deed
    | pull pre post report s =>
      refine ih.later later fun w waits => ?_
      rw [worker_pull] at waits
      exact waits
    | _ => exact ih.later later fun _ waits => waits

/-! ### Turns that nobody disturbs -/

namespace Desk

variable {d : Desk} {l k : DispatchLoop}

theorem loop?_setLoop (present : d.loop? = some l) (k : DispatchLoop) :
    (d.setLoop k).loop? = some k := by
  have within : d.hand < d.loops.length := (List.getElem?_eq_some_iff.mp present).1
  simp [setLoop, modifyLoop, loop?, within]

theorem setLoop_self (present : d.loop? = some l) : d.setLoop l = d := by
  have same : d.loops.modify d.hand (fun _ => l) = d.loops := by
    refine List.ext_getElem? fun i => ?_
    rw [List.getElem?_modify]
    by_cases hand : d.hand = i
    · rw [← hand, show d.loops[d.hand]? = some l from present]
      simp
    · simp [hand]
  unfold setLoop modifyLoop
  rw [same]

theorem modifyLoop_setLoop (l : DispatchLoop) (f : DispatchLoop → DispatchLoop) (n : Nat)
    (more : List Chore) :
    (((d.setLoop l).addFailures n).plan more).modifyLoop f
      = ((d.setLoop (f l)).addFailures n).plan more := by
  simp only [setLoop, addFailures, plan, modifyLoop, List.modify_modify_eq]
  rfl

end Desk

namespace Shift

variable {t u : Station} {d : Desk} {trigger : Trigger} {scope origin : Option TaskId}

theorem turns_take {c : Chore} {cs : List Chore} {s v : Shift}
    (taken : (⟨t, d.plan cs⟩ : Shift).take? c = some s) (rest : Turns s v) :
    Turns ⟨t, d.plan (c :: cs)⟩ v :=
  Relation.ReflTransGen.head taken rest

theorem turn?_free (t : Station) (free : d.agenda = []) : (⟨t, d⟩ : Shift).turn? = none := by
  simp only [turn?, free]

/-- A shift comes to one end only. -/
theorem turns_unique {s v w : Shift} (first : Turns s v) (second : Turns s w)
    (free : v.turn? = none) (free' : w.turn? = none) : v = w := by
  have unique : Relator.RightUnique fun s t : Shift => s.turn? = some t :=
    fun _ _ _ one other => Option.some.inj (one.symm.trans other)
  rcases first.total_of_right_unique unique second with more | more
  · rcases more.cases_head with same | ⟨_, turned, -⟩
    · exact same
    · cases free.symm.trans turned
  · rcases more.cases_head with same | ⟨_, turned, -⟩
    · exact same.symm
    · cases free'.symm.trans turned

section

variable {R : Shift → Shift → Prop} {s s' v v' : Shift}

/-- Shifts that stay related turn by turn take the same turns. -/
theorem turns_follow (turn : ∀ s s', R s s' → Option.Rel R s.turn? s'.turn?) (related : R s s')
    (turns : Turns s v) : ∃ v', Turns s' v' ∧ R v v' := by
  induction turns with
  | refl => exact ⟨s', .refl, related⟩
  | @tail v w _ turned ih =>
    obtain ⟨v', turns', reached⟩ := ih
    have taken := turn v v' reached
    rw [show v.turn? = some w from turned] at taken
    cases turned' : v'.turn? with
    | none =>
      rw [turned'] at taken
      cases taken
    | some w' =>
      rw [turned'] at taken
      cases taken with
      | some next => exact ⟨w', turns'.tail turned', next⟩

/-- They are related when both have come to their end. -/
theorem turns_related (turn : ∀ s s', R s s' → Option.Rel R s.turn? s'.turn?) (related : R s s')
    (turns : Turns s v) (turns' : Turns s' v') (free : v.turn? = none) (free' : v'.turn? = none) :
    R v v' := by
  obtain ⟨w, followed, reached⟩ := turns_follow turn related turns
  have stops := turn v w reached
  rw [free] at stops
  have ended : w.turn? = none := by
    generalize w.turn? = r at stops
    cases stops
    rfl
  obtain rfl := turns_unique turns' followed free' ended
  exact reached

end

/-! ### Actions and callbacks -/

theorem act_of_pause {delay : Duration} :
    ∀ {a : Action}, a.pause? = some delay → t.act a
      = ({ t with host := (t.host.sleep delay).1 },
        ((t.host.sleep delay).2.map fun () => Answer.done).mapError .host)
  | .call (.sleep _), pauses => by
    obtain rfl := Option.some.inj pauses
    rfl
  | .pause _, pauses => by
    obtain rfl := Option.some.inj pauses
    rfl
  | .attempt a, pauses => act_of_pause (a := a) pauses

/-- A wait for the end of a pause comes to its end. -/
theorem turns_await {σ : Signal} {n : Nat} {h k : Host} {r : Except HostError Unit}
    (waits : Host.Waits σ n h k r) (t : Station) (d : Desk) (cause : Cause) (a : Action) :
    Turns ⟨{ t with host := h }, d.plan [.await cause a σ .looking]⟩
      ((⟨{ t with host := k }, d⟩ : Shift).resume a
        ((r.map fun () => Answer.done).mapError .host) cause) := by
  induction waits with
  | done found => exact turns_take (by simp only [take?, await?, found]; rfl) .refl
  | drove missed fired rest ih =>
    refine turns_take (by simp only [take?, await?, missed]; rfl) ?_
    exact turns_take (by simp only [take?, await?, fired]; rfl) ih
  | blocked missed idle found =>
    refine turns_take (by simp only [take?, await?, missed]; rfl) ?_
    refine turns_take (by simp only [take?, await?, idle]; rfl) ?_
    exact turns_take (by simp only [take?, await?, found]; rfl) .refl

/-- Carrying out an action comes to its result. -/
theorem turns_act (t : Station) (d : Desk) (cause : Cause) (a : Action) :
    Turns ((⟨t, d⟩ : Shift).carryOut cause a)
      ((⟨(t.act a).1, d⟩ : Shift).resume a (t.act a).2 cause) := by
  unfold carryOut
  cases pauses : a.pause? with
  | none => exact .refl
  | some delay =>
    obtain ⟨n, -, waits⟩ := Host.waits_await (Host.answers_setTimeout t.host delay)
    have waited := turns_await waits t d cause a
    rw [act_of_pause pauses]
    exact waited

/-- A callback runs to its end. -/
theorem turns_body (trigger : Trigger) (scope : Option TaskId) (body : Body) (t : Station)
    (d : Desk) :
    Turns ⟨t, d.plan [.goOn trigger scope body]⟩
      ((⟨(t.runBody scope body).1, d⟩ : Shift).endCallback trigger scope
        (t.runBody scope body).2) := by
  induction body generalizing t with
  | nil => exact turns_take rfl .refl
  | cons a rest ih =>
    refine turns_take rfl ((turns_act t d (.callback trigger scope rest) a).trans ?_)
    cases acted : t.act a with
    | mk u r =>
      have performed : t.perform scope a = (u.note (.acted scope u.host.clock a r), r) := by
        rw [Station.perform, acted]
      rw [Station.runBody, performed]
      cases r with
      | ok answer => exact ih _
      | error e =>
        unfold resume
        by_cases attempt : a.isAttempt
        · simp only [attempt, if_true]
          exact ih _
        · simp only [attempt]
          exact .refl

/-- A callback that begins runs to its end. -/
theorem turns_callback (trigger : Trigger) (scope : Option TaskId) (body : Body) (t : Station)
    (d : Desk) (more : List Chore) :
    Turns ((⟨u, d⟩ : Shift).beginCallback t trigger scope body more)
      ⟨(t.runCallback trigger scope body).1,
        d.plan (trigger.after scope (t.runCallback trigger scope body).2 ++ more)⟩ := by
  have ran := turns_body trigger scope body
    (t.note (.began trigger scope t.worker.registry.running body)) (d.plan more)
  have ended (t : Station) (r : Except TaskError Unit) :
      (⟨t, d.plan more⟩ : Shift).endCallback trigger scope r
        = ⟨t.note (.ended trigger r), d.plan (trigger.after scope r ++ more)⟩ := by
    simp only [endCallback, goTo, Desk.plan, List.append_assoc]
  rw [ended] at ran
  exact ran

/-! ### Timers -/

/-- The first of the timers that were handed out runs. -/
theorem turns_timer (origin : Option TaskId) (r : ReadyTimer Body) (rest : List (ReadyTimer Body))
    (t : Station) (d : Desk) :
    Turns ⟨t, d.plan [.timers origin (r :: rest)]⟩
      ⟨(t.runTimer origin r).1,
        (d.addFailures (t.runTimer origin r).2).plan [.timers origin rest]⟩ := by
  unfold Station.runTimer Station.fireTimer
  cases fired : r.result with
  | ok u =>
    refine turns_take (by simp only [take?, nextTimer, fired]; rfl) ?_
    have called := turns_callback (u := t) (.timer r.id) origin r.callback t d [.timers origin rest]
    refine called.trans ?_
    cases t.runCallback (.timer r.id) origin r.callback with
    | mk u outcome => cases outcome <;> exact turns_take rfl .refl
  | error e =>
    refine turns_take (by simp only [take?, nextTimer, fired]; rfl) ?_
    exact turns_take rfl .refl

/-- Timers that were handed out run one after the other. -/
theorem turns_timers (origin : Option TaskId) (ready : List (ReadyTimer Body)) (t : Station)
    (d : Desk) :
    Turns ⟨t, d.plan [.timers origin ready]⟩
      ⟨(Station.runTimers origin ready t).1,
        d.addFailures (Station.runTimers origin ready t).2⟩ := by
  induction ready generalizing t d with
  | nil => exact turns_take rfl .refl
  | cons r rest ih =>
    have more := ih (t.runTimer origin r).1 (d.addFailures (t.runTimer origin r).2)
    have counted : (d.addFailures (t.runTimer origin r).2).addFailures
        (Station.runTimers origin rest (t.runTimer origin r).1).2
        = d.addFailures (Station.runTimers origin (r :: rest) t).2 := by
      simp only [Desk.addFailures, Station.runTimers, Nat.add_assoc]
    rw [counted] at more
    exact (turns_timer origin r rest t d).trans more

/-! ### Settling -/

theorem settle?_looking {b c : Bridge Body} {h : Host} {ready : List (ReadyTimer Body)}
    (some : b.timers.waiting ≠ []) (taken : b.takeReady h = (ready, c)) (origin : Option TaskId)
    (t : Station) (d : Desk) :
    (⟨{ t with host := h, worker := { t.worker with bridge := b } }, d⟩ : Shift).settle? origin
        .looking
      = .some ⟨{ t with host := h, worker := { t.worker with bridge := c } },
        d.plan (if ready.isEmpty then [.settle origin .driving]
          else [.timers origin ready, .settle origin .looking])⟩ := by
  have nonempty : b.timers.waiting.isEmpty = false := by simpa using some
  simp only [settle?, nonempty, taken]
  cases ready <;> rfl

/-- A poll comes to an end: timers are handed out, or none is waiting. -/
theorem turns_poll {n : Nat} {b c : Bridge Body} {h k : Host} {ready : List (ReadyTimer Body)}
    (polls : Bridge.Polls n b h ready c k) (origin : Option TaskId) (t : Station) (d : Desk) :
    Turns ⟨{ t with host := h, worker := { t.worker with bridge := b } },
        d.plan [.settle origin .looking]⟩
      ⟨{ t with host := k, worker := { t.worker with bridge := c } },
        d.plan (if ready.isEmpty then []
          else [.timers origin ready, .settle origin .looking])⟩ := by
  induction polls with
  | idle none => exact turns_take (by simp only [take?, settle?, none]; rfl) .refl
  | @found b c h r rest ready =>
    have some : b.timers.waiting ≠ [] := by
      intro none
      have nothing : (b.takeReady h).1 = [] := by
        simp only [Bridge.takeReady, TimerTable.takeReady, TimerTable.ready, none]
        rfl
      rw [ready] at nothing
      cases nothing
    exact turns_take (settle?_looking some ready origin t d) .refl
  | @drove n b c e h k l ready some missed fired rest ih =>
    refine turns_take (settle?_looking some missed origin t d) ?_
    refine turns_take (by simp only [take?, settle?, fired]; rfl) ih
  | @blocked n b c e h k l ready w missed idle first found rest ih =>
    obtain ⟨done, completed⟩ := Option.isSome_iff_exists.mp found
    obtain ⟨others, waiting⟩ := List.head?_eq_some_iff.mp first
    have some : b.timers.waiting ≠ [] := by
      intro none
      have nothing : c.timers.waiting = [] := by
        rw [← show (b.takeReady h).2 = c by rw [missed]]
        simp only [Bridge.takeReady, TimerTable.takeReady, none, List.filter_nil]
      rw [waiting] at nothing
      cases nothing
    refine turns_take (settle?_looking some missed origin t d) ?_
    refine turns_take (by simp only [take?, settle?, idle]; rfl) ?_
    exact turns_take (by simp only [take?, settle?, waiting, completed]; rfl) ih

/-- Settling comes to its end. -/
theorem turns_settle (origin : Option TaskId) {t : Station} (answered : t.Answered) (d : Desk) :
    Turns ⟨t, d.plan [.settle origin .looking]⟩
      ⟨(t.settle origin).1, d.addFailures (t.settle origin).2⟩ := by
  fun_induction Station.settle origin t generalizing d with
  | case1 t u hp =>
    obtain ⟨n, -, polls⟩ := Bridge.polls_poll answered
    have polled := turns_poll polls origin t d
    have none : (t.worker.bridge.poll t.host).1 = [] := congrArg Prod.fst hp
    have after : t.poll.2 = u := congrArg Prod.snd hp
    rw [none] at polled
    rw [← after]
    exact polled
  | case2 t r rest u hp ran more ih =>
    obtain ⟨n, -, polls⟩ := Bridge.polls_poll answered
    have polled := turns_poll polls origin t d
    have some : (t.worker.bridge.poll t.host).1 = r :: rest := congrArg Prod.fst hp
    obtain rfl : t.poll.2 = u := congrArg Prod.snd hp
    rw [some] at polled
    refine polled.trans ((turns_timers origin (r :: rest) t.poll.2
      (d.plan [.settle origin .looking])).trans ?_)
    have deeds : Station.Deeds HostCall.Any t ran.1 :=
      .trans (.single (.poll t))
        (Station.deeds_runTimers origin (fun q _ => Body.obeys_any q.callback) t.poll.2)
    have rounds := ih (Station.answered_deeds answered deeds) (d.addFailures ran.2)
    have counted : (d.addFailures ran.2).addFailures more.2 = d.addFailures (ran.2 + more.2) := by
      simp only [Desk.addFailures, Nat.add_assoc]
    rw [counted] at rounds
    exact rounds

/-! ### Steps of loops -/

/-- A pulled task is run, and the loop in hand reports on it. -/
theorem turns_task (task : TaskId) (body : Body) {t : Station} (answered : t.Answered) (d : Desk)
    (l : DispatchLoop) (more : List Chore) :
    ∃ n, Turns ((⟨u, d.setLoop l⟩ : Shift).beginCallback (t.beginTask task) (.task task) (some task)
        body more)
      ((⟨(((t.beginTask task).runCallback (.task task) (some task) body).1.settle (some task)).1,
          ((d.setLoop l).addFailures n).plan more⟩ : Shift).finish task
        (t.runTask task body).2) := by
  let ran := (t.beginTask task).runCallback (.task task) (some task) body
  let first := (t.beginTask task).note (.began (.task task) (some task) (some task) body)
  have begins : first.Answered := answered
  have ends := Station.answered_deeds begins
    (Station.deeds_runBody (some task) (Body.obeys_any body) first)
  have settled := turns_settle (t := ran.1) (some task) ends
    ((d.setLoop l).plan (.finish task ran.2 :: more))
  refine ⟨(ran.1.settle (some task)).2, ?_⟩
  refine (turns_callback (u := u) (.task task) (some task) body (t.beginTask task) (d.setLoop l)
    more).trans (settled.trans ?_)
  exact .single rfl

/-- A pulled id is dispatched: it is skipped, or its task is run, and the loop in hand reports
on it. -/
theorem turns_dispatch {t : Station} (answered : t.Answered) (d : Desk) {task : TaskId}
    {report : DrainReport} {k : DispatchLoop}
    (stepped : (⟨.dispatching task, report⟩ : DispatchLoop).step t = (k, u, .ok ()))
    (more : List Chore) :
    ∃ n, Turns ((⟨t, d⟩ : Shift).beginStep ⟨.dispatching task, report⟩ more)
      ⟨u, ((d.setLoop k).addFailures n).plan (if k.state = .drained then [] else more)⟩ := by
  simp only [beginStep]
  cases registered : t.worker.registry.callback? task with
  | none =>
    have taken : t.takeCallback task = (none, (t.takeCallback task).2) := Prod.ext registered rfl
    have dispatched := DispatchLoop.dispatch_unregistered (r := report) registered
    simp only [DispatchLoop.step, dispatched] at stepped
    obtain ⟨rfl, after⟩ := Prod.mk.inj stepped
    obtain ⟨rfl, -⟩ := Prod.mk.inj after
    rw [taken]
    exact ⟨0, .refl⟩
  | some body =>
    have taken : t.takeCallback task = (some body, (t.takeCallback task).2) :=
      Prod.ext registered rfl
    have taken' : (t.takeCallback task).2.Answered := answered
    obtain ⟨n, ran⟩ := turns_task (u := t) task body taken' d ⟨.pullPending, report⟩ more
    rw [taken]
    refine ⟨n, ran.trans ?_⟩
    cases done : (t.takeCallback task).2.runTask task body with
    | mk v r =>
      have settled : ((((t.takeCallback task).2.beginTask task).runCallback (.task task)
          (some task) body).1.settle (some task)).1.finishTask = v := congrArg Prod.fst done
      cases r with
      | ok =>
        have dispatched := DispatchLoop.dispatch_executed (l := ⟨.dispatching task, report⟩)
          registered done
        simp only [DispatchLoop.step, dispatched] at stepped
        obtain ⟨rfl, after⟩ := Prod.mk.inj stepped
        obtain ⟨rfl, -⟩ := Prod.mk.inj after
        simp only [finish, settled, Desk.modifyLoop_setLoop]
        exact .refl
      | error e =>
        have dispatched := DispatchLoop.dispatch_failed (l := ⟨.dispatching task, report⟩)
          registered done
        simp only [DispatchLoop.step, dispatched] at stepped
        obtain ⟨rfl, after⟩ := Prod.mk.inj stepped
        obtain ⟨rfl, -⟩ := Prod.mk.inj after
        simp only [finish, settled, Desk.modifyLoop_setLoop]
        exact .refl

/-- A step of the loop in hand that succeeds; when the loop is drained the rest of the
agenda is not for it. -/
theorem turns_step_ok {t : Station} (answered : t.Answered) {d : Desk} {l k : DispatchLoop}
    (present : d.loop? = some l) (stepped : l.step t = (k, u, .ok ())) (more : List Chore) :
    ∃ n, Turns ((⟨t, d⟩ : Shift).beginStep l more)
      ⟨u, ((d.setLoop k).addFailures n).plan (if k.state = .drained then [] else more)⟩ := by
  obtain ⟨state, report⟩ := l
  cases state with
  | idle =>
    obtain ⟨rfl, after⟩ := Prod.mk.inj stepped
    obtain ⟨rfl, -⟩ := Prod.mk.inj after
    exact ⟨_, turns_settle none answered ((d.setLoop ⟨.pullPending, report⟩).plan more)⟩
  | pullPending =>
    unfold beginStep
    simp only [DispatchLoop.step] at stepped
    cases pulled : t.pull with
    | mk v r =>
      rw [pulled] at stepped
      simp only
      cases r with
      | error e => cases stepped
      | ok task =>
        cases task with
        | none =>
          obtain ⟨rfl, after⟩ := Prod.mk.inj stepped
          obtain ⟨rfl, -⟩ := Prod.mk.inj after
          refine ⟨0, turns_take ?_ .refl⟩
          simp only [take?, Desk.plan, List.nil_append, Desk.loop?_setLoop present]
          rfl
        | some task =>
          obtain ⟨rfl, after⟩ := Prod.mk.inj stepped
          obtain ⟨rfl, -⟩ := Prod.mk.inj after
          exact ⟨0, .refl⟩
  | dispatching task => exact turns_dispatch answered d stepped more
  | drained =>
    obtain ⟨rfl, after⟩ := Prod.mk.inj stepped
    obtain ⟨rfl, -⟩ := Prod.mk.inj after
    refine ⟨0, ?_⟩
    rw [Desk.setLoop_self present]
    exact .refl

theorem turns_step_error {t : Station} {d : Desk} {l k : DispatchLoop} {e : DispatchError}
    (stepped : l.step t = (k, u, .error e)) (more : List Chore) :
    (⟨t, d⟩ : Shift).beginStep l more = ⟨u, d.note (.stopped e)⟩ := by
  obtain ⟨pulls, -, error, rfl, pulled⟩ := View.step_eq_error stepped
  obtain ⟨state, report⟩ := l
  obtain rfl := pulls
  simp only [beginStep, pulled]

theorem turn?_step {d : Desk} {l : DispatchLoop} (present : d.loop? = some l) (t : Station)
    (again : Bool) :
    (⟨t, d.plan [.step again]⟩ : Shift).turn?
      = some ((⟨t, d⟩ : Shift).beginStep l (if again then [.step true] else [])) := by
  show (match d.loop? with | some l => _ | none => _) = _
  rw [present]
  rfl

/-- A step of the loop in hand comes to its end, or a pull fails. -/
theorem turns_step {t : Station} (answered : t.Answered) {d : Desk} {l k : DispatchLoop}
    {r : Except DispatchError Unit} (present : d.loop? = some l) (stepped : l.step t = (k, u, r)) :
    ∃ n, Turns ⟨t, d.plan [.step false]⟩ ⟨u, match r with
      | .ok _ => (d.setLoop k).addFailures n
      | .error e => d.note (.stopped e)⟩ := by
  have begins := turn?_step present t false
  cases r with
  | ok done =>
    obtain ⟨n, turns⟩ := turns_step_ok answered present stepped []
    rw [ite_self] at turns
    exact ⟨n, .head begins turns⟩
  | error e =>
    rw [turns_step_error stepped] at begins
    exact ⟨0, .single begins⟩

/-- A run of the loop in hand comes to its end: the loop is drained and has its report, or
a pull has failed. -/
theorem turns_run {t : Station} (answered : t.Answered) {d : Desk} {l : DispatchLoop}
    (present : d.loop? = some l) :
    ∃ n k, Turns ⟨t, d.plan [.step true]⟩ ⟨(l.run t).1, match (l.run t).2 with
        | .ok _ => (d.setLoop k).addFailures n
        | .error e => ((d.setLoop k).addFailures n).note (.stopped e)⟩
      ∧ ∀ r, (l.run t).2 = .ok r → k = ⟨.drained, r⟩ := by
  have begins {d : Desk} {l : DispatchLoop} (present : d.loop? = some l) (t : Station) :
      (⟨t, d.plan [.step true]⟩ : Shift).turn? = some ((⟨t, d⟩ : Shift).beginStep l [.step true]) :=
    turn?_step present t true
  fun_induction DispatchLoop.run l t generalizing d with
  | case1 l t drained =>
    obtain ⟨state, report⟩ := l
    obtain rfl := drained
    refine ⟨0, ⟨.drained, report⟩, .head (begins present t) ?_, fun r h => ?_⟩
    · rw [Desk.setLoop_self present]
      exact .refl
    · obtain rfl := Except.ok.inj h
      rfl
  | case2 l t pending k u e stepped =>
    obtain ⟨-, rfl, -⟩ := View.step_eq_error stepped
    refine ⟨0, k, .head (begins present t) ?_, fun r h => by cases h⟩
    rw [turns_step_error stepped, Desk.setLoop_self present]
    exact .refl
  | case3 l t pending k u stepped ih =>
    have answered' := View.answered_moves answered (View.moves_step [] [] l t.obeys_any)
    rw [stepped] at answered'
    obtain ⟨n, first⟩ := turns_step_ok answered present stepped [.step true]
    have present' : ((d.setLoop k).addFailures n).loop? = some k := Desk.loop?_setLoop present k
    by_cases drained : k.state = .drained
    · rw [if_pos drained] at first
      rw [DispatchLoop.run_drained drained]
      refine ⟨n, k, .head (begins present t) first, fun r h => ?_⟩
      obtain ⟨state, report⟩ := k
      obtain rfl := Except.ok.inj h
      exact congrArg (DispatchLoop.mk · report) drained
    · rw [if_neg drained] at first
      obtain ⟨m, last, rest, report⟩ := ih answered' present'
      refine ⟨n + m, last, .head (begins present t) (first.trans ?_), report⟩
      have whole : (((d.setLoop k).addFailures n).setLoop last).addFailures m
          = (d.setLoop last).addFailures (n + m) := by
        simp only [Desk.setLoop, Desk.modifyLoop, Desk.addFailures, List.modify_modify_eq,
          Nat.add_assoc]
        rfl
      rw [whole] at rest
      exact rest

end Shift
end TaskHost
