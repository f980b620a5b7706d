/-
# Workers that keep to themselves

On a host without faults and outages a worker that keeps away from files, routes, timers
and the clock cannot tell whether others are there: it finds in its context what it has put
there itself. Two hosts that agree on this context, and show the same time, are the same
for such a worker (`Shift.mirrors_turn`), so it comes to the same at both
(`Station.Mirrors.complete`). Each worker of a floor therefore does, whatever turns others
take between its own, what it does alone (`Floor.play_alone`).

Key definitions: `Action.Secluded`, `Worker.Secluded`, `Host.Agrees`, `Station.Mirrors`,
`Shift.Mirrors`, `Floor.Secluded`.
Key theorems: `Station.Mirrors.act`, `Shift.mirrors_turn`, `Station.Mirrors.complete`,
`Floor.play_alone`.
-/
import TaskHost.Proofs.Floors

namespace TaskHost

/-! ### Secluded workers -/

/-- Whether a call keeps to the queue and the signals of its context. -/
def HostCall.Secluded : HostCall → Prop
  | .push _ => True
  | .pull => True
  | .signal => True
  | .pending => True
  | _ => False

mutual

/-- Whether an action keeps away from files, routes, timers and the clock, and every
callback that it leaves behind does. -/
def Action.Secluded : Action → Prop
  | .call c => c.Secluded
  | .register _ body => Body.Secluded body
  | .setTimeout _ _ => False
  | .pause _ => False
  | .attempt a => a.Secluded
  | _ => True

/-- Whether all actions of a callback do. -/
def Body.Secluded : List Action → Prop
  | [] => True
  | a :: rest => a.Secluded ∧ Body.Secluded rest

end

/-- Whether a chore does, and its callback. -/
def Chore.Secluded : Chore → Prop
  | .ask a => a.Secluded
  | .goOn (.task _) _ body => Body.Secluded body
  | .settle _ .looking => True
  | .finish _ _ => True
  | .sumUp => True
  | .step _ => True
  | _ => False

/-- Whether an operation does. -/
def Operation.Secluded : Operation → Prop
  | .act a => a.Secluded
  | _ => True

/-- A worker that has set no timer, with callbacks that keep away from everything but
its context. -/
structure Worker.Secluded (w : Worker) : Prop where
  timers : w.bridge.timers.waiting = []
  callbacks : ∀ c ∈ w.registry.callbacks, Body.Secluded c.2

/-! ### Hosts that are the same for a context -/

namespace Host

variable {h k : Host} {id : ContextId} {now : Instant}

/-- No fault is planned, every call reaches the host, and it is this time. -/
structure Calm (now : Instant) (h : Host) : Prop where
  faults : h.faults = .zero
  outages : h.outages = .clear
  clock : h.clock = now

/-- Two calm hosts at one time, with the same context. -/
structure Agrees (now : Instant) (id : ContextId) (h k : Host) : Prop where
  calm : h.Calm now
  calm' : k.Calm now
  context : k.context? id = h.context? id

theorem Calm.registerTask (calm : h.Calm now) (task : TaskId) :
    h.registerTask id task = h.enqueue false id task := by
  obtain ⟨faults, outages, -⟩ := calm
  have passed : h.passRegistration.withFaults h.passRegistration.faults.takeDroppedRegistration.2
      = h := by
    obtain ⟨⟩ := h
    obtain rfl := faults
    obtain rfl := outages
    rfl
  have kept : h.passRegistration.faults.takeDroppedRegistration.1 = false := by
    rw [show h.passRegistration.faults = .zero from faults]
    rfl
  unfold Host.registerTask queueTask
  rw [outages, if_neg (by decide)]
  simp only [passed, kept]

theorem Calm.pull (calm : h.Calm now) : h.pull id = h.dequeue false id := by
  obtain ⟨faults, outages, -⟩ := calm
  have passed : h.passPull.withFaults h.passPull.faults.takeRepeatPull.2 = h := by
    obtain ⟨⟩ := h
    obtain rfl := faults
    obtain rfl := outages
    rfl
  have taken : h.passPull.faults.takeRepeatPull.1 = false := by
    rw [show h.passPull.faults = .zero from faults]
    rfl
  unfold Host.pull unqueueTask
  rw [outages, if_neg (by decide)]
  simp only [passed, taken]

theorem Calm.modifyContext (calm : h.Calm now) (f : Context → Context) :
    (h.modifyContext id f).Calm now := by
  cases id <;> exact ⟨calm.faults, calm.outages, calm.clock⟩

theorem Agrees.modifyContext (agrees : Agrees now id h k) (f : Context → Context) :
    Agrees now id (h.modifyContext id f) (k.modifyContext id f) where
  calm := agrees.calm.modifyContext f
  calm' := agrees.calm'.modifyContext f
  context := by rw [context?_modifyContext, context?_modifyContext, agrees.context]

theorem Agrees.print (agrees : Agrees now id h k) (line : String) (isError : Bool) :
    Agrees now id (h.print line isError) (k.print line isError) :=
  ⟨⟨agrees.calm.faults, agrees.calm.outages, agrees.calm.clock⟩,
    ⟨agrees.calm'.faults, agrees.calm'.outages, agrees.calm'.clock⟩, agrees.context⟩

theorem Agrees.registerTask (agrees : Agrees now id h k) (task : TaskId) :
    (k.registerTask id task).2 = (h.registerTask id task).2
      ∧ Agrees now id (h.registerTask id task).1 (k.registerTask id task).1 := by
  rw [agrees.calm.registerTask, agrees.calm'.registerTask]
  unfold enqueue
  rw [agrees.context]
  cases h.context? id with
  | none => exact ⟨rfl, agrees⟩
  | some c =>
    simp only [Bool.false_eq_true, if_false]
    cases c.queue.push? task with
    | none => exact ⟨rfl, agrees⟩
    | some queue => exact ⟨rfl, agrees.modifyContext _⟩

theorem Agrees.pull (agrees : Agrees now id h k) :
    (k.pull id).2 = (h.pull id).2 ∧ Agrees now id (h.pull id).1 (k.pull id).1 := by
  rw [agrees.calm.pull, agrees.calm'.pull]
  unfold dequeue
  rw [agrees.context]
  cases h.context? id with
  | none => exact ⟨rfl, agrees⟩
  | some c => exact ⟨rfl, agrees.modifyContext _⟩

end Host

/-! ### Stations that are the same for a worker -/

namespace Station

variable {s t : Station} {now : Instant}

/-- A secluded worker in the same state at two hosts that agree on its context. -/
inductive Mirrors (now : Instant) : Station → Station → Prop
  | of {h k : Host} {w : Worker} (agrees : h.Agrees now w.bridge.context k)
      (secluded : w.Secluded) (journal : List Occurrence) :
      Mirrors now ⟨h, w, journal⟩ ⟨k, w, journal⟩

theorem Mirrors.worker (mirrors : s.Mirrors now t) : t.worker = s.worker := by
  cases mirrors
  rfl

theorem Mirrors.clock (mirrors : s.Mirrors now t) : t.host.clock = s.host.clock := by
  obtain ⟨agrees, -, -⟩ := mirrors
  exact agrees.calm'.clock.trans agrees.calm.clock.symm

theorem Mirrors.note (mirrors : s.Mirrors now t) (o : Occurrence) :
    (s.note o).Mirrors now (t.note o) := by
  obtain ⟨agrees, secluded, journal⟩ := mirrors
  exact .of agrees secluded (journal ++ [o])

theorem mirrors_logger {h k : Host} {w : Worker} (agrees : h.Agrees now w.bridge.context k)
    (secluded : w.Secluded) (l : Logger) (journal : List Occurrence) :
    Mirrors now ⟨h, { w with logger := l }, journal⟩ ⟨k, { w with logger := l }, journal⟩ :=
  .of (w := { w with logger := l }) agrees ⟨secluded.timers, secluded.callbacks⟩ journal

theorem Mirrors.log (mirrors : s.Mirrors now t) (e : LogEntry) :
    (s.log e).Mirrors now (t.log e) := by
  obtain ⟨agrees, secluded, journal⟩ := mirrors
  unfold Station.log Logger.log
  simp only
  split
  · exact mirrors_logger (agrees.print _ _) secluded _ journal
  · exact mirrors_logger agrees secluded _ journal

theorem Mirrors.withRegistry (mirrors : s.Mirrors now t) {r : Registry Body}
    (callbacks : ∀ c ∈ r.callbacks, Body.Secluded c.2) :
    (s.withRegistry r s.host).Mirrors now (t.withRegistry r t.host) := by
  obtain @⟨h, k, w, agrees, ⟨timers, -⟩, journal⟩ := mirrors
  exact .of (w := { w with registry := r }) agrees ⟨timers, callbacks⟩ journal

theorem Mirrors.register (mirrors : s.Mirrors now t) (task : TaskId) (body : Body)
    (quiet : Body.Secluded body) :
    (s.register task body).1.Mirrors now (t.register task body).1
      ∧ (t.register task body).2 = (s.register task body).2 := by
  obtain @⟨h, k, w, agrees, secluded, journal⟩ := mirrors
  have faults : k.faults = h.faults := agrees.calm'.faults.trans agrees.calm.faults.symm
  have result := agrees.registerTask task
  unfold Station.register
  rw [Registry.register_eq, Registry.register_eq]
  simp only [context]
  cases w.registry.refusal? task with
  | some e => exact ⟨.of agrees secluded journal, rfl⟩
  | none =>
    simp only
    cases hr : h.registerTask w.bridge.context task with
    | mk h' r =>
      cases kr : k.registerTask w.bridge.context task with
      | mk k' r' =>
        rw [hr, kr] at result
        obtain ⟨rfl, agrees'⟩ : r' = r ∧ h'.Agrees now w.bridge.context k' := result
        have after : Mirrors now ⟨h', w, journal⟩ ⟨k', w, journal⟩ := .of agrees' secluded journal
        cases r' with
        | error e => exact ⟨after, rfl⟩
        | ok u =>
          have added : ∀ c ∈ (w.registry.add task body).callbacks, Body.Secluded c.2 := by
            intro c member
            rcases List.mem_append.mp member with old | new
            · exact secluded.callbacks c old
            · obtain rfl := List.mem_singleton.mp new
              exact quiet
          refine ⟨?_, rfl⟩
          simp only [faults]
          exact (after.withRegistry added).note _

theorem Mirrors.pull (mirrors : s.Mirrors now t) :
    s.pull.1.Mirrors now t.pull.1 ∧ t.pull.2 = s.pull.2 := by
  obtain @⟨h, k, w, agrees, secluded, journal⟩ := mirrors
  have result := agrees.pull
  unfold Station.pull
  simp only [context]
  cases hr : h.pull w.bridge.context with
  | mk h' r =>
    cases kr : k.pull w.bridge.context with
    | mk k' r' =>
      rw [hr, kr] at result
      obtain ⟨rfl, agrees'⟩ : r' = r ∧ h'.Agrees now w.bridge.context k' := result
      have after : Mirrors now ⟨h', w, journal⟩ ⟨k', w, journal⟩ := .of agrees' secluded journal
      cases r' with
      | error e => exact ⟨after, rfl⟩
      | ok task => exact ⟨after.note _, rfl⟩

theorem Mirrors.call (mirrors : s.Mirrors now t) {c : HostCall} (quiet : c.Secluded) :
    (s.call c).1.Mirrors now (t.call c).1 ∧ (t.call c).2 = (s.call c).2 := by
  obtain ⟨agrees, secluded, journal⟩ := mirrors
  cases c with
  | push task =>
    obtain ⟨result, agrees'⟩ := agrees.registerTask task
    exact ⟨.of agrees' secluded journal, congrArg (Except.map _) result⟩
  | pull =>
    obtain ⟨result, agrees'⟩ := agrees.pull
    exact ⟨.of agrees' secluded journal, congrArg (Except.map _) result⟩
  | signal => exact ⟨.of ((agrees.modifyContext _).print _ _) secluded journal, rfl⟩
  | pending => exact ⟨.of agrees secluded journal, rfl⟩
  | _ => exact quiet.elim

theorem Mirrors.act (mirrors : s.Mirrors now t) : ∀ {a : Action}, a.Secluded →
    (s.act a).1.Mirrors now (t.act a).1 ∧ (t.act a).2 = (s.act a).2
  | .call c, quiet => by
    obtain ⟨after, result⟩ := mirrors.call (c := c) (by simpa [Action.Secluded] using quiet)
    exact ⟨after, congrArg (Except.mapError TaskError.host) result⟩
  | .mark note, _ => ⟨mirrors, rfl⟩
  | .who, _ => ⟨mirrors, by simp only [Station.act, mirrors.worker]⟩
  | .register task body, quiet => by
    obtain ⟨after, result⟩ := mirrors.register task body (by simpa [Action.Secluded] using quiet)
    refine ⟨after, ?_⟩
    simp only [Station.act, result]
  | .setTimeout _ _, quiet => by simp [Action.Secluded] at quiet
  | .console stream args, _ => by
    obtain ⟨agrees, secluded, journal⟩ := mirrors
    exact ⟨.of (agrees.print _ _) secluded journal, rfl⟩
  | .log e, _ => ⟨mirrors.log e, rfl⟩
  | .pause _, quiet => by simp [Action.Secluded] at quiet
  | .fail text, _ => ⟨mirrors, rfl⟩
  | .attempt a, quiet => mirrors.act (a := a) (by simpa [Action.Secluded] using quiet)

theorem Mirrors.takeCallback (mirrors : s.Mirrors now t) (task : TaskId) :
    (s.takeCallback task).2.Mirrors now (t.takeCallback task).2
      ∧ (t.takeCallback task).1 = (s.takeCallback task).1
      ∧ ∀ body, (s.takeCallback task).1 = some body → Body.Secluded body := by
  obtain @⟨h, k, w, agrees, secluded, journal⟩ := mirrors
  have left : ∀ c ∈ (w.registry.take task).2.callbacks, Body.Secluded c.2 :=
    fun c member => secluded.callbacks c (List.mem_filter.mp member).1
  refine ⟨(Mirrors.of agrees secluded journal).withRegistry left, rfl, fun body taken => ?_⟩
  exact secluded.callbacks _ (Registry.mem_of_callback? taken)

end Station

/-! ### Shifts that are the same for a worker -/

/-- Why a secluded worker carries out an action. -/
def Cause.Secluded : Cause → Prop
  | .asked => True
  | .callback (.task _) _ rest => Body.Secluded rest
  | .callback (.timer _) _ _ => False

/-- No secluded action pauses. -/
theorem Action.Secluded.pause? : ∀ {a : Action}, a.Secluded → a.pause? = none
  | .call c, quiet => by
    cases c with
    | sleep delay => simp [Action.Secluded, HostCall.Secluded] at quiet
    | _ => rfl
  | .pause _, quiet => by simp [Action.Secluded] at quiet
  | .attempt a, quiet => Action.Secluded.pause? (a := a) (by simpa [Action.Secluded] using quiet)
  | .mark _, _ => rfl
  | .who, _ => rfl
  | .register _ _, _ => rfl
  | .setTimeout _ _, _ => rfl
  | .console _ _, _ => rfl
  | .log _, _ => rfl
  | .fail _, _ => rfl

namespace Shift

variable {s t : Shift} {u v : Station} {d : Desk} {now : Instant}

/-- A secluded worker in the same state, with the same secluded chores on its desk. -/
inductive Mirrors (now : Instant) : Shift → Shift → Prop
  | of {u v : Station} {d : Desk} (stations : u.Mirrors now v)
      (quiet : ∀ c ∈ d.agenda, c.Secluded) : Mirrors now ⟨u, d⟩ ⟨v, d⟩

theorem mirrors_goTo (stations : u.Mirrors now v) (quiet : ∀ c ∈ d.agenda, c.Secluded)
    {chores : List Chore} (new : ∀ c ∈ chores, c.Secluded) :
    Mirrors now ⟨u, d.plan chores⟩ ⟨v, d.plan chores⟩ := by
  refine .of stations fun c member => ?_
  rcases List.mem_append.mp member with head | rest
  · exact new c head
  · exact quiet c rest

theorem mirrors_endCallback (stations : u.Mirrors now v) (quiet : ∀ c ∈ d.agenda, c.Secluded)
    (task : TaskId) (scope : Option TaskId) (outcome : Except TaskError Unit) :
    Mirrors now ((⟨u, d⟩ : Shift).endCallback (.task task) scope outcome)
      ((⟨v, d⟩ : Shift).endCallback (.task task) scope outcome) := by
  refine mirrors_goTo (stations.note _) quiet fun c member => ?_
  rcases List.mem_cons.mp member with rfl | last
  · trivial
  · obtain rfl := List.mem_singleton.mp last
    trivial

theorem mirrors_resume (stations : u.Mirrors now v) (quiet : ∀ c ∈ d.agenda, c.Secluded)
    (a : Action) (r : Except TaskError Answer) (cause : Cause) (secluded : cause.Secluded) :
    Mirrors now ((⟨u, d⟩ : Shift).resume a r cause) ((⟨v, d⟩ : Shift).resume a r cause) := by
  cases cause with
  | asked => exact .of stations quiet
  | callback trigger scope rest =>
    cases trigger with
    | timer key => exact secluded.elim
    | task key =>
      have noted := stations.note (.acted scope u.host.clock a r)
      have goesOn : ∀ c ∈ [Chore.goOn (.task key) scope rest], c.Secluded := by
        intro c member
        obtain rfl := List.mem_singleton.mp member
        exact secluded
      unfold resume
      simp only [stations.clock]
      cases r with
      | ok answer => exact mirrors_goTo noted quiet goesOn
      | error e =>
        simp only
        split
        · exact mirrors_goTo noted quiet goesOn
        · exact mirrors_endCallback noted quiet key scope (.error e)

theorem mirrors_carryOut (stations : u.Mirrors now v) (quiet : ∀ c ∈ d.agenda, c.Secluded)
    {a : Action} (action : a.Secluded) (cause : Cause) (secluded : cause.Secluded) :
    Mirrors now ((⟨u, d⟩ : Shift).carryOut cause a) ((⟨v, d⟩ : Shift).carryOut cause a) := by
  obtain ⟨acted, result⟩ := stations.act action
  unfold carryOut
  simp only [action.pause?, result]
  exact mirrors_resume acted quiet a _ cause secluded

theorem mirrors_finish (stations : u.Mirrors now v) (quiet : ∀ c ∈ d.agenda, c.Secluded)
    (task : TaskId) (outcome : Except TaskError Unit) :
    Mirrors now ((⟨u, d⟩ : Shift).finish task outcome) ((⟨v, d⟩ : Shift).finish task outcome) := by
  have finished : u.finishTask.Mirrors now v.finishTask := by
    obtain ⟨agrees, secluded, journal⟩ := stations
    exact (Station.Mirrors.of agrees secluded journal).withRegistry secluded.callbacks
  cases outcome with
  | ok => exact .of finished quiet
  | error e => exact .of (finished.log _) quiet

theorem mirrors_beginStep (stations : u.Mirrors now v) (quiet : ∀ c ∈ d.agenda, c.Secluded)
    (l : DispatchLoop) {more : List Chore} (new : ∀ c ∈ more, c.Secluded) :
    Mirrors now ((⟨u, d⟩ : Shift).beginStep l more) ((⟨v, d⟩ : Shift).beginStep l more) := by
  obtain ⟨state, report⟩ := l
  have same (l : DispatchLoop) : ∀ c ∈ (d.setLoop l).agenda, c.Secluded := quiet
  have also {c : Chore} (secluded : c.Secluded) : ∀ k ∈ c :: more, k.Secluded :=
    List.forall_mem_cons.mpr ⟨secluded, new⟩
  cases state with
  | idle => exact mirrors_goTo stations (same _) (also trivial)
  | pullPending =>
    have pulled := stations.pull
    simp only [beginStep]
    cases up : u.pull with
    | mk u' r =>
      cases vp : v.pull with
      | mk v' r' =>
        rw [up, vp] at pulled
        obtain ⟨after, rfl⟩ : u'.Mirrors now v' ∧ r' = r := pulled
        cases r' with
        | error e => exact .of after quiet
        | ok task =>
          cases task with
          | none =>
            refine mirrors_goTo after (same _) fun c member => ?_
            obtain rfl := List.mem_singleton.mp member
            trivial
          | some task => exact mirrors_goTo after (same _) new
  | dispatching task =>
    obtain ⟨left, found, quiet'⟩ := stations.takeCallback task
    simp only [beginStep]
    cases up : u.takeCallback task with
    | mk r u' =>
      cases vp : v.takeCallback task with
      | mk r' v' =>
        rw [up, vp] at left found
        rw [up] at quiet'
        obtain rfl : r' = r := found
        cases r' with
        | none => exact mirrors_goTo (stations.log _) (same _) new
        | some body =>
          have begun : (u'.beginTask task).Mirrors now (v'.beginTask task) := by
            obtain ⟨agrees, secluded, journal⟩ := left
            exact (Station.Mirrors.of agrees secluded journal).withRegistry secluded.callbacks
          simp only [beginCallback, begun.worker]
          exact mirrors_goTo (begun.note _) (same _) (also (quiet' body rfl))
  | drained => exact .of stations quiet

/-- A secluded chore is taken at both stations, and both shifts stay alike. -/
theorem mirrors_take (stations : u.Mirrors now v) (quiet : ∀ c ∈ d.agenda, c.Secluded)
    {c : Chore} (chore : c.Secluded) :
    Option.Rel (Mirrors now) ((⟨u, d⟩ : Shift).take? c) ((⟨v, d⟩ : Shift).take? c) := by
  cases c with
  | ask a => exact .some (mirrors_carryOut stations quiet chore .asked trivial)
  | goOn trigger scope body =>
    cases trigger with
    | timer key => exact chore.elim
    | task key =>
      cases body with
      | nil => exact .some (mirrors_endCallback stations quiet key scope (.ok ()))
      | cons a rest =>
        have both : a.Secluded ∧ Body.Secluded rest := by
          simpa only [Chore.Secluded, Body.Secluded] using chore
        exact .some
          (mirrors_carryOut stations quiet both.1 (.callback (.task key) scope rest) both.2)
  | settle origin stage =>
    cases stage with
    | looking =>
      obtain ⟨agrees, secluded, journal⟩ := stations
      simp only [take?, settle?, secluded.timers]
      exact .some (.of (.of agrees secluded journal) quiet)
    | _ => exact chore.elim
  | finish task outcome => exact .some (mirrors_finish stations quiet task outcome)
  | sumUp =>
    simp only [take?]
    cases d.loop? with
    | none => exact .some (.of stations quiet)
    | some l => exact .some (.of (stations.log _) quiet)
  | step again =>
    simp only [take?]
    cases d.loop? with
    | none => exact .some (.of stations quiet)
    | some l =>
      refine .some (mirrors_beginStep stations quiet l fun c member => ?_)
      cases again with
      | false => cases member
      | true =>
        obtain rfl := List.mem_singleton.mp member
        trivial
  | _ => exact chore.elim

/-- A secluded worker takes the same turn at both hosts. -/
theorem mirrors_turn (mirrors : s.Mirrors now t) : Option.Rel (Mirrors now) s.turn? t.turn? := by
  obtain @⟨u, v, d, stations, quiet⟩ := mirrors
  unfold turn?
  obtain ⟨agenda, loops, hand, failures, endings⟩ := d
  cases agenda with
  | nil => exact .none
  | cons c rest =>
    obtain ⟨chore, quiet⟩ := List.forall_mem_cons.mp quiet
    exact mirrors_take (d := ⟨rest, loops, hand, failures, endings⟩) stations quiet chore

end Shift

/-! ### Operations in one piece -/

namespace Station

variable {s t u v : Station} {now : Instant}

theorem Mirrors.answered (mirrors : s.Mirrors now t) : s.Answered ∧ t.Answered := by
  obtain @⟨h, k, w, agrees, secluded, journal⟩ := mirrors
  have none (k : Host) : Station.Answered ⟨k, w, journal⟩ := by
    intro x waits
    rw [secluded.timers] at waits
    cases waits
  exact ⟨none h, none k⟩

/-- An operation comes to the same at both stations. -/
theorem Mirrors.complete (mirrors : s.Mirrors now t) {d e e' : Desk} {c : Chore}
    (free : d.agenda = []) (quiet : c.Secluded) (turns : Shift.Turns ⟨s, d.plan [c]⟩ ⟨u, e⟩)
    (turns' : Shift.Turns ⟨t, d.plan [c]⟩ ⟨v, e'⟩) (ended : e.agenda = [])
    (ended' : e'.agenda = []) : u.Mirrors now v ∧ e' = e := by
  have none : ∀ c ∈ d.agenda, c.Secluded := by
    rw [free]
    exact fun c member => by cases member
  have reached := Shift.turns_related (fun _ _ => Shift.mirrors_turn)
    (Shift.mirrors_goTo mirrors none (List.forall_mem_singleton.mpr quiet)) turns turns'
    (Shift.turn?_free u ended) (Shift.turn?_free v ended')
  cases reached with
  | of stations _ => exact ⟨stations, rfl⟩

theorem Mirrors.settle (mirrors : s.Mirrors now t) (origin : Option TaskId) :
    (s.settle origin).1.Mirrors now (t.settle origin).1
      ∧ (t.settle origin).2 = (s.settle origin).2 := by
  obtain ⟨answered, answered'⟩ := mirrors.answered
  obtain ⟨after, desk⟩ := mirrors.complete (c := .settle origin .looking) rfl trivial
    (Shift.turns_settle origin answered .empty) (Shift.turns_settle origin answered' .empty) rfl rfl
  have failures := congrArg Desk.failures desk
  simp only [Desk.addFailures, Desk.empty, Nat.zero_add] at failures
  exact ⟨after, failures⟩

/-- A step of a loop comes to the same. -/
theorem Mirrors.step (mirrors : s.Mirrors now t) (l : DispatchLoop) :
    (l.step s).2.1.Mirrors now (l.step t).2.1 ∧ (l.step t).1 = (l.step s).1
      ∧ (l.step t).2.2 = (l.step s).2.2 := by
  obtain ⟨answered, answered'⟩ := mirrors.answered
  cases stepped : l.step s with
  | mk k rest =>
    obtain ⟨u, r⟩ := rest
    cases stepped' : l.step t with
    | mk k' rest' =>
      obtain ⟨v, r'⟩ := rest'
      obtain ⟨n, turns⟩ := Shift.turns_step answered (d := .withLoop l) rfl stepped
      obtain ⟨n', turns'⟩ := Shift.turns_step answered' (d := .withLoop l) rfl stepped'
      obtain ⟨after, desk⟩ := mirrors.complete (c := .step false) rfl trivial turns turns'
        (by cases r <;> rfl) (by cases r' <;> rfl)
      refine ⟨after, ?_⟩
      have endings := congrArg Desk.endings desk
      cases r with
      | ok done =>
        cases r' with
        | ok done' => exact ⟨(List.cons.inj (congrArg Desk.loops desk)).1, rfl⟩
        | error e' => cases endings
      | error e =>
        cases r' with
        | ok done' => cases endings
        | error e' =>
          obtain ⟨-, rfl, -⟩ := View.step_eq_error stepped
          obtain ⟨-, rfl, -⟩ := View.step_eq_error stepped'
          cases endings
          exact ⟨rfl, rfl⟩

/-- A run of a loop comes to the same. -/
theorem Mirrors.run (mirrors : s.Mirrors now t) (l : DispatchLoop) :
    (l.run s).1.Mirrors now (l.run t).1 ∧ (l.run t).2 = (l.run s).2 := by
  obtain ⟨answered, answered'⟩ := mirrors.answered
  obtain ⟨n, k, turns, drained⟩ := Shift.turns_run answered (d := .withLoop l) rfl
  obtain ⟨n', k', turns', drained'⟩ := Shift.turns_run answered' (d := .withLoop l) rfl
  generalize (l.run s).2 = r at turns drained ⊢
  generalize (l.run t).2 = r' at turns' drained' ⊢
  obtain ⟨after, desk⟩ := mirrors.complete (c := .step true) rfl trivial turns turns'
    (by cases r <;> rfl) (by cases r' <;> rfl)
  refine ⟨after, ?_⟩
  have endings := congrArg Desk.endings desk
  cases r with
  | ok report =>
    cases r' with
    | ok report' =>
      obtain rfl := drained report rfl
      obtain rfl := drained' report' rfl
      have same := (List.cons.inj (congrArg Desk.loops desk)).1
      exact congrArg (fun l => Except.ok l.report) same
    | error e' => cases endings
  | error e =>
    cases r' with
    | ok report' => cases endings
    | error e' =>
      cases endings
      rfl

end Station

/-! ### Floors of secluded workers -/

/-- A secluded worker with secluded chores. -/
structure Clerk.Secluded (c : Clerk) : Prop where
  worker : c.worker.Secluded
  agenda : ∀ chore ∈ c.desk.agenda, chore.Secluded

namespace Floor

variable {f g : Floor} {i j : Nat} {c d : Clerk} {now : Instant}

/-- Whether an event is a turn of a clerk, or the beginning of a secluded operation. -/
def Event.Secluded : Event → Prop
  | .begins _ op => op.Secluded
  | .turns _ => True
  | _ => False

/-- Secluded clerks, each with a context of its own, at a calm host. -/
structure Secluded (now : Instant) (f : Floor) : Prop where
  calm : f.host.Calm now
  clerks : ∀ c ∈ f.clerks, c.Secluded
  apart : (f.clerks.map fun c => c.worker.bridge.context).Nodup

/-- A clerk in the same state on two floors. -/
def Alike (now : Instant) (i : Nat) (f g : Floor) : Prop :=
  ∃ c, f.clerks[i]? = some c ∧ g.clerks[i]? = some c ∧ (c.at f.host).Mirrors now (c.at g.host)

theorem Secluded.ne (secluded : f.Secluded now) (ne : i ≠ j) (first : f.clerks[i]? = some c)
    (second : f.clerks[j]? = some d) : c.worker.bridge.context ≠ d.worker.bridge.context := by
  intro same
  have within : i < (f.clerks.map fun c => c.worker.bridge.context).length := by
    rw [List.length_map]
    exact (List.getElem?_eq_some_iff.mp first).1
  refine ne ((List.getElem?_inj within secluded.apart).mp ?_)
  rw [List.getElem?_map, List.getElem?_map, first, second]
  exact congrArg some same

theorem Secluded.mirrors (secluded : f.Secluded now) (member : f.clerks[i]? = some c) :
    (c.at f.host).Mirrors now (c.at f.host) := by
  obtain ⟨worker, agenda⟩ := secluded.clerks c (List.mem_of_getElem? member)
  exact .of (.of ⟨secluded.calm, secluded.calm, rfl⟩ worker c.journal) agenda

/-- A clerk has acted. -/
theorem Secluded.set (secluded : f.Secluded now) (member : f.clerks[i]? = some c) {h : Host}
    (calm : h.Calm now) (quiet : d.Secluded)
    (same : d.worker.bridge.context = c.worker.bridge.context) :
    Secluded now ⟨h, f.clerks.set i d⟩ := by
  refine ⟨calm, fun e at_ => ?_, ?_⟩
  · rcases List.mem_or_eq_of_mem_set at_ with old | rfl
    · exact secluded.clerks e old
    · exact quiet
  · show ((f.clerks.set i d).map fun c => c.worker.bridge.context).Nodup
    have known : (f.clerks.map fun c => c.worker.bridge.context)[i]?
        = some d.worker.bridge.context := by
      rw [List.getElem?_map, member, same]
      rfl
    obtain ⟨_, kept⟩ := List.getElem?_eq_some_iff.mp known
    rw [List.map_set, ← kept, List.set_getElem_self]
    exact secluded.apart

theorem secluded_begin {k : Desk} (quiet : ∀ chore ∈ k.agenda, chore.Secluded) {op : Operation}
    (secluded : op.Secluded) : ∀ chore ∈ (k.begin op).agenda, chore.Secluded := by
  have first {chore : Chore} (h : chore.Secluded) : ∀ x ∈ chore :: k.agenda, x.Secluded :=
    List.forall_mem_cons.mpr ⟨h, quiet⟩
  cases op with
  | act a => exact first secluded
  | newLoop => exact quiet
  | _ => exact first trivial

/-- What happens to secluded clerks leaves them secluded. -/
theorem secluded_happen (secluded : f.Secluded now) {e : Event} (quiet : e.Secluded) :
    (f.happen e).Secluded now := by
  cases e with
  | begins i op =>
    simp only [happen, begin]
    split
    · next c member =>
      obtain ⟨worker, agenda⟩ := secluded.clerks c (List.mem_of_getElem? member)
      split
      · exact secluded.set member secluded.calm ⟨worker, secluded_begin agenda quiet⟩ rfl
      · exact secluded
    · exact secluded
  | turns i =>
    simp only [happen, turn]
    split
    · next c member =>
      have turned := Shift.mirrors_turn (secluded.mirrors member)
      split
      · next s took =>
        rw [took] at turned
        obtain ⟨⟨agrees, worker, journal⟩, agenda⟩ := turned
        exact secluded.set member agrees.calm ⟨worker, agenda⟩ (Shift.keeps_turn took).context
      · exact secluded
    · exact secluded
  | _ => exact quiet.elim

/-- What happens to a clerk happens alike on both floors. -/
theorem Alike.own (alike : Alike now i f g) {e : Event} (quiet : e.Secluded)
    (own : e.clerk? = some i) : Alike now i (f.happen e) (g.happen e) := by
  obtain ⟨c, member, member', mirrors⟩ := alike
  have within : i < f.clerks.length := (List.getElem?_eq_some_iff.mp member).1
  have within' : i < g.clerks.length := (List.getElem?_eq_some_iff.mp member').1
  cases e with
  | begins k op =>
    obtain rfl := Option.some.inj own
    simp only [happen, begin, member, member']
    split
    · obtain ⟨stations, agenda⟩ := mirrors
      exact ⟨_, List.getElem?_set_self within, List.getElem?_set_self within',
        .of stations (secluded_begin agenda quiet)⟩
    · exact ⟨c, member, member', mirrors⟩
  | turns k =>
    obtain rfl := Option.some.inj own
    have turned := Shift.mirrors_turn mirrors
    simp only [happen, turn, member, member']
    cases took : (c.at f.host).turn? with
    | none =>
      rw [took] at turned
      cases took' : (c.at g.host).turn? with
      | none => exact ⟨c, member, member', mirrors⟩
      | some t => rw [took'] at turned; cases turned
    | some s =>
      rw [took] at turned
      cases took' : (c.at g.host).turn? with
      | none => rw [took'] at turned; cases turned
      | some t =>
        rw [took'] at turned
        obtain ⟨⟨agrees, worker, journal⟩, agenda⟩ := turned
        exact ⟨_, List.getElem?_set_self within, List.getElem?_set_self within',
          .of (.of agrees worker journal) agenda⟩
  | _ => exact quiet.elim

/-- What happens to other clerks does not concern this one. -/
theorem Alike.other (alike : Alike now i f g) (secluded : f.Secluded now) {e : Event}
    (quiet : e.Secluded) (other : e.clerk? ≠ some i) : Alike now i (f.happen e) g := by
  obtain ⟨c, member, member', mirrors⟩ := alike
  have calm := (secluded_happen secluded quiet).calm
  have kept : (f.happen e).clerks[i]? = some c
      ∧ (f.happen e).host.context? c.worker.bridge.context
        = f.host.context? c.worker.bridge.context := by
    cases e with
    | begins k op =>
      have ne : k ≠ i := fun same => other (congrArg some same)
      simp only [happen, begin]
      split
      · split
        · exact ⟨(List.getElem?_set_ne ne).trans member, rfl⟩
        · exact ⟨member, rfl⟩
      · exact ⟨member, rfl⟩
    | turns k =>
      have ne : k ≠ i := fun same => other (congrArg some same)
      cases first : f.clerks[k]? with
      | none =>
        simp only [happen, turn, first]
        exact ⟨member, trivial⟩
      | some d => exact turn_others first member ne.symm (secluded.ne ne first member).symm
    | _ => exact quiet.elim
  obtain ⟨same, context⟩ := kept
  obtain ⟨⟨agrees, worker, _⟩, agenda⟩ := mirrors
  have still : (f.happen e).host.Agrees now c.worker.bridge.context g.host :=
    ⟨calm, agrees.calm', agrees.context.trans context.symm⟩
  exact ⟨c, same, member', .of (.of still worker c.journal) agenda⟩

/-- A clerk does among others what it does alone. -/
theorem play_alone (secluded : f.Secluded now) (alike : Alike now i f g) {events : List Event}
    (quiet : ∀ e ∈ events, e.Secluded) :
    Alike now i (f.play events) (g.play (events.filter fun e => e.clerk? = some i)) := by
  induction events generalizing f g with
  | nil => exact alike
  | cons e rest ih =>
    obtain ⟨first, quiet⟩ := List.forall_mem_cons.mp quiet
    have after := secluded_happen secluded first
    by_cases own : e.clerk? = some i
    · rw [List.filter_cons_of_pos (by simpa using own)]
      exact ih after (alike.own first own) quiet
    · rw [List.filter_cons_of_neg (by simpa using own)]
      exact ih after (alike.other secluded first own) quiet

end Floor

end TaskHost
