/-
# Callbacks run one after the other

The journal of running callbacks is a sequence of executions, none inside another:
each begins, carries out actions of its own scope and ends (`Executions`). Settling
runs every waiting timer once, those that were set meanwhile too, and leaves none
(`Station.settles_settle`), provided that the host has scheduled the waiting timers
(`Station.Attended`).

Key definitions: `Action.plain`, `timersSet`, `Occurrence.Within`, `Executions`,
`Station.Attended`, `Station.Stretch`, `Station.Settles`.
Key theorems: `Station.inside_runBody`, `Station.stretch_runTimers`,
`Station.settles_settle`.
-/
import TaskHost.Proofs.Deeds
import TaskHost.Proofs.Registries

namespace TaskHost

/-- No law at all. -/
def HostCall.Any : HostCall → Prop := fun _ => True

mutual

theorem Action.obeys_any : ∀ a : Action, a.Obeys HostCall.Any
  | .call _ => trivial
  | .register _ body => Body.obeys_any body
  | .setTimeout _ body => Body.obeys_any body
  | .attempt a => Action.obeys_any a
  | .mark _ | .who | .console _ _ | .log _ | .pause _ | .fail _ => trivial

theorem Body.obeys_any : ∀ body : List Action, Body.Obeys HostCall.Any body
  | [] => trivial
  | a :: rest => ⟨Action.obeys_any a, Body.obeys_any rest⟩

end

/-! ### What an execution writes -/

/-- An action without the attempts around it. -/
def Action.plain : Action → Action
  | .attempt a => a.plain
  | a => a

/-- The timer that an action with this result has set. -/
def Action.timer? (a : Action) (r : Except TaskError Answer) : Option (TimerId × Body) :=
  match a.plain, r with
  | .setTimeout _ body, .ok (.timer id) => some (id, body)
  | _, _ => none

/-- The timer that was set by an action of a callback. -/
def Occurrence.timer? : Occurrence → Option (TimerId × Body)
  | .acted _ _ a r => a.timer? r
  | _ => none

/-- The timers that were set, in their order. -/
def timersSet (journal : List Occurrence) : List (TimerId × Body) :=
  journal.filterMap Occurrence.timer?

theorem timersSet_append (a b : List Occurrence) :
    timersSet (a ++ b) = timersSet a ++ timersSet b := List.filterMap_append

/-- Whether an occurrence belongs inside a callback that runs in a scope: an action
in this scope that sees this identity, and that cannot register the scope's own
task. -/
def Occurrence.Within (scope : Option TaskId) (identity : WorkerIdentity) : Occurrence → Prop
  | .registered task _ _ => scope ≠ some task
  | .acted s _ a r => s = scope ∧ (a.plain = .who → r = .ok (.identity identity))
    ∧ ∀ task body, a.plain = .register task body → scope = some task →
      r = .error (.registry (.duplicateTask task)) ∨ r = .error (.registry (.taskRunning task))
  | _ => False

/-- Executions one after the other: each begins in the scope, with the scope's task
marked as running, and ends before the next one begins. -/
inductive Executions (scope : Option TaskId) (identity : WorkerIdentity) :
    List (Trigger × Body) → List Occurrence → Prop
  | nil : Executions scope identity [] []
  | cons (trigger : Trigger) (body : Body) (inside : List Occurrence)
      (outcome : Except TaskError Unit) {calls : List (Trigger × Body)} {rest : List Occurrence}
      (within : ∀ o ∈ inside, o.Within scope identity) (others : Executions scope identity calls rest) :
      Executions scope identity ((trigger, body) :: calls)
        (.began trigger scope scope body :: (inside ++ .ended trigger outcome :: rest))

theorem Executions.append {scope : Option TaskId} {identity : WorkerIdentity}
    {calls calls' : List (Trigger × Body)} {journal journal' : List Occurrence}
    (h : Executions scope identity calls journal) (h' : Executions scope identity calls' journal') :
    Executions scope identity (calls ++ calls') (journal ++ journal') := by
  induction h with
  | nil => exact h'
  | cons trigger body inside outcome within others ih =>
    have joined := Executions.cons trigger body inside outcome within ih
    simpa using joined

/-- A timer's callback as what runs. -/
def timerCall (timer : TimerId × Body) : Trigger × Body := (.timer timer.1, timer.2)

namespace Station

variable {scope : Option TaskId} {identity : WorkerIdentity} {s t u : Station}
  {calls calls' : List (Trigger × Body)} {os os' : List Occurrence}

/-- The waiting timers. -/
def waiting (s : Station) : List (TimerId × Body) :=
  s.worker.bridge.timers.waiting.map WaitingTimer.entry

/-! ### Actions -/

/-- What an action does to the journal and to the timers, and what it shows. -/
structure Acts (scope : Option TaskId) (s : Station) (a : Action) (os : List Occurrence) : Prop where
  written : (s.act a).1.journal = s.journal ++ os
  registrations : ∀ o ∈ os, ∃ task body lost, o = .registered task body lost ∧ scope ≠ some task
  timers : (s.act a).1.waiting = s.waiting ++ (a.timer? (s.act a).2).toList
  shown : a.plain = .who → (s.act a).2 = .ok (.identity s.worker.identity)
  refused : ∀ task body, a.plain = .register task body → scope = some task →
    (s.act a).2 = .error (.registry (.duplicateTask task))
      ∨ (s.act a).2 = .error (.registry (.taskRunning task))

theorem acts_quiet {a : Action} (journal : (s.act a).1.journal = s.journal)
    (timers : (s.act a).1.worker.bridge = s.worker.bridge) (noTimer : a.timer? (s.act a).2 = none)
    (shown : a.plain = .who → (s.act a).2 = .ok (.identity s.worker.identity))
    (other : ∀ task body, a.plain ≠ .register task body) : Acts scope s a [] where
  written := by rw [journal, List.append_nil]
  registrations o ho := by cases ho
  timers := by
    rw [noTimer, waiting, timers]
    exact (List.append_nil _).symm
  shown := shown
  refused task body h := absurd h (other task body)

/-- A registration is refused by the registry or by the host, or it succeeds. -/
theorem register_cases (s : Station) (task : TaskId) (body : Body) :
    (∃ e, s.worker.registry.refusal? task = some e ∧ s.register task body = (s, .error e))
    ∨ (s.worker.registry.refusal? task = none
      ∧ ∃ h e, s.register task body = ({ s with host := h }, .error (.host e)))
    ∨ (s.worker.registry.refusal? task = none ∧ ∃ h lost, s.register task body
      = ((s.withRegistry (s.worker.registry.add task body) h).note (.registered task body lost),
        .ok ())) := by
  unfold register
  rw [Registry.register_eq]
  cases hf : s.worker.registry.refusal? task with
  | some e => exact Or.inl ⟨e, rfl, rfl⟩
  | none =>
    obtain ⟨h, r⟩ := s.host.registerTask s.context task
    cases r with
    | error e => exact Or.inr (Or.inl ⟨rfl, h, e, rfl⟩)
    | ok u => exact Or.inr (Or.inr ⟨rfl, h, _, rfl⟩)

theorem refusal?_cases {task : TaskId} {e : RegistryError}
    (h : s.worker.registry.refusal? task = some e) : e = .duplicateTask task ∨ e = .taskRunning task := by
  unfold Registry.refusal? at h
  split at h
  · exact Or.inl (Option.some.inj h).symm
  · split at h
    · exact Or.inr (Option.some.inj h).symm
    · cases h

theorem acts_register (running : s.worker.registry.running = scope) (task : TaskId) (body : Body) :
    ∃ os, Acts scope s (.register task body) os := by
  have own : s.worker.registry.refusal? task = none → ∀ key b,
      (Action.register task body).plain = .register key b → scope ≠ some key := by
    intro fresh key b hk
    obtain ⟨rfl, rfl⟩ := Action.register.inj hk
    rw [← running]
    exact (Registry.refusal?_eq_none_iff.mp fresh).2
  have acted : s.act (.register task body) = ((s.register task body).1,
    ((s.register task body).2.map fun () => .done).mapError .registry) := rfl
  rcases register_cases s task body with ⟨e, refusal, same⟩ | ⟨fresh, h, e, same⟩
    | ⟨fresh, h, lost, same⟩
  · rw [same] at acted
    refine ⟨[], ?_, (fun o ho => by cases ho), ?_, (fun h => by cases h), ?_⟩
    · rw [acted, List.append_nil]
    · rw [acted]
      exact (List.append_nil _).symm
    · intro key b hk _
      obtain ⟨rfl, rfl⟩ := Action.register.inj hk
      rw [acted]
      rcases refusal?_cases refusal with rfl | rfl
      · exact Or.inl rfl
      · exact Or.inr rfl
  · rw [same] at acted
    refine ⟨[], ?_, (fun o ho => by cases ho), ?_, (fun h => by cases h), ?_⟩
    · rw [acted, List.append_nil]
    · rw [acted]
      exact (List.append_nil _).symm
    · exact fun key b hk e => absurd e (own fresh key b hk)
  · rw [same] at acted
    refine ⟨[.registered task body lost], ?_, ?_, ?_, (fun h => by cases h), ?_⟩
    · rw [acted]
      rfl
    · intro o ho
      exact ⟨task, body, lost, List.mem_singleton.mp ho, own fresh task body rfl⟩
    · rw [acted]
      exact (List.append_nil _).symm
    · exact fun key b hk e => absurd e (own fresh key b hk)

theorem acts_act (running : s.worker.registry.running = scope) :
    ∀ a : Action, ∃ os, Acts scope s a os
  | .attempt a => by
    obtain ⟨os, acts⟩ := acts_act running a
    exact ⟨os, acts.written, acts.registrations, acts.timers, acts.shown, acts.refused⟩
  | .register task body => acts_register running task body
  | .setTimeout delay body => by
    refine ⟨[], (List.append_nil _).symm, (fun o ho => by cases ho), ?_, (fun h => by cases h),
      (fun _ _ h => by cases h)⟩
    exact List.map_append
  | .call _ | .mark _ | .console _ _ | .log _ | .pause _ | .fail _ =>
    ⟨[], acts_quiet rfl rfl rfl (fun h => by cases h) fun _ _ h => by cases h⟩
  | .who => ⟨[], acts_quiet rfl rfl rfl (fun _ => rfl) fun _ _ h => by cases h⟩

/-! ### Callbacks -/

/-- A part of a callback. -/
structure Inside (scope : Option TaskId) (identity : WorkerIdentity) (s t : Station)
    (os : List Occurrence) : Prop where
  written : t.journal = s.journal ++ os
  timers : t.waiting = s.waiting ++ timersSet os
  within : ∀ o ∈ os, o.Within scope identity

theorem Inside.refl (s : Station) : Inside scope identity s s [] :=
  ⟨(List.append_nil _).symm, (List.append_nil _).symm, fun _ h => by cases h⟩

theorem Inside.trans (a : Inside scope identity s t os) (b : Inside scope identity t u os') :
    Inside scope identity s u (os ++ os') where
  written := by rw [b.written, a.written, List.append_assoc]
  timers := by rw [b.timers, a.timers, timersSet_append, List.append_assoc]
  within o ho := (List.mem_append.mp ho).elim (a.within o) (b.within o)

/-- An action with its entry in the journal. -/
theorem inside_perform (running : s.worker.registry.running = scope) (a : Action) :
    ∃ os, Inside scope s.worker.identity s (s.perform scope a).1 os := by
  obtain ⟨os, acts⟩ := acts_act running a
  refine ⟨os ++ [.acted scope (s.act a).1.host.clock a (s.act a).2], ?_, ?_, ?_⟩
  · show (s.act a).1.journal ++ [_] = _
    rw [acts.written, List.append_assoc]
  · have unset : timersSet os = [] := by
      refine List.filterMap_eq_nil_iff.mpr fun o ho => ?_
      obtain ⟨task, body, lost, rfl, -⟩ := acts.registrations o ho
      rfl
    have last : timersSet [.acted scope (s.act a).1.host.clock a (s.act a).2]
        = (a.timer? (s.act a).2).toList := by
      cases h : a.timer? (s.act a).2 <;> simp [timersSet, Occurrence.timer?, h]
    rw [timersSet_append, unset, last, List.nil_append]
    exact acts.timers
  · intro o ho
    rcases List.mem_append.mp ho with registration | last
    · obtain ⟨task, body, lost, rfl, own⟩ := acts.registrations o registration
      exact own
    · obtain rfl := List.mem_singleton.mp last
      exact ⟨rfl, acts.shown, acts.refused⟩

theorem keeps_running (h : Deeds HostCall.Any s t) (running : s.worker.registry.running = scope)
    (who : s.worker.identity = identity) :
    t.worker.registry.running = scope ∧ t.worker.identity = identity := by
  refine ⟨(running_deeds h).trans running, ?_⟩
  rw [← who, Worker.identity, Worker.identity, (keeps_deeds h).handle]

theorem inside_runBody (body : Body) (running : s.worker.registry.running = scope)
    (who : s.worker.identity = identity) :
    ∃ os, Inside scope identity s (s.runBody scope body).1 os := by
  induction body generalizing s with
  | nil => exact ⟨[], .refl s⟩
  | cons a rest ih =>
    obtain ⟨os, acted⟩ := inside_perform running a
    rw [who] at acted
    obtain ⟨running', who'⟩ := keeps_running (deeds_perform scope s a.obeys_any) running who
    simp only [runBody]
    split
    · next t r h =>
      rw [h] at acted running' who'
      obtain ⟨os', more⟩ := ih running' who'
      exact ⟨os ++ os', acted.trans more⟩
    · next t e h =>
      rw [h] at acted running' who'
      split
      · obtain ⟨os', more⟩ := ih running' who'
        exact ⟨os ++ os', acted.trans more⟩
      · exact ⟨os, acted⟩

/-- A stretch of executions, in which timers are only set. -/
structure Stretch (scope : Option TaskId) (identity : WorkerIdentity)
    (calls : List (Trigger × Body)) (s t : Station) (os : List Occurrence) : Prop where
  written : t.journal = s.journal ++ os
  timers : t.waiting = s.waiting ++ timersSet os
  executions : Executions scope identity calls os

theorem Stretch.refl (s : Station) : Stretch scope identity [] s s [] :=
  ⟨(List.append_nil _).symm, (List.append_nil _).symm, .nil⟩

theorem Stretch.trans (a : Stretch scope identity calls s t os)
    (b : Stretch scope identity calls' t u os') :
    Stretch scope identity (calls ++ calls') s u (os ++ os') where
  written := by rw [b.written, a.written, List.append_assoc]
  timers := by rw [b.timers, a.timers, timersSet_append, List.append_assoc]
  executions := a.executions.append b.executions

theorem Stretch.log (h : Stretch scope identity calls s t os) (e : LogEntry) :
    Stretch scope identity calls s (t.log e) os := ⟨h.written, h.timers, h.executions⟩

/-- A callback is one execution. -/
theorem stretch_runCallback (trigger : Trigger) (body : Body)
    (running : s.worker.registry.running = scope) (who : s.worker.identity = identity) :
    ∃ os, Stretch scope identity [(trigger, body)] s (s.runCallback trigger scope body).1 os := by
  let first : Station := s.note (.began trigger scope s.worker.registry.running body)
  obtain ⟨os, inside⟩ := inside_runBody (s := first) body running who
  let outcome := (first.runBody scope body).2
  refine ⟨.began trigger scope scope body :: (os ++ .ended trigger outcome :: []), ?_, ?_, ?_⟩
  · have began : first.journal = s.journal ++ [.began trigger scope scope body] := by
      show s.journal ++ [.began trigger scope s.worker.registry.running body] = _
      rw [running]
    show (first.runBody scope body).1.journal ++ [.ended trigger outcome] = _
    rw [inside.written, began]
    simp
  · have set : timersSet (.began trigger scope scope body :: (os ++ [.ended trigger outcome]))
        = timersSet os := (timersSet_append os [_]).trans (List.append_nil _)
    rw [set]
    exact inside.timers
  · exact .cons trigger body os outcome inside.within .nil

/-! ### Timers that will fire -/

/-- Whether the host has scheduled all timers that are waiting, and will schedule
those to come. -/
structure Attended (s : Station) : Prop where
  outages : s.host.outages.timers = 0
  scheduled : ∀ w ∈ s.worker.bridge.timers.waiting, w.signal ≠ .cancelled
  answered : ∀ w ∈ s.worker.bridge.timers.waiting, s.host.Answers w.signal

theorem Attended.later (hs : s.Attended) (later : s.host.Later t.host)
    (fewer : ∀ w ∈ t.worker.bridge.timers.waiting, w ∈ s.worker.bridge.timers.waiting) :
    t.Attended where
  outages := Nat.le_zero.mp (hs.outages ▸ later.refusedTimers)
  scheduled w hw := hs.scheduled w (fewer w hw)
  answered w hw := later.answers _ (hs.answered w (fewer w hw))

theorem attended_setTimeout (hs : s.Attended) (delay : Duration) (body : Body) :
    (s.setTimeout delay body).1.Attended := by
  have later := Host.later_setTimeout s.host delay
  have signal : (s.host.setTimeout delay).2 ≠ .cancelled := by
    have := hs.outages
    unfold Host.setTimeout
    rw [if_neg (by omega)]
    exact fun e => by cases e
  refine ⟨Nat.le_zero.mp (hs.outages ▸ later.refusedTimers), ?_, ?_⟩
  · intro w hw
    rcases List.mem_append.mp hw with old | new
    · exact hs.scheduled w old
    · rw [List.mem_singleton.mp new]
      exact signal
  · intro w hw
    rcases List.mem_append.mp hw with old | new
    · exact later.answers _ (hs.answered w old)
    · rw [List.mem_singleton.mp new]
      exact Host.answers_setTimeout s.host delay

theorem attended_effect (hs : s.Attended) (h : Effect HostCall.Any s t) : t.Attended := by
  have later := (keeps_effect h).host.toLater
  cases h with
  | timed delay body obeys => exact attended_setTimeout hs delay body
  | _ => exact hs.later later fun _ hw => hw

theorem attended_deed (hs : s.Attended) (h : Deed HostCall.Any s t) : t.Attended := by
  have later := (keeps_deed h).host.toLater
  cases h with
  | act a ha => exact attended_effect hs (effect_act a ha)
  | note o ho => exact hs.later later fun _ hw => hw
  | poll => exact hs.later later fun _ hw => Bridge.mem_of_mem_pollWithin hw

theorem attended_deeds (hs : s.Attended) (h : Deeds HostCall.Any s t) : t.Attended := by
  induction h with
  | refl => exact hs
  | tail _ step ih => exact attended_deed ih step

/-! ### Settling -/

theorem stretch_runTimer {r : ReadyTimer Body} (fired : r.result = .ok ())
    (running : s.worker.registry.running = scope) (who : s.worker.identity = identity) :
    ∃ os, Stretch scope identity [timerCall r.entry] s (s.runTimer scope r).1 os := by
  obtain ⟨os, ran⟩ := stretch_runCallback (.timer r.id) r.callback running who
  have fire : s.fireTimer scope r = s.runCallback (.timer r.id) scope r.callback := by
    unfold fireTimer
    rw [fired]
  refine ⟨os, ?_⟩
  unfold runTimer
  rw [fire]
  split
  · next u h => rw [h] at ran; exact ran
  · next u e h => rw [h] at ran; exact ran.log _

/-- Timers that fired run one after the other. -/
theorem stretch_runTimers {ready : List (ReadyTimer Body)} (fired : ∀ r ∈ ready, r.result = .ok ())
    (running : s.worker.registry.running = scope) (who : s.worker.identity = identity) :
    ∃ os, Stretch scope identity (ready.map fun r => timerCall r.entry) s
      (runTimers scope ready s).1 os := by
  induction ready generalizing s with
  | nil => exact ⟨[], .refl s⟩
  | cons r rest ih =>
    obtain ⟨os, first⟩ := stretch_runTimer (fired r List.mem_cons_self) running who
    obtain ⟨running', who'⟩ :=
      keeps_running (deeds_runTimer scope s (Body.obeys_any r.callback)) running who
    obtain ⟨os', others⟩ := ih (fun q hq => fired q (List.mem_cons_of_mem _ hq)) running' who'
    exact ⟨os ++ os', first.trans others⟩

/-- What settling does: it runs the waiting timers and those that are set
meanwhile, each once, and none is left. -/
structure Settles (scope : Option TaskId) (identity : WorkerIdentity)
    (timers : List (TimerId × Body)) (s t : Station) (os : List Occurrence) : Prop where
  written : t.journal = s.journal ++ os
  executions : Executions scope identity (timers.map timerCall) os
  complete : timers.Perm (s.waiting ++ timersSet os)
  settled : t.waiting = []

/-- A round of settling, with the rounds that follow it. -/
theorem Settles.round {ready : List (TimerId × Body)} {timers : List (TimerId × Body)}
    (split : (ready ++ t.waiting).Perm s.waiting) (same : t.journal = s.journal)
    (ran : Stretch scope identity (ready.map timerCall) t u os) {v : Station}
    (more : Settles scope identity timers u v os') :
    Settles scope identity (ready ++ timers) s v (os ++ os') where
  written := by rw [more.written, ran.written, same, List.append_assoc]
  executions := by
    rw [List.map_append]
    exact ran.executions.append more.executions
  complete := by
    have later := more.complete
    rw [ran.timers] at later
    calc (ready ++ timers).Perm (ready ++ (t.waiting ++ timersSet os ++ timersSet os')) :=
          later.append_left ready
      _ = ready ++ t.waiting ++ timersSet (os ++ os') := by
          rw [timersSet_append]
          simp only [List.append_assoc]
      _ |>.Perm (s.waiting ++ timersSet (os ++ os')) := split.append_right _
  settled := more.settled

theorem settles_settle (hs : s.Attended) (running : s.worker.registry.running = scope)
    (who : s.worker.identity = identity) :
    ∃ timers os, Settles scope identity timers s (s.settle scope).1 os := by
  fun_induction settle scope s with
  | case1 s s' hp =>
    have empty : s.waiting = [] := by
      refine List.map_eq_nil_iff.mpr (Bridge.waiting_eq_nil_of_pollWithin s.host.timers.size
        s.worker.bridge s.host (Nat.le_refl _) hs.answered ?_)
      exact congrArg Prod.fst hp
    have split := s.poll_perm
    have journal : s.poll.2.journal = s.journal := rfl
    rw [hp] at split journal
    refine ⟨[], [], ?_, .nil, ?_, ?_⟩
    · rw [journal, List.append_nil]
    · rw [empty]
      exact .nil
    · have left : s'.waiting.Perm s.waiting := split
      rw [empty] at left
      exact left.eq_nil
  | case2 s r rest s' hp ran more ih =>
    have polled : Deeds HostCall.Any s s.poll.2 := .single (.poll s)
    have split := s.poll_perm
    have journal : s.poll.2.journal = s.journal := rfl
    have fired : ∀ q ∈ s.poll.1, q.result = .ok () :=
      fun q hq => Bridge.result_of_mem_pollWithin hs.scheduled hq
    rw [hp] at polled split journal fired
    obtain ⟨running', who'⟩ := keeps_running polled running who
    obtain ⟨os, stretch⟩ := stretch_runTimers fired running' who'
    have round : Deeds HostCall.Any s' ran.1 :=
      deeds_runTimers scope (fun q _ => Body.obeys_any q.callback) s'
    obtain ⟨running'', who''⟩ := keeps_running round running' who'
    obtain ⟨timers, os', rounds⟩ :=
      ih (attended_deeds hs (polled.trans round)) running'' who''
    refine ⟨(r :: rest).map ReadyTimer.entry ++ timers, os ++ os', ?_⟩
    refine rounds.round split journal ?_
    rw [List.map_map]
    exact stretch

end Station
end TaskHost
