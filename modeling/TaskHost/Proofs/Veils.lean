/-
# What callbacks cannot see

A callback cannot see the repeated pulls that are planned, the lines printed before
it, the entries and the journal before it, nor ids at the head of the worker's queue
as long as they cannot be registered. A station under a veil (`Station.veil`) has all
of these; whatever a worker does there, without pushes and pulls of its own, it does
as without the veil, and the veil stays (`Station.act_veil`, `Station.runBody_veil`,
`Station.settle_veil`, `Station.runTask_veil`).

Key definitions: `Veil`, `Host.veil`, `Station.veil`, `Veil.Fits`.
Key theorems: `Station.act_veil`, `Station.runBody_veil`, `Station.settle_veil`,
`Station.runTask_veil`.
-/
import TaskHost.Proofs.Executions
import TaskHost.Proofs.Lockstep

namespace TaskHost

/-- Repeated pulls to come, ids before those that are queued, and lines, entries and a
journal before what is there. -/
structure Veil where
  repeats : Nat
  stale : List TaskId
  lines : List PrintedLine
  entries : List LogEntry
  journal : List Occurrence

/-- A context with ids before those that are queued. -/
def Context.behind (stale : List TaskId) (c : Context) : Context :=
  { c with queue := ⟨stale ++ c.queue.ids⟩ }

/-- Contexts, one of them with ids before those that are queued. -/
def Context.allBehind (stale : List TaskId) : ContextId → List Context → List Context
  | .spawned serial, cs => cs.modify serial (behind stale)
  | .foreign _, cs => cs

namespace Host

variable {h k : Host} {v : Veil} {id : ContextId} {task : TaskId}

/-- A host under a veil; the ids are in the queue of one context. -/
def veil (h : Host) (v : Veil) (id : ContextId) : Host :=
  { h with contexts := Context.allBehind v.stale id h.contexts, output := v.lines ++ h.output,
           faults := { h.faults with repeatPulls := v.repeats } }

theorem context?_veil : (h.veil v id).context? id = (h.context? id).map (.behind v.stale) := by
  cases id with
  | foreign u => rfl
  | spawned i => simp [veil, context?, Context.allBehind]

theorem modifyContext_veil {f g : Context → Context}
    (apart : ∀ c : Context, f (c.behind v.stale) = (g c).behind v.stale) :
    (h.veil v id).modifyContext id f = (h.modifyContext id g).veil v id := by
  cases id with
  | foreign u => rfl
  | spawned i =>
    have same : f ∘ Context.behind v.stale = Context.behind v.stale ∘ g := funext apart
    simp only [veil, modifyContext, Context.allBehind, List.modify_modify_eq, same]

theorem print_veil (line : String) (isError : Bool) :
    (h.veil v id).print line isError = (h.print line isError).veil v id := by
  simp only [print, veil, List.append_assoc]

theorem signal_veil : (h.veil v id).signal id = (h.signal id).veil v id := by
  unfold signal
  rw [modifyContext_veil (g := fun c => { c with signals := c.signals + 1 }) fun _ => rfl,
    print_veil]

/-! ### Registering under a veil -/

theorem push?_behind (stale : List TaskId) (q : TaskQueue) (fresh : task ∉ stale) :
    (⟨stale ++ q.ids⟩ : TaskQueue).push? task = (q.push? task).map fun r => ⟨stale ++ r.ids⟩ := by
  by_cases queued : task ∈ q.ids <;>
    simp [TaskQueue.push?, TaskQueue.contains, fresh, queued, List.append_assoc]

theorem enqueue_veil (lost : Bool) (fresh : task ∉ v.stale) :
    (h.veil v id).enqueue lost id task
      = ((h.enqueue lost id task).1.veil v id, (h.enqueue lost id task).2) := by
  unfold enqueue
  rw [context?_veil]
  cases hc : h.context? id with
  | none => rfl
  | some c =>
    cases lost with
    | true => rfl
    | false =>
      have pushed := push?_behind v.stale c.queue fresh
      simp only [Option.map_some, Context.behind, Bool.false_eq_true, if_false, pushed]
      cases hq : c.queue.push? task with
      | none => rfl
      | some q =>
        simp only [Option.map_some]
        rw [modifyContext_veil (g := fun c => { c with queue := q }) fun _ => rfl]

theorem registerTask_veil (fresh : task ∉ v.stale) :
    (h.veil v id).registerTask id task
      = ((h.registerTask id task).1.veil v id, (h.registerTask id task).2) := by
  by_cases refused : 0 < h.outages.registrations
  · have refused' : 0 < (h.veil v id).outages.registrations := refused
    unfold registerTask
    rw [if_pos refused, if_pos refused']
    rfl
  · have open' : ¬ 0 < (h.veil v id).outages.registrations := refused
    unfold registerTask
    rw [if_neg refused, if_neg open']
    exact enqueue_veil (h := h.passRegistration.withFaults
      h.passRegistration.faults.takeDroppedRegistration.2) _ fresh

/-! ### Time under a veil -/

theorem setTimeout_veil (delay : Duration) :
    (h.veil v id).setTimeout delay
      = ((h.setTimeout delay).1.veil v id, (h.setTimeout delay).2) := by
  by_cases refused : 0 < h.outages.timers
  · have refused' : 0 < (h.veil v id).outages.timers := refused
    unfold setTimeout
    rw [if_pos refused, if_pos refused']
    rfl
  · have open' : ¬ 0 < (h.veil v id).outages.timers := refused
    unfold setTimeout
    rw [if_neg refused, if_neg open']
    rfl

theorem drive_veil : (h.veil v id).drive = (h.drive.1.veil v id, h.drive.2) := by
  have deadline : (h.veil v id).timers.nextDeadline? = h.timers.nextDeadline? := rfl
  unfold drive
  rw [deadline]
  cases h.timers.nextDeadline? <;> rfl

theorem awaitWithin_veil (fuel : Nat) (σ : Signal) :
    awaitWithin fuel (h.veil v id) σ
      = ((awaitWithin fuel h σ).1.veil v id, (awaitWithin fuel h σ).2) := by
  have same : ∀ h : Host, (h.veil v id).completion? σ = h.completion? σ := fun _ => rfl
  induction fuel generalizing h with
  | zero =>
    unfold awaitWithin
    rw [same]
    cases h.completion? σ <;> rfl
  | succ fuel ih =>
    unfold awaitWithin
    rw [same, drive_veil]
    cases h.completion? σ with
    | some c => rfl
    | none =>
      cases h.drive with
      | mk k fired =>
        cases fired with
        | true => exact ih
        | false => rfl

theorem sleep_veil (delay : Duration) :
    (h.veil v id).sleep delay = ((h.sleep delay).1.veil v id, (h.sleep delay).2) := by
  unfold sleep await
  rw [setTimeout_veil]
  exact awaitWithin_veil _ _

end Host

namespace Bridge

variable {φ : Type} {h : Host} {v : Veil} {id : ContextId}

/-- A call that spares the queues. -/
theorem call_veil (b : Bridge φ) {c : HostCall} (spares : c.SparesQueue) :
    b.call (h.veil v b.context) c
      = ((b.call h c).1.veil v b.context, (b.call h c).2) := by
  cases c with
  | push task => exact spares.elim
  | pull => exact spares.elim
  | sleep delay =>
    simp only [call]
    rw [Host.sleep_veil]
  | signal =>
    simp only [call]
    rw [Host.signal_veil]
  | _ => rfl

theorem pollWithin_veil (fuel : Nat) (b : Bridge φ) :
    b.pollWithin fuel (h.veil v id) = ((b.pollWithin fuel h).1, (b.pollWithin fuel h).2.1,
      (b.pollWithin fuel h).2.2.veil v id) := by
  have same : ∀ (b : Bridge φ) (h : Host), b.takeReady (h.veil v id) = b.takeReady h :=
    fun _ _ => rfl
  induction fuel generalizing b h with
  | zero =>
    unfold pollWithin
    rw [same]
    split
    · rfl
    · split <;> rfl
  | succ fuel ih =>
    unfold pollWithin
    rw [same, Host.drive_veil]
    split
    · rfl
    · split
      · rfl
      · exact ih _

end Bridge

namespace Station

variable {s t : Station} {v : Veil} {body : Body} {law : HostCall → Prop}

/-- A station under a veil. -/
def veil (s : Station) (v : Veil) : Station :=
  { host := s.host.veil v s.context
    worker := { s.worker with
      logger := { s.worker.logger with entries := v.entries ++ s.worker.logger.entries } }
    journal := v.journal ++ s.journal }

/-- Whether callbacks cannot register the ids before those that are queued: all of them
are the id of the task that is running. -/
def Fits (v : Veil) (s : Station) : Prop :=
  ∀ task ∈ v.stale, s.worker.registry.running = some task

theorem note_veil (o : Occurrence) : (s.veil v).note o = (s.note o).veil v := by
  simp only [note, veil, List.append_assoc]
  rfl

theorem log_veil (e : LogEntry) : (s.veil v).log e = (s.log e).veil v := by
  have attributed : (s.veil v).worker.logger.attributed e = s.worker.logger.attributed e := rfl
  have threshold : (s.veil v).worker.logger.threshold = s.worker.logger.threshold := rfl
  unfold log Logger.log
  rw [attributed, threshold]
  by_cases printed : (s.worker.logger.attributed e).level.atLeast s.worker.logger.threshold
  · simp only [printed, if_true]
    simp [veil, Host.print_veil, context, List.append_assoc]
  · simp only [printed]
    simp [veil, context, List.append_assoc]

theorem register_veil (fits : Fits v s) (task : TaskId) (body : Body) :
    (s.veil v).register task body
      = ((s.register task body).1.veil v, (s.register task body).2) := by
  have registry : (s.veil v).worker.registry = s.worker.registry := rfl
  have host : (s.veil v).host = s.host.veil v s.context := rfl
  have context : (s.veil v).context = s.context := rfl
  unfold register
  rw [Registry.register_eq, Registry.register_eq, registry, host, context]
  cases hf : s.worker.registry.refusal? task with
  | some e => rfl
  | none =>
    have fresh : task ∉ v.stale := fun stale =>
      (Registry.refusal?_eq_none_iff.mp hf).2 (fits task stale)
    rw [Host.registerTask_veil fresh]
    obtain ⟨h, r⟩ := s.host.registerTask s.context task
    cases r with
    | error e => rfl
    | ok u =>
      exact congrArg (·, _)
        (note_veil (s := s.withRegistry (s.worker.registry.add task body) h) _)

theorem setTimeout_veil (delay : Duration) (body : Body) :
    (s.veil v).setTimeout delay body
      = ((s.setTimeout delay body).1.veil v, (s.setTimeout delay body).2) := by
  have host : (s.veil v).host = s.host.veil v s.context := rfl
  unfold setTimeout Bridge.setTimeout
  rw [host, Host.setTimeout_veil]
  rfl

theorem consoleWrite_veil (stream : ConsoleStream) (args : List Json) :
    (s.veil v).consoleWrite stream args = (s.consoleWrite stream args).veil v := by
  have host : (s.veil v).host = s.host.veil v s.context := rfl
  unfold consoleWrite Host.consoleWrite
  rw [host, Host.print_veil]
  rfl

theorem sleep_veil (delay : Duration) :
    (s.veil v).sleep delay = ((s.sleep delay).1.veil v, (s.sleep delay).2) := by
  have host : (s.veil v).host = s.host.veil v s.context := rfl
  unfold sleep
  rw [host, Host.sleep_veil]
  rfl

theorem call_veil {c : HostCall} (spares : c.SparesQueue) :
    (s.veil v).call c = ((s.call c).1.veil v, (s.call c).2) := by
  have called : (s.veil v).worker.bridge.call (s.veil v).host c
      = ((s.worker.bridge.call s.host c).1.veil v s.context, (s.worker.bridge.call s.host c).2) :=
    Bridge.call_veil s.worker.bridge spares
  unfold call
  rw [called]
  rfl

/-! ### Callbacks under a veil -/

/-- An action does the same under a veil. -/
theorem act_veil (fits : Fits v s) : ∀ a : Action, a.Obeys HostCall.SparesQueue →
    (s.veil v).act a = ((s.act a).1.veil v, (s.act a).2)
  | .call c, ha => by
    have called := call_veil (s := s) (v := v) (c := c) (by simpa [Action.Obeys] using ha)
    simp only [act, called]
  | .mark _, _ => rfl
  | .who, _ => rfl
  | .register task body, _ => by simp only [act, register_veil fits]
  | .setTimeout delay body, _ => by simp only [act, setTimeout_veil]
  | .console _ _, _ => by simp only [act, consoleWrite_veil]
  | .log _, _ => by simp only [act, log_veil]
  | .pause delay, _ => by simp only [act, sleep_veil]
  | .fail _, _ => rfl
  | .attempt a, ha => act_veil fits a (by simpa [Action.Obeys] using ha)

theorem perform_veil (fits : Fits v s) (scope : Option TaskId) {a : Action}
    (ha : a.Obeys HostCall.SparesQueue) :
    (s.veil v).perform scope a = ((s.perform scope a).1.veil v, (s.perform scope a).2) := by
  unfold perform
  rw [act_veil fits a ha]
  exact congrArg (·, _) (note_veil (s := (s.act a).1) _)

theorem Fits.deeds (fits : Fits v s) (h : Deeds law s t) : Fits v t := by
  unfold Fits
  rw [running_deeds h]
  exact fits

theorem runBody_veil (scope : Option TaskId) (hb : Body.Obeys HostCall.SparesQueue body)
    (fits : Fits v s) :
    (s.veil v).runBody scope body
      = ((s.runBody scope body).1.veil v, (s.runBody scope body).2) := by
  induction body generalizing s with
  | nil => rfl
  | cons a rest ih =>
    simp only [Body.Obeys] at hb
    have goesOn := fits.deeds (deeds_perform scope s hb.1)
    unfold runBody
    rw [perform_veil fits scope hb.1]
    cases hp : s.perform scope a with
    | mk t r =>
      rw [hp] at goesOn
      cases r with
      | ok answer => exact ih hb.2 goesOn
      | error e =>
        by_cases attempt : a.isAttempt
        · simp only [attempt, if_true]
          exact ih hb.2 goesOn
        · simp only [attempt]
          rfl

theorem runCallback_veil (trigger : Trigger) (scope : Option TaskId)
    (hb : Body.Obeys HostCall.SparesQueue body) (fits : Fits v s) :
    (s.veil v).runCallback trigger scope body
      = ((s.runCallback trigger scope body).1.veil v, (s.runCallback trigger scope body).2) := by
  let begun : Station := s.note (.began trigger scope s.worker.registry.running body)
  have ran : (begun.veil v).runBody scope body = _ := runBody_veil scope hb (s := begun) fits
  have began : (s.veil v).note (.began trigger scope s.worker.registry.running body)
      = begun.veil v := note_veil _
  unfold runCallback
  show (fun p : Station × Except TaskError Unit => (p.1.note (.ended trigger p.2), p.2))
    (((s.veil v).note (.began trigger scope s.worker.registry.running body)).runBody scope body) = _
  rw [began, ran]
  exact congrArg (·, _) (note_veil (s := (begun.runBody scope body).1) _)

/-! ### Settling under a veil -/

theorem poll_veil : (s.veil v).poll = (s.poll.1, s.poll.2.veil v) := by
  have polled : (s.veil v).worker.bridge.poll (s.veil v).host
      = ((s.worker.bridge.poll s.host).1, (s.worker.bridge.poll s.host).2.1,
        (s.worker.bridge.poll s.host).2.2.veil v s.context) :=
    Bridge.pollWithin_veil s.host.timers.size s.worker.bridge
  have context : s.poll.2.context = s.context := (poll_facts s).2.1
  unfold poll at context ⊢
  rw [polled]
  simp only [veil, context]

theorem runTimer_veil (origin : Option TaskId) {r : ReadyTimer Body}
    (hr : Body.Obeys HostCall.SparesQueue r.callback) (fits : Fits v s) :
    (s.veil v).runTimer origin r = ((s.runTimer origin r).1.veil v, (s.runTimer origin r).2) := by
  have fired : (s.veil v).fireTimer origin r
      = ((s.fireTimer origin r).1.veil v, (s.fireTimer origin r).2) := by
    unfold fireTimer
    cases r.result with
    | ok u => exact runCallback_veil (.timer r.id) origin hr fits
    | error e => rfl
  unfold runTimer
  rw [fired]
  obtain ⟨t, r⟩ := s.fireTimer origin r
  cases r with
  | ok u => rfl
  | error e => exact congrArg (·, _) (log_veil _)

theorem runTimers_veil (origin : Option TaskId) {ready : List (ReadyTimer Body)}
    (hr : ∀ r ∈ ready, Body.Obeys HostCall.SparesQueue r.callback) (fits : Fits v s) :
    runTimers origin ready (s.veil v)
      = ((runTimers origin ready s).1.veil v, (runTimers origin ready s).2) := by
  induction ready generalizing s with
  | nil => rfl
  | cons r rest ih =>
    have first := hr r List.mem_cons_self
    have goesOn := fits.deeds (deeds_runTimer origin s first)
    simp only [runTimers, runTimer_veil origin first fits]
    rw [ih (fun q hq => hr q (List.mem_cons_of_mem _ hq)) goesOn]

/-- Settling does the same under a veil. -/
theorem settle_veil (origin : Option TaskId) (hs : s.Obeys HostCall.SparesQueue)
    (fits : Fits v s) :
    (s.veil v).settle origin = ((s.settle origin).1.veil v, (s.settle origin).2) := by
  fun_induction settle origin s with
  | case1 s s' hp =>
    have polled : (s.veil v).poll = ([], s'.veil v) := by rw [poll_veil, hp]
    unfold settle
    split
    · next t ht =>
      rw [polled] at ht
      obtain ⟨-, rfl⟩ := Prod.mk.inj ht
      rfl
    · next r rest t ht =>
      rw [polled] at ht
      cases ht
  | case2 s r rest s' hp ran more ih =>
    have polled : (s.veil v).poll = (r :: rest, s'.veil v) := by rw [poll_veil, hp]
    obtain ⟨left, ready⟩ := obeys_poll hs
    have handed : Deeds HostCall.SparesQueue s s.poll.2 := .single (.poll s)
    rw [hp] at left ready handed
    have round := deeds_runTimers origin ready s'
    have same : runTimers origin (r :: rest) (s'.veil v) = (ran.1.veil v, ran.2) :=
      runTimers_veil origin ready (fits.deeds handed)
    have rounds := ih (obeys_deeds left round) (fits.deeds (handed.trans round))
    unfold settle
    split
    · next t ht =>
      rw [polled] at ht
      cases ht
    · next q others t ht =>
      rw [polled] at ht
      obtain ⟨heads, rfl⟩ := Prod.mk.inj ht
      obtain ⟨rfl, rfl⟩ := List.cons.inj heads
      simp only [same, rounds, more]

/-! ### Tasks under a veil -/

/-- Running a pulled task does the same under a veil with nothing but its id in it. -/
theorem runTask_veil (task : TaskId) (hs : s.Obeys HostCall.SparesQueue)
    (hb : Body.Obeys HostCall.SparesQueue body) (stale : ∀ key ∈ v.stale, key = task) :
    (s.veil v).runTask task body
      = ((s.runTask task body).1.veil v, (s.runTask task body).2) := by
  let begun : Station := s.beginTask task
  have fits : Fits v begun := fun key hk => congrArg some (stale key hk).symm
  have ran : (begun.veil v).runCallback (.task task) (some task) body = _ :=
    runCallback_veil (.task task) (some task) hb fits
  let first : Station := begun.note (.began (.task task) (some task) (some task) body)
  let last : Station := (begun.runCallback (.task task) (some task) body).1
  have running : Deeds HostCall.SparesQueue first (first.runBody (some task) body).1 :=
    deeds_runBody (some task) hb first
  have obeys := obeys_deeds (s := first) hs running
  have goesOn := Fits.deeds (s := first) fits running
  have settled := settle_veil (s := last) (some task) obeys goesOn
  have begins : (s.veil v).beginTask task = begun.veil v := rfl
  unfold runTask
  rw [begins, ran]
  simp only
  rw [settled]
  rfl

end Station
end TaskHost
