/-
# Deeds of a worker

Whatever callbacks a worker runs, it does only three things, one after the other:
it carries out an action, it notes what happens, and it hands timers out
(`Station.Deed`). Running callbacks and settling timers are sequences of such
deeds (`Station.deeds_runBody`, `Station.deeds_settle`), so what every deed
preserves holds at every moment while callbacks run.

The host calls of a callback can be restricted by a law, which is to hold for all
callbacks that it leaves behind too (`Body.Obeys`). What an action can do at all
is said once (`Station.effect_act`).

Key definitions: `Body.Obeys`, `Station.Effect`, `Station.Deed`, `Station.Deeds`,
`Station.Keeps`.
Key theorems: `Station.effect_act`, `Station.obeys_deeds`, `Station.keeps_deeds`,
`Station.deeds_runBody`, `Station.deeds_settle`.
-/
import Mathlib.Logic.Relation
import TaskHost.Worker.Settle
import TaskHost.Proofs.Polling
import TaskHost.Proofs.Queues

namespace TaskHost

mutual

/-- Whether a law allows the host calls of an action and of every callback that
the action leaves behind. -/
def Action.Obeys (law : HostCall → Prop) : Action → Prop
  | .call c => law c
  | .register _ body => Body.Obeys law body
  | .setTimeout _ body => Body.Obeys law body
  | .attempt a => a.Obeys law
  | _ => True

/-- Whether a law allows all host calls of a callback. -/
def Body.Obeys (law : HostCall → Prop) : List Action → Prop
  | [] => True
  | a :: rest => a.Obeys law ∧ Body.Obeys law rest

end

/-- Whether an occurrence tells of an action, or of the beginning or the end of a
timer's callback. -/
def Occurrence.IsRemark : Occurrence → Prop
  | .acted .. => True
  | .ended (.timer _) _ => True
  | .began (.timer _) .. => True
  | _ => False

namespace Station

variable {law : HostCall → Prop} {s t u : Station}

/-- The ids queued for the worker's context. -/
def queue (s : Station) : List TaskId := s.host.queuedIds s.context

theorem queue_congr (hc : t.host.contexts = s.host.contexts) (same : t.context = s.context) :
    t.queue = s.queue := by
  unfold queue
  rw [same]
  exact Host.queuedIds_congr (Host.context?_congr hc _)

/-- Whether all callbacks that a worker has obey a law. -/
def Obeys (law : HostCall → Prop) (s : Station) : Prop := ∀ b ∈ s.worker.bodies, Body.Obeys law b

/-- What an action can do: leave registry, timers and queue alone, register a
callback, set a timer, or push or pull an id past the registry. -/
inductive Effect (law : HostCall → Prop) (s : Station) : Station → Prop
  | quiet (h : Host) (logger : Logger) (host : s.host.Evolves s.context h)
      (queue : h.queuedIds s.context = s.queue) :
      Effect law s { s with host := h, worker := { s.worker with logger := logger } }
  | registered (task : TaskId) (body : Body) (h : Host)
      (fresh : s.worker.registry.refusal? task = none)
      (accepted : s.host.registerTask s.context task = (h, .ok ())) (obeys : Body.Obeys law body) :
      Effect law s ((s.withRegistry (s.worker.registry.add task body) h).note
        (.registered task body s.host.losesNext))
  | timed (delay : Duration) (body : Body) (obeys : Body.Obeys law body) :
      Effect law s (s.setTimeout delay body).1
  | pushed (task : TaskId) (allowed : law (.push task)) :
      Effect law s { s with host := (s.host.registerTask s.context task).1 }
  | pulled (allowed : law .pull) : Effect law s { s with host := (s.host.pull s.context).1 }

/-! ### What an action does -/

theorem effect_host {h : Host} (later : s.host.Later h) (hc : h.contexts = s.host.contexts) :
    Effect law s { s with host := h } :=
  .quiet h s.worker.logger (.of_contexts _ hc later) (Host.queuedIds_congr (Host.context?_congr hc _))

theorem queue_log (s : Station) (e : LogEntry) : (s.log e).queue = s.queue := by
  refine queue_congr ?_ rfl
  unfold log Logger.log
  simp only
  split <;> rfl

theorem effect_log (e : LogEntry) : Effect law s (s.log e) := by
  refine .quiet (s.worker.logger.log s.host e).2 (s.worker.logger.log s.host e).1 ?_ (queue_log s e)
  unfold Logger.log
  simp only
  split
  · exact .of_contexts _ rfl (Host.later_print _ _ _)
  · exact .refl _ _

theorem effect_register (task : TaskId) {body : Body} (hb : Body.Obeys law body) :
    Effect law s (s.register task body).1 := by
  have evolves := Host.evolves_registerTask s.host s.context task
  unfold register
  rw [Registry.register_eq]
  cases hf : s.worker.registry.refusal? task with
  | some e => exact .quiet s.host s.worker.logger (.refl _ _) rfl
  | none =>
    cases hr : s.host.registerTask s.context task with
    | mk h r =>
      rw [hr] at evolves
      cases r with
      | error e =>
        exact .quiet h s.worker.logger evolves (Host.queuedIds_of_registerTask_error hr)
      | ok u => exact .registered task body h hf hr hb

theorem effect_call (c : HostCall) (hc : law c) : Effect law s (s.call c).1 := by
  cases c with
  | read path => exact effect_host (Host.later_loadFile s.host path) rfl
  | readText path => exact effect_host (Host.later_loadFile s.host path) rfl
  | write path contents => exact effect_host (Host.later_storeFile s.host path contents) rfl
  | remove path => exact effect_host (Host.later_removeFile s.host path) rfl
  | fetch url => exact effect_host (Host.later_fetch s.host url) rfl
  | sleep delay => exact effect_host (Host.later_sleep s.host delay) (Host.contexts_sleep s.host delay)
  | push task => exact .pushed task hc
  | pull => exact .pulled hc
  | signal =>
    exact .quiet _ s.worker.logger (Host.evolves_signal s.host s.context)
      (Host.queuedIds_signal s.host s.context)
  | pending => exact effect_host (.refl s.host) rfl
  | now => exact effect_host (.refl s.host) rfl

theorem effect_act : ∀ a : Action, a.Obeys law → Effect law s (s.act a).1
  | .call c, ha => effect_call c (by simpa [Action.Obeys] using ha)
  | .mark _, _ => effect_host (.refl s.host) rfl
  | .who, _ => effect_host (.refl s.host) rfl
  | .register task _, ha => effect_register task (by simpa [Action.Obeys] using ha)
  | .setTimeout delay body, ha => .timed delay body (by simpa [Action.Obeys] using ha)
  | .console _ _, _ => effect_host (.of_same rfl rfl rfl rfl rfl) rfl
  | .log e, _ => effect_log e
  | .pause delay, _ => effect_host (Host.later_sleep s.host delay) (Host.contexts_sleep s.host delay)
  | .fail _, _ => effect_host (.refl s.host) rfl
  | .attempt a, ha => effect_act a (by simpa [Action.Obeys] using ha)

/-- What polling leaves: the registry, the contexts, and of the timers those that
are not handed out. -/
theorem poll_facts (s : Station) :
    s.poll.2.worker.registry = s.worker.registry ∧ s.poll.2.context = s.context
      ∧ s.host.Later s.poll.2.host ∧ s.poll.2.host.contexts = s.host.contexts := by
  have later := Bridge.later_pollWithin s.host.timers.size s.worker.bridge s.host
  have facts := Bridge.pollWithin_facts s.host.timers.size s.worker.bridge s.host
  exact ⟨rfl, facts.2.1, later.1, later.2⟩

/-- A poll splits the callbacks of the waiting timers. -/
theorem poll_perm (s : Station) :
    (s.poll.1.map ReadyTimer.entry
        ++ s.poll.2.worker.bridge.timers.waiting.map WaitingTimer.entry).Perm
      (s.worker.bridge.timers.waiting.map WaitingTimer.entry) :=
  Bridge.pollWithin_perm s.host.timers.size s.worker.bridge s.host

/-! ### Deeds -/

/-- One thing that a worker does. -/
inductive Deed (law : HostCall → Prop) : Station → Station → Prop
  | act (s : Station) (a : Action) (ha : a.Obeys law) : Deed law s (s.act a).1
  | note (s : Station) (o : Occurrence) (ho : o.IsRemark) : Deed law s (s.note o)
  | poll (s : Station) : Deed law s s.poll.2

/-- Any number of deeds. -/
abbrev Deeds (law : HostCall → Prop) : Station → Station → Prop :=
  Relation.ReflTransGen (Deed law)

/-- What a worker cannot change about itself and its host. -/
structure Keeps (s t : Station) : Prop where
  handle : t.worker.handle = s.worker.handle
  context : t.context = s.context
  host : s.host.Evolves s.context t.host

theorem Keeps.refl (s : Station) : Keeps s s := ⟨rfl, rfl, .refl _ _⟩

theorem Keeps.trans (a : Keeps s t) (b : Keeps t u) : Keeps s u where
  handle := b.handle.trans a.handle
  context := b.context.trans a.context
  host := a.host.trans (a.context ▸ b.host)

theorem keeps_setTimeout (s : Station) (delay : Duration) (body : Body) :
    Keeps s (s.setTimeout delay body).1 :=
  ⟨rfl, rfl, .of_contexts _ (Host.contexts_setTimeout s.host delay)
    (Host.later_setTimeout s.host delay)⟩

theorem keeps_effect (h : Effect law s t) : Keeps s t := by
  cases h with
  | quiet h logger host queue => exact ⟨rfl, rfl, host⟩
  | registered task body h fresh accepted obeys =>
    have evolves := Host.evolves_registerTask s.host s.context task
    rw [accepted] at evolves
    exact ⟨rfl, rfl, evolves⟩
  | timed delay body obeys => exact keeps_setTimeout s delay body
  | pushed task allowed => exact ⟨rfl, rfl, Host.evolves_registerTask s.host s.context task⟩
  | pulled allowed => exact ⟨rfl, rfl, Host.evolves_pull s.host s.context⟩

theorem keeps_deed (h : Deed law s t) : Keeps s t := by
  cases h with
  | act a ha => exact keeps_effect (effect_act a ha)
  | note o ho => exact ⟨rfl, rfl, .refl _ _⟩
  | poll =>
    obtain ⟨-, context, later, contexts⟩ := poll_facts s
    exact ⟨rfl, context, .of_contexts _ contexts later⟩

theorem keeps_deeds (h : Deeds law s t) : Keeps s t := by
  induction h with
  | refl => exact .refl _
  | tail _ step ih => exact ih.trans (keeps_deed step)

theorem running_effect (h : Effect law s t) :
    t.worker.registry.running = s.worker.registry.running := by
  cases h <;> rfl

theorem running_deeds (h : Deeds law s t) :
    t.worker.registry.running = s.worker.registry.running := by
  induction h with
  | refl => rfl
  | tail _ step ih =>
    refine Eq.trans ?_ ih
    cases step with
    | act a ha => exact running_effect (effect_act a ha)
    | note o ho => rfl
    | poll => rfl

/-! ### Laws are kept -/

theorem obeys_effect (hs : s.Obeys law) (h : Effect law s t) : t.Obeys law := by
  cases h with
  | quiet h logger host queue => exact hs
  | registered task body h fresh accepted obeys =>
    intro b hb
    simp only [Worker.bodies, note, withRegistry, Registry.add, List.map_append, List.map_cons,
      List.map_nil, List.append_assoc, List.mem_append, List.mem_singleton] at hb
    rcases hb with old | rfl | timer
    · exact hs b (List.mem_append_left _ old)
    · exact obeys
    · exact hs b (List.mem_append_right _ timer)
  | timed delay body obeys =>
    intro b hb
    simp only [Worker.bodies, setTimeout, Bridge.setTimeout, TimerTable.insert, List.map_append,
      List.map_cons, List.map_nil, List.mem_append, List.mem_singleton] at hb
    rcases hb with task | old | rfl
    · exact hs b (List.mem_append_left _ task)
    · exact hs b (List.mem_append_right _ old)
    · exact obeys
  | pushed task allowed => exact hs
  | pulled allowed => exact hs

/-- What a poll hands out obeys the law, and so does what it leaves. -/
theorem obeys_poll (hs : s.Obeys law) :
    s.poll.2.Obeys law ∧ ∀ r ∈ s.poll.1, Body.Obeys law r.callback := by
  have split := s.poll_perm
  have waiting : ∀ p ∈ s.worker.bridge.timers.waiting.map WaitingTimer.entry,
      Body.Obeys law p.2 := by
    intro p hp
    obtain ⟨w, hw, rfl⟩ := List.mem_map.mp hp
    exact hs _ (List.mem_append_right _ (List.mem_map_of_mem hw))
  constructor
  · intro b hb
    rcases List.mem_append.mp hb with task | timer
    · exact hs b (List.mem_append_left _ task)
    · obtain ⟨w, hw, rfl⟩ := List.mem_map.mp timer
      exact waiting _ (split.mem_iff.mp (List.mem_append_right _ (List.mem_map_of_mem hw)))
  · intro r hr
    exact waiting _ (split.mem_iff.mp (List.mem_append_left _ (List.mem_map_of_mem hr)))

theorem obeys_deed (hs : s.Obeys law) (h : Deed law s t) : t.Obeys law := by
  cases h with
  | act a ha => exact obeys_effect hs (effect_act a ha)
  | note o ho => exact hs
  | poll => exact (obeys_poll hs).1

theorem obeys_deeds (hs : s.Obeys law) (h : Deeds law s t) : t.Obeys law := by
  induction h with
  | refl => exact hs
  | tail _ step ih => exact obeys_deed ih step

/-! ### What is done by deeds -/

theorem deeds_perform (scope : Option TaskId) (s : Station) {a : Action} (ha : a.Obeys law) :
    Deeds law s (s.perform scope a).1 :=
  .tail (.single (.act s a ha)) (.note _ _ trivial)

theorem deeds_runBody (scope : Option TaskId) {body : Body} (hb : Body.Obeys law body)
    (s : Station) : Deeds law s (s.runBody scope body).1 := by
  induction body generalizing s with
  | nil => exact .refl
  | cons a rest ih =>
    simp only [Body.Obeys] at hb
    have acted := deeds_perform scope s hb.1
    simp only [runBody]
    split
    · next u r h =>
      rw [h] at acted
      exact acted.trans (ih hb.2 u)
    · next u e h =>
      rw [h] at acted
      split
      · exact acted.trans (ih hb.2 u)
      · exact acted

theorem deeds_runCallback (s : Station) (timer : TimerId) (scope : Option TaskId) {body : Body}
    (hb : Body.Obeys law body) : Deeds law s (s.runCallback (.timer timer) scope body).1 := by
  have began : Deeds law s (s.note (.began (.timer timer) scope s.worker.registry.running body)) :=
    .single (.note s _ trivial)
  exact (began.trans (deeds_runBody scope hb _)).tail (.note _ _ trivial)

theorem deeds_log (s : Station) (e : LogEntry) : Deeds law s (s.log e) :=
  .single (.act s (.log e) trivial)

theorem deeds_runTimer (origin : Option TaskId) (s : Station) {r : ReadyTimer Body}
    (hr : Body.Obeys law r.callback) : Deeds law s (s.runTimer origin r).1 := by
  have fired : Deeds law s (s.fireTimer origin r).1 := by
    unfold fireTimer
    split
    · exact deeds_runCallback s r.id origin hr
    · exact .refl
  unfold runTimer
  split
  · next u h => rw [h] at fired; exact fired
  · next u e h => rw [h] at fired; exact fired.trans (deeds_log u _)

theorem deeds_runTimers (origin : Option TaskId) {ready : List (ReadyTimer Body)}
    (hr : ∀ r ∈ ready, Body.Obeys law r.callback) (s : Station) :
    Deeds law s (runTimers origin ready s).1 := by
  induction ready generalizing s with
  | nil => exact .refl
  | cons r rest ih =>
    have first := deeds_runTimer origin s (hr r List.mem_cons_self)
    exact first.trans (ih (fun q hq => hr q (List.mem_cons_of_mem _ hq)) _)

/-- Settling is done by deeds. -/
theorem deeds_settle (origin : Option TaskId) (s : Station) (hs : s.Obeys law) :
    Deeds law s (s.settle origin).1 := by
  fun_induction settle origin s with
  | case1 s s' hp =>
    have polled : Deeds law s s.poll.2 := .single (.poll s)
    rw [hp] at polled
    exact polled
  | case2 s r rest s' hp ran more ih =>
    obtain ⟨left, ready⟩ := obeys_poll hs
    have polled : Deeds law s s.poll.2 := .single (.poll s)
    rw [hp] at left ready polled
    have round := deeds_runTimers origin ready s'
    exact (polled.trans round).trans (ih (obeys_deeds left round))

end Station
end TaskHost
