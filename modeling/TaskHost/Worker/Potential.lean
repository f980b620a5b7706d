/-
# What a worker can still do

The potential of a station is the number of ids that can be pulled, and for
every registered callback and every waiting timer one more than its weight.
Carrying out an action adds at most the action's weight, because whatever it
queues or leaves behind is part of it; handing a timer out, or taking a callback
out, takes more than the callback's weight away. So settling and draining end.

Key definitions: `Station.potential`, `readyWeight`.
Key theorems: `Station.potential_act_le`, `Station.potential_runCallback_le`,
`Station.potential_poll`, `Station.potential_takeCallback`.
-/
import TaskHost.Host.Pullable
import TaskHost.Worker.Run

namespace TaskHost

/-- One more than the weight for every callback. -/
def bodiesWeight : List Body → Nat
  | [] => 0
  | b :: rest => 1 + Body.weight b + bodiesWeight rest

/-- The weight of timers that are handed out. -/
def readyWeight (ready : List (ReadyTimer Body)) : Nat :=
  bodiesWeight (ready.map ReadyTimer.callback)

theorem bodiesWeight_append (a b : List Body) :
    bodiesWeight (a ++ b) = bodiesWeight a + bodiesWeight b := by
  induction a with
  | nil => simp [bodiesWeight]
  | cons body rest ih => simp only [List.cons_append, bodiesWeight, ih]; omega

theorem bodiesWeight_cons (b : Body) (rest : List Body) :
    bodiesWeight (b :: rest) = 1 + Body.weight b + bodiesWeight rest := rfl

namespace Worker

/-- The callbacks that a worker has: those of its tasks and those of its timers. -/
def bodies (w : Worker) : List Body :=
  w.registry.callbacks.map Prod.snd ++ w.bridge.timers.waiting.map WaitingTimer.callback

end Worker

namespace Station

/-- What a worker can still do at its host. -/
def potential (s : Station) : Nat := s.host.pullable s.context + bodiesWeight s.worker.bodies

theorem potential_note (s : Station) (o : Occurrence) : (s.note o).potential = s.potential := rfl

theorem potential_log (s : Station) (e : LogEntry) : (s.log e).potential = s.potential := by
  have : (s.log e).host.pullable s.context = s.host.pullable s.context := by
    unfold log Logger.log
    simp only
    split
    · exact Host.pullable_congr _ rfl rfl
    · rfl
  exact congrArg (· + bodiesWeight s.worker.bodies) this

theorem potential_consoleWrite (s : Station) (stream : ConsoleStream) (args : List Json) :
    (s.consoleWrite stream args).potential = s.potential :=
  congrArg (· + bodiesWeight s.worker.bodies) (Host.pullable_congr _ rfl rfl)

theorem potential_sleep (s : Station) (delay : Duration) :
    (s.sleep delay).1.potential = s.potential :=
  congrArg (· + bodiesWeight s.worker.bodies) (Host.pullable_sleep s.host delay s.context)

theorem potential_call_le (s : Station) (c : HostCall) :
    (s.call c).1.potential ≤ s.potential + 1 := by
  have : (s.call c).1.host.pullable s.context ≤ s.host.pullable s.context + 1 :=
    Bridge.pullable_call_le s.worker.bridge s.host c
  have : (s.call c).1.potential
      = (s.call c).1.host.pullable s.context + bodiesWeight s.worker.bodies := rfl
  unfold potential at *
  omega

theorem potential_setTimeout (s : Station) (delay : Duration) (body : Body) :
    (s.setTimeout delay body).1.potential = s.potential + (1 + Body.weight body) := by
  have bodies : (s.setTimeout delay body).1.worker.bodies = s.worker.bodies ++ [body] := by
    simp [setTimeout, Bridge.setTimeout, Worker.bodies, TimerTable.insert]
  have host : (s.setTimeout delay body).1.host.pullable s.context = s.host.pullable s.context :=
    Host.pullable_setTimeout s.host delay s.context
  have : (s.setTimeout delay body).1.potential
      = (s.setTimeout delay body).1.host.pullable s.context
        + bodiesWeight (s.setTimeout delay body).1.worker.bodies := rfl
  rw [this, bodies, bodiesWeight_append, bodiesWeight_cons, host]
  simp [bodiesWeight, potential]
  omega

theorem potential_withRegistry (s : Station) (r : Registry Body) (h : Host) :
    (s.withRegistry r h).potential
      = h.pullable s.context + (bodiesWeight (r.callbacks.map Prod.snd)
        + bodiesWeight (s.worker.bridge.timers.waiting.map WaitingTimer.callback)) := by
  rw [← bodiesWeight_append]
  rfl

theorem potential_register_le (s : Station) (task : TaskId) (body : Body) :
    (s.register task body).1.potential ≤ s.potential + (2 + Body.weight body) := by
  have queued := Host.pullable_registerTask_le s.host s.context s.context task
  have same : s.potential = _ := potential_withRegistry s s.worker.registry s.host
  have added : bodiesWeight ((s.worker.registry.add task body).callbacks.map Prod.snd)
      = bodiesWeight (s.worker.registry.callbacks.map Prod.snd) + (1 + Body.weight body) := by
    simp [Registry.add, bodiesWeight_append, bodiesWeight]
  unfold register
  rw [Registry.register_eq]
  cases s.worker.registry.refusal? task with
  | some e => simp only [potential_withRegistry]; omega
  | none =>
    cases hk : s.host.registerTask s.context task with
    | mk k r =>
      rw [hk] at queued
      simp only at queued
      cases r with
      | error e => simp only [potential_withRegistry]; omega
      | ok u => simp only [potential_note, potential_withRegistry, added]; omega

/-- Carrying out an action adds at most its weight. -/
theorem potential_act_le (s : Station) :
    ∀ a : Action, (s.act a).1.potential ≤ s.potential + a.weight
  | .call c => by simpa [act, Action.weight] using potential_call_le s c
  | .mark _ => by simp [act]
  | .who => by simp [act]
  | .register task body => by simpa [act, Action.weight] using potential_register_le s task body
  | .setTimeout delay body => by
    have := potential_setTimeout s delay body
    simp only [act, Action.weight]
    omega
  | .console stream args => by simp [act, potential_consoleWrite]
  | .log entry => by simp [act, potential_log]
  | .pause delay => by simp [act, potential_sleep]
  | .fail _ => by simp [act]
  | .attempt a => by simpa [act, Action.weight] using potential_act_le s a

theorem potential_runBody_le (scope : Option TaskId) (body : Body) (s : Station) :
    (runBody scope body s).1.potential ≤ s.potential + Body.weight body := by
  induction body generalizing s with
  | nil => simp [runBody]
  | cons a rest ih =>
    have acted : (s.perform scope a).1.potential ≤ s.potential + a.weight := potential_act_le s a
    simp only [runBody, Body.weight]
    split
    · next t r h =>
      have := ih t
      rw [h] at acted
      simp only at acted
      omega
    · next t e h =>
      have := ih t
      rw [h] at acted
      simp only at acted
      split
      · omega
      · simp only; omega

/-- Running a callback adds at most its weight. -/
theorem potential_runCallback_le (s : Station) (trigger : Trigger) (scope : Option TaskId)
    (body : Body) : (s.runCallback trigger scope body).1.potential ≤ s.potential + Body.weight body :=
  potential_runBody_le scope body (s.note (.began trigger scope s.worker.registry.running body))

end Station

/-! ### Handing timers out -/

theorem bodiesWeight_sortByKey {α : Type} (key : α → Nat × Nat) (body : α → Body) (l : List α) :
    bodiesWeight ((sortByKey key l).map body) = bodiesWeight (l.map body) := by
  have inserted : ∀ (a : α) (l : List α), bodiesWeight ((insertByKey key a l).map body)
      = bodiesWeight ((a :: l).map body) := by
    intro a l
    induction l with
    | nil => rfl
    | cons b rest ih =>
      simp only [insertByKey]
      split
      · rfl
      · simp only [List.map_cons, bodiesWeight_cons] at ih ⊢
        omega
  induction l with
  | nil => rfl
  | cons a rest ih =>
    simp only [sortByKey, inserted, List.map_cons, bodiesWeight_cons, ih]

/-- What is handed out is taken from the table. -/
theorem TimerTable.weight_takeReady (t : TimerTable Signal Body)
    (outcome : Signal → Option (Completion Unit)) :
    readyWeight (t.takeReady outcome).1
        + bodiesWeight ((t.takeReady outcome).2.waiting.map WaitingTimer.callback)
      = bodiesWeight (t.waiting.map WaitingTimer.callback) := by
  have sorted : readyWeight (t.takeReady outcome).1
      = bodiesWeight ((t.ready outcome).map fun r => r.2.callback) := by
    simp only [TimerTable.takeReady, readyWeight, List.map_map]
    exact bodiesWeight_sortByKey _ _ _
  rw [sorted]
  simp only [TimerTable.ready, TimerTable.takeReady]
  induction t.waiting with
  | nil => rfl
  | cons w rest ih =>
    cases ho : outcome w.signal with
    | none =>
      simp only [List.filterMap_cons, ho, Option.map_none, List.filter_cons, Option.isNone_none,
        if_true, List.map_cons, bodiesWeight_cons]
      omega
    | some c =>
      simp only [List.filterMap_cons, ho, Option.map_some, List.filter_cons, Option.isNone_some,
        Bool.false_eq_true, if_false, List.map_cons, bodiesWeight_cons]
      omega

theorem Bridge.weight_takeReady (b : Bridge Body) (h : Host) :
    readyWeight (b.takeReady h).1
        + bodiesWeight ((b.takeReady h).2.timers.waiting.map WaitingTimer.callback)
      = bodiesWeight (b.timers.waiting.map WaitingTimer.callback) :=
  TimerTable.weight_takeReady b.timers h.completion?

theorem Bridge.pollWithin_facts (fuel : Nat) (b : Bridge Body) (h : Host) :
    readyWeight (b.pollWithin fuel h).1
        + bodiesWeight ((b.pollWithin fuel h).2.1.timers.waiting.map WaitingTimer.callback)
      = bodiesWeight (b.timers.waiting.map WaitingTimer.callback)
    ∧ (b.pollWithin fuel h).2.1.context = b.context
    ∧ ∀ id, (b.pollWithin fuel h).2.2.pullable id = h.pullable id := by
  induction fuel generalizing b h with
  | zero =>
    unfold Bridge.pollWithin
    have taken := Bridge.weight_takeReady b h
    split
    · exact ⟨by simp [readyWeight, bodiesWeight], rfl, fun _ => rfl⟩
    · split
      · next r rest c hr => rw [hr] at taken; exact ⟨taken, by rw [← show (b.takeReady h).2 = c by rw [hr]]; rfl, fun _ => rfl⟩
      · next c hr => rw [hr] at taken; exact ⟨taken, by rw [← show (b.takeReady h).2 = c by rw [hr]]; rfl, fun _ => rfl⟩
  | succ fuel ih =>
    unfold Bridge.pollWithin
    have taken := Bridge.weight_takeReady b h
    split
    · exact ⟨by simp [readyWeight, bodiesWeight], rfl, fun _ => rfl⟩
    · split
      · next r rest c hr => rw [hr] at taken; exact ⟨taken, by rw [← show (b.takeReady h).2 = c by rw [hr]]; rfl, fun _ => rfl⟩
      · next c hr =>
        rw [hr] at taken
        have next := ih c h.drive.1
        have : c.context = b.context := by rw [← show (b.takeReady h).2 = c by rw [hr]]; rfl
        simp only
        refine ⟨?_, by rw [next.2.1, this], fun id => by rw [next.2.2, Host.pullable_drive]⟩
        rw [next.1, ← taken]
        simp [readyWeight, bodiesWeight]

namespace Station

/-- Hands out the worker's next timers. -/
def poll (s : Station) : List (ReadyTimer Body) × Station :=
  let (ready, bridge, host) := s.worker.bridge.poll s.host
  (ready, { s with host := host, worker := { s.worker with bridge := bridge } })

/-- Handing timers out takes their weight away, and one more for each. -/
theorem potential_poll (s : Station) :
    s.poll.2.potential + readyWeight s.poll.1 = s.potential := by
  have facts := Bridge.pollWithin_facts s.host.timers.size s.worker.bridge s.host
  have weight := facts.1
  have host := facts.2.2 s.context
  have context : s.poll.2.context = s.context := facts.2.1
  simp only [potential, context]
  simp only [Worker.bodies, bodiesWeight_append]
  have hs : s.poll.2.host.pullable s.context = s.host.pullable s.context := host
  have hr : s.poll.2.worker.registry = s.worker.registry := rfl
  have hw : readyWeight s.poll.1
      + bodiesWeight (s.poll.2.worker.bridge.timers.waiting.map WaitingTimer.callback)
        = bodiesWeight (s.worker.bridge.timers.waiting.map WaitingTimer.callback) := weight
  rw [hs, hr]
  omega

/-- Takes the callback of a task out of the registry. -/
def takeCallback (s : Station) (task : TaskId) : Option Body × Station :=
  let (callback, registry) := s.worker.registry.take task
  (callback, { s with worker := { s.worker with registry := registry } })

/-- Taking a callback out takes more than its weight away. -/
theorem potential_takeCallback (s : Station) (task : TaskId) {body : Body}
    (h : (s.takeCallback task).1 = some body) :
    (s.takeCallback task).2.potential + 1 + Body.weight body ≤ s.potential := by
  have main : ∀ cs : List (TaskId × Body), cs.lookup task = some body →
      bodiesWeight ((cs.filter fun c => decide (c.1 ≠ task)).map Prod.snd) + 1 + Body.weight body
        ≤ bodiesWeight (cs.map Prod.snd) := by
    have drop : ∀ cs : List (TaskId × Body),
        bodiesWeight ((cs.filter fun c => decide (c.1 ≠ task)).map Prod.snd)
          ≤ bodiesWeight (cs.map Prod.snd) := by
      intro cs
      induction cs with
      | nil => simp
      | cons c rest ih =>
        simp only [List.filter_cons]
        split
        · simp only [List.map_cons, bodiesWeight_cons]; omega
        · simp only [List.map_cons, bodiesWeight_cons]; omega
    intro cs
    induction cs with
    | nil => intro hl; simp at hl
    | cons c rest ih =>
      intro hl
      obtain ⟨k, b⟩ := c
      by_cases hk : k = task
      · subst hk
        simp only [List.lookup_cons, beq_self_eq_true, Option.some.injEq] at hl
        subst hl
        have := drop rest
        simp only [List.filter_cons, ne_eq, not_true_eq_false, decide_false, Bool.false_eq_true,
          if_false, List.map_cons, bodiesWeight_cons] at this ⊢
        omega
      · have hne : (task == k) = false := by simpa using fun e => hk e.symm
        simp only [List.lookup_cons, hne] at hl
        have := ih hl
        simp only [List.filter_cons, ne_eq, hk, not_false_eq_true, decide_true, if_true,
          List.map_cons, bodiesWeight_cons] at this ⊢
        omega
  have := main s.worker.registry.callbacks h
  simp only [potential, takeCallback, context, Worker.bodies, Registry.take, bodiesWeight_append]
    at this ⊢
  omega

end Station
end TaskHost
