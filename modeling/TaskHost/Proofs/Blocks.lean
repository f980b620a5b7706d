/-
# A drain runs in blocks

A drain first settles the timers that are waiting, outside of any task. Then each
pull that brings a registered id is followed by one block: the task's callback and
the timers that are set in the block, each once, one after the other, and all in
the scope of the task, which is marked as running meanwhile (`Station.Block`).
Between blocks nothing runs and no timer is waiting, and only there ids are pulled
(`Station.Rounds`). So it is for every worker of every session, whatever faults are
planned, and every callback sees the identity that the worker was made with
(`Session.drain_in_blocks`).

Key definitions: `Station.Doing`, `Station.Block`, `Station.Idle`, `Station.Rounds`,
`Session.Tended`.
Key theorems: `Station.block_settle`, `Station.block_runTask`,
`DispatchLoop.rounds_run`, `Session.drain_in_blocks`.
-/
import TaskHost.Proofs.Executions
import TaskHost.Proofs.Histories

namespace TaskHost
namespace Station

variable {scope : Option TaskId} {identity : WorkerIdentity} {s t u : Station} {task : TaskId}
  {body : Body}

/-- One thing that happens between two pulls: a deed, or an entry in the journal. -/
inductive Doing : Station → Station → Prop
  | deed {s t : Station} (h : Deed HostCall.Any s t) : Doing s t
  | note (s : Station) (o : Occurrence) : Doing s (s.note o)

/-- A block of executions in one scope: some callbacks first, then exactly the timers
that were waiting before and those that the block sets. Whatever happens in the
block, its task stays marked as running and cannot be registered, and the worker
stays who it is; at the end no timer is waiting. -/
structure Block (scope : Option TaskId) (identity : WorkerIdentity)
    (first : List (Trigger × Body)) (s t : Station) : Prop where
  executions : ∃ (timers : List (TimerId × Body)) (os : List Occurrence),
    t.journal = s.journal ++ os
    ∧ Executions scope identity (first ++ timers.map timerCall) os
    ∧ timers.Perm (s.waiting ++ timersSet os)
  path : Relation.ReflTransGen Doing s t
  steady : ∀ u, Relation.ReflTransGen Doing s u → u.worker.registry.running = scope
    ∧ u.worker.identity = identity
    ∧ ∀ task, scope = some task → ∀ body, ∃ e, (u.register task body).2 = .error e
  settled : t.waiting = []

theorem obeys_any (s : Station) : s.Obeys HostCall.Any := fun b _ => Body.obeys_any b

theorem doings_of_deeds (h : Deeds HostCall.Any s t) : Relation.ReflTransGen Doing s t :=
  Relation.ReflTransGen.mono (fun _ _ => Doing.deed) _ _ h

theorem register_running (running : s.worker.registry.running = some task) (body : Body) :
    ∃ e, (s.register task body).2 = .error e := by
  have refused : s.worker.registry.refusal? task ≠ none := fun fresh =>
    (Registry.refusal?_eq_none_iff.mp fresh).2 running
  rcases register_cases s task body with ⟨e, -, result⟩ | ⟨fresh, -⟩ | ⟨fresh, -⟩
  · exact ⟨e, congrArg Prod.snd result⟩
  · exact absurd fresh refused
  · exact absurd fresh refused

/-- What is running and who the worker is do not change in a block. -/
theorem steady (running : s.worker.registry.running = scope) (who : s.worker.identity = identity)
    (u : Station) (h : Relation.ReflTransGen Doing s u) : u.worker.registry.running = scope
      ∧ u.worker.identity = identity
      ∧ ∀ task, scope = some task → ∀ body, ∃ e, (u.register task body).2 = .error e := by
  have same : u.worker.registry.running = scope ∧ u.worker.identity = identity := by
    induction h with
    | refl => exact ⟨running, who⟩
    | tail _ step ih =>
      cases step with
      | deed h => exact keeps_running (.single h) ih.1 ih.2
      | note o => exact ih
  refine ⟨same.1, same.2, ?_⟩
  rintro task rfl body
  exact register_running same.1 body

/-- Settling is a block of timers. -/
theorem block_settle (hs : s.Attended) (running : s.worker.registry.running = scope)
    (who : s.worker.identity = identity) : Block scope identity [] s (s.settle scope).1 := by
  obtain ⟨timers, os, settles⟩ := settles_settle hs running who
  exact ⟨⟨timers, os, settles.written, settles.executions, settles.complete⟩,
    doings_of_deeds (deeds_settle scope s s.obeys_any), steady running who, settles.settled⟩

/-- The callback of a task and its timers are a block; then nothing is running. -/
theorem block_runTask (hs : s.Attended) (who : s.worker.identity = identity)
    (task : TaskId) (body : Body) :
    ∃ t, Block (some task) identity [(.task task, body)] (s.beginTask task) t
      ∧ (s.runTask task body).1 = t.finishTask := by
  let begun : Station := s.beginTask task
  let first : Station := begun.note (.began (.task task) (some task) (some task) body)
  let ran : Station × Except TaskError Unit := first.runBody (some task) body
  let last : Station := ran.1.note (.ended (.task task) ran.2)
  have running : begun.worker.registry.running = some task := rfl
  have deeds : Deeds HostCall.Any first ran.1 :=
    deeds_runBody (some task) (Body.obeys_any body) first
  have settling : Deeds HostCall.Any last (last.settle (some task)).1 :=
    deeds_settle (some task) last last.obeys_any
  obtain ⟨running', who'⟩ := keeps_running deeds running who
  have begins : first.Attended := ⟨hs.outages, hs.scheduled, hs.answered⟩
  have attended : ran.1.Attended := attended_deeds begins deeds
  obtain ⟨os, stretch⟩ := stretch_runCallback (s := begun) (.task task) body running who
  obtain ⟨timers, os', settles⟩ := settles_settle (s := last)
    ⟨attended.outages, attended.scheduled, attended.answered⟩ running' who'
  refine ⟨(last.settle (some task)).1, ⟨⟨timers, os ++ os', ?_, ?_, ?_⟩, ?_, ?_, ?_⟩, rfl⟩
  · have written : last.journal = begun.journal ++ os := stretch.written
    rw [settles.written, written, List.append_assoc]
  · exact stretch.executions.append settles.executions
  · have timers : last.waiting = begun.waiting ++ timersSet os := stretch.timers
    have complete := settles.complete
    rw [timers, List.append_assoc, ← timersSet_append] at complete
    exact complete
  · exact ((Relation.ReflTransGen.single (.note begun _)).trans (doings_of_deeds deeds)).trans
      (.trans (.single (.note ran.1 _)) (doings_of_deeds settling))
  · exact steady running who
  · exact settles.settled

/-! ### Rounds of pulling -/

/-- Whether nothing is running and no timer is waiting. -/
structure Idle (s : Station) : Prop where
  running : s.worker.registry.running = none
  timers : s.waiting = []

/-- The rounds of a drain. Each begins idle with a pull: the pull fails, or brings no
id, which ends the drain, or it brings an id. An id without a callback is skipped;
the callback of any other is taken out and runs in a block. -/
inductive Rounds (identity : WorkerIdentity) : Station → Station → Prop
  | refused (s : Station) (idle : s.Idle) (e : HostError) (pulled : s.pull.2 = .error e) :
      Rounds identity s s.pull.1
  | dry (s : Station) (idle : s.Idle) (e : LogEntry) (pulled : s.pull.2 = .ok none) :
      Rounds identity s (s.pull.1.log e)
  | skipped (s t : Station) (idle : s.Idle) (task : TaskId) (e : LogEntry)
      (pulled : s.pull.2 = .ok (some task))
      (unregistered : s.pull.1.worker.registry.callback? task = none)
      (rest : Rounds identity (s.pull.1.log e) t) : Rounds identity s t
  | ran (s t u v : Station) (idle : s.Idle) (task : TaskId) (body : Body)
      (pulled : s.pull.2 = .ok (some task))
      (registered : s.pull.1.worker.registry.callback? task = some body)
      (fresh : ((s.pull.1.takeCallback task).2.beginTask task).waiting = [])
      (block : Block (some task) identity [(.task task, body)]
        ((s.pull.1.takeCallback task).2.beginTask task) t)
      (after : u = t.finishTask ∨ ∃ e, u = t.finishTask.log e)
      (rest : Rounds identity u v) : Rounds identity s v

end Station

/-! ### Timers stay attended -/

namespace View

variable {v w : View}

theorem attended_move (hv : v.station.Attended) (h : Move HostCall.Any v w) :
    w.station.Attended := by
  have later := (keeps_move h).host.toLater
  cases h with
  | deed loops h => exact Station.attended_deed hv h
  | pull pre post report s =>
    refine hv.later later fun t ht => ?_
    rw [worker_pull] at ht
    exact ht
  | _ => exact hv.later later fun _ ht => ht

theorem attended_moves (hv : v.station.Attended) (h : Moves HostCall.Any v w) :
    w.station.Attended := by
  induction h with
  | refl => exact hv
  | tail _ step ih => exact attended_move ih step

end View

namespace DispatchLoop

variable {identity : WorkerIdentity}

/-- What a dispatch comes to: the id is skipped, or its callback runs in a block. -/
theorem dispatch_cases {s : Station} (hs : s.Attended) (idle : s.Idle)
    (who : s.worker.identity = identity) (l : DispatchLoop) (task : TaskId) :
    (l.dispatch s task).1.state = .pullPending ∧ (l.dispatch s task).2.Idle
      ∧ ((s.worker.registry.callback? task = none ∧ ∃ e, (l.dispatch s task).2 = s.log e)
        ∨ ∃ body t, s.worker.registry.callback? task = some body
          ∧ Station.Block (some task) identity [(.task task, body)]
            ((s.takeCallback task).2.beginTask task) t
          ∧ ((l.dispatch s task).2 = t.finishTask
            ∨ ∃ e, (l.dispatch s task).2 = t.finishTask.log e)) := by
  unfold dispatch
  split
  · next u h =>
    have unregistered : s.worker.registry.callback? task = none := congrArg Prod.fst h
    exact ⟨rfl, ⟨idle.running, idle.timers⟩, Or.inl ⟨unregistered, _, rfl⟩⟩
  · next body u h =>
    have registered : s.worker.registry.callback? task = some body := congrArg Prod.fst h
    obtain rfl : (s.takeCallback task).2 = u := congrArg Prod.snd h
    have taken : (s.takeCallback task).2.Attended := ⟨hs.outages, hs.scheduled, hs.answered⟩
    obtain ⟨t, block, ran⟩ := Station.block_runTask taken who task body
    have rests : t.finishTask.Idle := ⟨rfl, block.settled⟩
    split
    · next v e =>
      rw [e] at ran
      obtain rfl : v = t.finishTask := ran
      exact ⟨rfl, rests, Or.inr ⟨body, t, registered, block, Or.inl rfl⟩⟩
    · next v error e =>
      rw [e] at ran
      obtain rfl : v = t.finishTask := ran
      exact ⟨rfl, ⟨rests.running, rests.timers⟩,
        Or.inr ⟨body, t, registered, block, Or.inr ⟨_, rfl⟩⟩⟩

/-- A loop that is about to pull goes on in rounds; one that holds an id finishes the
round in which it pulled the id. -/
theorem rounds_run (l : DispatchLoop) {s : Station} (hs : s.Attended) (idle : s.Idle)
    (who : s.worker.identity = identity) :
    (l.state = .pullPending → Station.Rounds identity s (l.run s).1)
      ∧ ∀ task before, l.state = .dispatching task → before.Idle →
        before.pull = (s, .ok (some task)) → Station.Rounds identity before (l.run s).1 := by
  fun_induction run l s with
  | case1 l s hd =>
    rw [hd]
    exact ⟨(fun e => by cases e), fun _ _ e => by cases e⟩
  | case2 l s hd k t e h =>
    obtain ⟨pending, -, error, -, failed⟩ := View.step_eq_error h
    rw [pending]
    refine ⟨fun _ => ?_, fun _ _ e => by cases e⟩
    have refused : Station.Rounds identity s s.pull.1 :=
      .refused s idle error (congrArg Prod.snd failed)
    rw [failed] at refused
    exact refused
  | case3 l s hd k t h ih =>
    have moved := View.moves_step [] [] l s.obeys_any
    have attended := View.attended_moves hs moved
    have keeps := View.keeps_moves moved
    have who' : t.worker.identity = identity := by
      rw [h] at keeps
      rw [← who, Worker.identity, Worker.identity, keeps.handle]
    rw [h] at attended
    obtain ⟨state, report⟩ := l
    cases state with
    | idle => exact ⟨(fun e => by cases e), fun _ _ e => by cases e⟩
    | drained => exact absurd rfl hd
    | pullPending =>
      refine ⟨fun _ => ?_, fun _ _ e => by cases e⟩
      have unchanged : s.pull.1.Idle := by
        refine ⟨?_, ?_⟩
        · rw [View.worker_pull]
          exact idle.running
        · rw [Station.waiting, View.worker_pull]
          exact idle.timers
      simp only [step] at h
      split at h
      · cases h
      · next u task pulled =>
        obtain ⟨rfl, rfl, -⟩ := h
        rw [pulled] at unchanged
        exact (ih attended unchanged who').2 task s rfl idle pulled
      · next u pulled =>
        obtain ⟨rfl, rfl, -⟩ := h
        have dry : Station.Rounds identity s (s.pull.1.log (.drainFinished report)) :=
          .dry s idle _ (congrArg Prod.snd pulled)
        rw [pulled] at dry
        unfold run
        exact dry
    | dispatching task =>
      refine ⟨(fun e => by cases e), fun key before e idle' pulled => ?_⟩
      obtain rfl := LoopState.dispatching.inj e
      obtain ⟨pending, idle'', outcome⟩ :=
        dispatch_cases hs idle who ⟨.dispatching task, report⟩ task
      simp only [step] at h
      obtain ⟨rfl, rfl, -⟩ := h
      have rest := (ih attended idle'' who').1 pending
      obtain ⟨rfl, result⟩ := Prod.ext_iff.mp pulled
      rcases outcome with ⟨unregistered, entry, logged⟩ | ⟨body, u, registered, block, after⟩
      · exact .skipped before _ idle' task entry result unregistered (logged ▸ rest)
      · exact .ran before u _ _ idle' task body result registered idle.timers block after rest

end DispatchLoop

/-- A drain of an idle worker is a block of timers, followed by rounds. -/
theorem Station.blocks_drain {s : Station} {identity : WorkerIdentity} (hs : s.Attended)
    (running : s.worker.registry.running = none) (who : s.worker.identity = identity) :
    ∃ t, Block none identity [] s t ∧ Rounds identity t s.drain.1 := by
  have block := block_settle hs running who
  have settling := deeds_settle none s s.obeys_any
  obtain ⟨running', who'⟩ := keeps_running settling running who
  have rounds := (DispatchLoop.rounds_run ⟨.pullPending, .empty⟩ (attended_deeds hs settling)
    ⟨running', block.settled⟩ who').1 rfl
  have first : DispatchLoop.start.run s
      = DispatchLoop.run ⟨.pullPending, .empty⟩ (s.settle none).1 := by
    rw [DispatchLoop.run]
    rfl
  refine ⟨_, block, ?_⟩
  rw [drain, first]
  exact rounds

namespace Session

/-! ### Workers of a session -/

/-- Everything is allowed. -/
def Law.any : Law := ⟨fun _ => HostCall.Any, fun _ _ => True, fun _ => True⟩

variable {s t : Session} {w : Nat}

theorem Command.obeys_any (c : Command) : c.Obeys Law.any := by
  cases c with
  | register w task body => exact Body.obeys_any body
  | setTimeout w delay body => exact Body.obeys_any body
  | _ => trivial

theorem lawful_any (s : Session) : Lawful Law.any s := fun _ _ _ => Station.obeys_any _

/-- Whether nothing is running at any worker, and all timers are attended. -/
structure Tended (s : Session) : Prop where
  outages : s.host.outages.timers = 0
  attended : ∀ (i : Nat) (worker : Worker), s.workers[i]? = some worker →
    (⟨s.host, worker, []⟩ : Station).Attended
  rests : ∀ (i : Nat) (worker : Worker), s.workers[i]? = some worker →
    worker.registry.running = none

theorem Tended.later (hs : s.Tended) (later : s.host.Later t.host) {worker : Worker} {i : Nat}
    (member : s.workers[i]? = some worker) : (⟨t.host, worker, []⟩ : Station).Attended :=
  (hs.attended i worker member).later later fun _ hw => hw

theorem tended_same (hs : s.Tended) (later : s.host.Later t.host) (workers : t.workers = s.workers) :
    t.Tended where
  outages := Nat.le_zero.mp (hs.outages ▸ later.refusedTimers)
  attended _ _ hw := hs.later later (workers ▸ hw)
  rests i worker hw := hs.rests i worker (workers ▸ hw)

theorem tended_append (hs : s.Tended) (later : s.host.Later t.host) {new : Worker}
    {handle : ContextHandle} (isNew : IsNew new handle) (workers : t.workers = s.workers ++ [new]) :
    t.Tended := by
  have outages : t.host.outages.timers = 0 := Nat.le_zero.mp (hs.outages ▸ later.refusedTimers)
  refine ⟨outages, fun i worker hw => ?_, fun i worker hw => ?_⟩
  · rw [workers] at hw
    rcases getElem?_concat_cases hw with old | ⟨-, rfl⟩
    · exact hs.later later old
    · have timers : worker.bridge.timers.waiting = [] := by
        rw [isNew.bridge]
        rfl
      refine ⟨outages, ?_, ?_⟩
      · rw [timers]
        exact fun _ ht => by cases ht
      · rw [timers]
        exact fun _ ht => by cases ht
  · rw [workers] at hw
    rcases getElem?_concat_cases hw with old | ⟨-, rfl⟩
    · exact hs.rests i worker old
    · rw [isNew.registry]
      rfl

theorem tended_set (hs : s.Tended) {i : Nat} {actor : Worker} {u : Station}
    (member : s.workers[i]? = some actor) (later : s.host.Later t.host) (attended : u.Attended)
    (rests : u.worker.registry.running = none) (host : t.host = u.host)
    (workers : t.workers = s.workers.set i u.worker) : t.Tended := by
  have bound := (List.getElem?_eq_some_iff.mp member).1
  have places : ∀ (k : Nat) (worker : Worker), t.workers[k]? = some worker →
      worker = u.worker ∨ s.workers[k]? = some worker := by
    intro k worker hk
    rw [workers] at hk
    by_cases e : i = k
    · subst e
      rw [List.getElem?_set_self bound] at hk
      exact Or.inl (Option.some.inj hk).symm
    · rw [List.getElem?_set_ne e] at hk
      exact Or.inr hk
  refine ⟨Nat.le_zero.mp (hs.outages ▸ later.refusedTimers), fun k worker hk => ?_,
    fun k worker hk => ?_⟩
  · rcases places k worker hk with rfl | old
    · rw [host]
      exact ⟨attended.outages, attended.scheduled, attended.answered⟩
    · exact hs.later later old
  · rcases places k worker hk with rfl | old
    · exact rests
    · exact hs.rests k worker old

theorem tended_change (hs : s.Tended) (h : Change Law.any s t) : t.Tended := by
  have later := (crew_change h).1
  cases h with
  | idle host contexts workers loops journal => exact tended_same hs later workers
  | spawned handle new isNew serial host contexts workers loops journal =>
    exact tended_append hs later isNew workers
  | adopted handle new isNew allowed host workers loops journal =>
    exact tended_append hs later isNew workers
  | looped host workers loops journal => exact tended_same hs later workers
  | worked i actor u member moves rests host workers loops journal =>
    have attended := View.attended_moves (hs.attended i actor member) (moves [])
    exact tended_set hs member later attended (rests (hs.rests i actor member)) host workers
  | turned i l actor loop next u member place allowed moves rests host workers loops journal =>
    have attended := View.attended_moves (hs.attended i actor member) (moves [] [])
    exact tended_set hs member later attended (rests (hs.rests i actor member)) host workers

theorem tended_play {h : Host} (timers : h.outages.timers = 0) (commands : List Command) :
    ((ofHost h).play commands).Tended := by
  induction commands using List.reverseRecOn with
  | nil => exact ⟨timers, (fun i worker hw => by cases hw), fun i worker hw => by cases hw⟩
  | append_singleton commands c ih =>
    rw [play_concat]
    exact tended_change ih (change_exec (lawful_any _) c.obeys_any)

theorem handle_play {worker : Worker} (member : s.workers[w]? = some worker)
    (commands : List Command) :
    ∃ worker', (s.play commands).workers[w]? = some worker' ∧ worker'.handle = worker.handle := by
  induction commands using List.reverseRecOn with
  | nil => exact ⟨worker, member, rfl⟩
  | append_singleton commands c ih =>
    obtain ⟨before, there, same⟩ := ih
    have change := change_exec (lawful_any (s.play commands)) c.obeys_any
    obtain ⟨after, there', same', -⟩ := member_crew (crew_change change).2 there
    rw [play_concat]
    exact ⟨after, there', same'.trans same⟩

/-- Whether a command makes a worker. -/
def Command.Makes : Command → Prop
  | .spawn .. => True
  | .adopt .. => True
  | _ => False

theorem handle_addWorker (s : Session) (handle : ContextHandle) (threshold : Option LogLevel) :
    ∃ worker, (s.addWorker handle threshold).1.workers[s.workers.length]? = some worker
      ∧ worker.handle = handle := by
  obtain ⟨worker, isNew, added⟩ := addWorker_facts s handle threshold
  refine ⟨worker, ?_, isNew.owner⟩
  rw [added]
  exact List.getElem?_concat_length

/-- A worker is made with the handle that the reply tells. -/
theorem handle_exec {c : Command} (makes : c.Makes) {handle : ContextHandle}
    (created : (s.exec c).2 = .worker w handle) :
    ∃ worker, (s.exec c).1.workers[w]? = some worker ∧ worker.handle = handle := by
  cases c with
  | spawn d threshold =>
    simp only [exec] at created ⊢
    split at created
    · next k made hs =>
      obtain ⟨rfl, rfl⟩ := Reply.worker.inj created
      exact handle_addWorker { s with host := k } made threshold
    · cases created
  | adopt made threshold =>
    obtain ⟨rfl, rfl⟩ := Reply.worker.inj created
    exact handle_addWorker s made threshold
  | _ => exact makes.elim

theorem play_append (s : Session) (before after : List Command) :
    s.play (before ++ after) = (s.play before).play after := List.foldl_append

/-- Every drain of every worker runs in blocks, whatever faults are planned, on a host
that schedules all timers. The callbacks see the identity that the worker was made
with. -/
theorem drain_in_blocks {h : Host} (timers : h.outages.timers = 0) {before after : List Command}
    {c : Command} (makes : c.Makes) {handle : ContextHandle}
    (created : (((ofHost h).play before).exec c).2 = .worker w handle) :
    ∃ worker, ((ofHost h).play (before ++ c :: after)).workers[w]? = some worker
      ∧ ∃ t, Station.Block none handle.identity []
          ⟨((ofHost h).play (before ++ c :: after)).host, worker, []⟩ t
        ∧ Station.Rounds handle.identity t
          (⟨((ofHost h).play (before ++ c :: after)).host, worker, []⟩ : Station).drain.1 := by
  obtain ⟨made, first, owner⟩ := handle_exec makes created
  obtain ⟨worker, member, same⟩ := handle_play first after
  have whole : (((ofHost h).play before).exec c).1.play after
      = (ofHost h).play (before ++ c :: after) := (play_append (ofHost h) before (c :: after)).symm
  rw [whole] at member
  have tended := tended_play timers (before ++ c :: after)
  have who : worker.identity = handle.identity := by
    rw [Worker.identity, same, owner]
  exact ⟨worker, member, Station.blocks_drain (tended.attended w worker member)
    (tended.rests w worker member) who⟩

/-- A timer that was set before the drain, and a task that sets another. -/
def timerAndTask : List Command :=
  [.setTimeout 0 (.ofNanos 0) [], .register 0 ⟨"task"⟩ [.setTimeout (.ofNanos 0) [.who]]]

theorem drain_in_blocks_timerAndTask :
    let s := (ofHost .empty).play (.spawn ⟨"worker", some default⟩ none :: timerAndTask)
    ((s.exec (.drain 0)).1.journal.filterMap fun p => match p.2 with
      | .began trigger scope _ _ => some (trigger, scope)
      | _ => none) = [(.timer ⟨0⟩, none), (.task ⟨"task"⟩, some ⟨"task"⟩),
        (.timer ⟨1⟩, some ⟨"task"⟩)]
    ∧ ∃ worker, s.workers[0]? = some worker
      ∧ ∃ t, Station.Block none ⟨some default⟩ [] ⟨s.host, worker, []⟩ t
        ∧ Station.Rounds ⟨some default⟩ t (⟨s.host, worker, []⟩ : Station).drain.1 := by
  let c : Command := .spawn ⟨"worker", some default⟩ none
  have makes : c.Makes := trivial
  have created : (((ofHost .empty).play []).exec c).2
      = .worker 0 ⟨.spawned 0, some default, "worker"⟩ := rfl
  exact ⟨by decide +kernel, drain_in_blocks rfl makes created⟩

end Session
end TaskHost
