/-
# What a command changes

A command of a session does one of five things (`Session.Change`): it leaves
workers and loops as they are, it adds a worker, it adds a loop, it lets a worker
act, or it lets a worker move a loop. A law says which calls the callbacks of each
worker may make, at which workers a loop may be stepped, and which contexts may be
adopted; it is a law for commands, since every callback that a worker has comes
from a command (`Session.change_exec`). A step and a run of a loop are one thing, a loop
that acts at a worker (`Session.byLoop`), up to what becomes of the loop.

Key definitions: `Session.Law`, `Session.Command.Obeys`, `Session.play`,
`Session.Change`, `Session.Lawful`, `Session.byLoop`.
Key theorems: `Session.byLoop_cases`, `Session.change_exec`, `Session.lawful_change`.
-/
import Mathlib.Data.List.Induction
import TaskHost.Session
import TaskHost.Proofs.Journals

namespace TaskHost

/-! ### Nothing is running between steps -/

namespace View

variable {law : HostCall → Prop}

theorem rests_deeds {s t : Station} (h : Station.Deeds law s t)
    (rests : s.worker.registry.running = none) : t.worker.registry.running = none :=
  (Station.running_deeds h).trans rests

theorem rests_step (l : DispatchLoop) {s : Station} (hs : s.Obeys law)
    (rests : s.worker.registry.running = none) :
    (l.step s).2.1.worker.registry.running = none := by
  obtain ⟨state, report⟩ := l
  cases state with
  | idle => exact rests_deeds (Station.deeds_settle none s hs) rests
  | pullPending =>
    have pulled : s.pull.1.worker.registry.running = none := by rw [worker_pull]; exact rests
    simp only [DispatchLoop.step]
    split
    · next t e h => rw [h] at pulled; exact pulled
    · next t task h => rw [h] at pulled; exact pulled
    · next t h => rw [h] at pulled; exact pulled
  | dispatching task =>
    simp only [DispatchLoop.step, DispatchLoop.dispatch]
    split
    · exact rests
    · split
      · next t e => rw [← show (Station.runTask _ task _).1 = t by rw [e]]; rfl
      · next t error e => rw [← show (Station.runTask _ task _).1 = t by rw [e]]; rfl
  | drained => exact rests

theorem rests_run (l : DispatchLoop) {s : Station} (hs : s.Obeys law)
    (rests : s.worker.registry.running = none) :
    (l.run s).1.worker.registry.running = none := by
  fun_induction DispatchLoop.run l s with
  | case1 l s hl => exact rests
  | case2 l s hl k t e h =>
    have stepped := rests_step l hs rests
    rw [h] at stepped
    exact stepped
  | case3 l s hl k t h ih =>
    have stepped := rests_step l hs rests
    have obeys := obeys_moves hs (moves_step [] [] l hs)
    rw [h] at stepped obeys
    exact ih obeys stepped

end View

/-! ### Laws for sessions -/

namespace Session

/-- Which host calls the callbacks of each worker may make, which loops may be
stepped at which workers, and which contexts may be adopted. -/
structure Law where
  calls : Nat → HostCall → Prop
  steps : Nat → Nat → Prop
  adopts : ContextHandle → Prop

/-- Whether a command and all callbacks in it obey a law. -/
def Command.Obeys (L : Law) : Command → Prop
  | .adopt handle _ => L.adopts handle
  | .register w _ body => Body.Obeys (L.calls w) body
  | .setTimeout w _ body => Body.Obeys (L.calls w) body
  | .call w c => L.calls w c
  | .stepLoop l w => L.steps l w
  | .runLoop l w => L.steps l w
  | _ => True

/-- Carries out commands one after the other. -/
def play (s : Session) (commands : List Command) : Session :=
  commands.foldl (fun s c => (s.exec c).1) s

theorem play_concat (s : Session) (commands : List Command) (c : Command) :
    s.play (commands ++ [c]) = ((s.play commands).exec c).1 := by
  simp [play]

/-- Whether all callbacks of all workers obey a law. -/
def Lawful (L : Law) (s : Session) : Prop :=
  ∀ i worker, s.workers[i]? = some worker →
    (⟨s.host, worker, []⟩ : Station).Obeys (L.calls i)

/-- A worker that has done nothing yet. -/
structure IsNew (worker : Worker) (handle : ContextHandle) : Prop where
  owner : worker.handle = handle
  registry : worker.registry = .empty
  bridge : worker.bridge = .ofContext handle.context

/-- What a command can do to a session. -/
inductive Change (L : Law) (s t : Session) : Prop
  | idle (host : s.host.Later t.host) (contexts : t.host.contexts = s.host.contexts)
      (workers : t.workers = s.workers) (loops : t.loops = s.loops)
      (journal : t.journal = s.journal)
  | spawned (handle : ContextHandle) (worker : Worker) (new : IsNew worker handle)
      (serial : handle.context = .spawned s.host.contexts.length) (host : s.host.Later t.host)
      (contexts : t.host.contexts = s.host.contexts ++ [⟨handle, .empty, 0⟩])
      (workers : t.workers = s.workers ++ [worker]) (loops : t.loops = s.loops)
      (journal : t.journal = s.journal)
  | adopted (handle : ContextHandle) (worker : Worker) (new : IsNew worker handle)
      (allowed : L.adopts handle) (host : t.host = s.host)
      (workers : t.workers = s.workers ++ [worker]) (loops : t.loops = s.loops)
      (journal : t.journal = s.journal)
  | looped (host : t.host = s.host) (workers : t.workers = s.workers)
      (loops : t.loops = s.loops ++ [some .start]) (journal : t.journal = s.journal)
  | worked (i : Nat) (worker : Worker) (u : Station) (member : s.workers[i]? = some worker)
      (moves : ∀ loops, View.Moves (L.calls i) ⟨loops, ⟨s.host, worker, []⟩⟩ ⟨loops, u⟩)
      (rests : worker.registry.running = none → u.worker.registry.running = none)
      (host : t.host = u.host) (workers : t.workers = s.workers.set i u.worker)
      (loops : t.loops = s.loops)
      (journal : t.journal = s.journal ++ u.journal.map fun o => (i, o))
  | turned (i l : Nat) (worker : Worker) (loop : DispatchLoop) (next : Option DispatchLoop)
      (u : Station) (member : s.workers[i]? = some worker) (place : s.loops[l]? = some (some loop))
      (allowed : L.steps l i)
      (moves : ∀ pre post, View.Moves (L.calls i)
        ⟨pre ++ loop :: post, ⟨s.host, worker, []⟩⟩ ⟨pre ++ (next.toList ++ post), u⟩)
      (rests : worker.registry.running = none → u.worker.registry.running = none)
      (host : t.host = u.host) (workers : t.workers = s.workers.set i u.worker)
      (loops : t.loops = s.loops.set l next)
      (journal : t.journal = s.journal ++ u.journal.map fun o => (i, o))

variable {L : Law} {s t : Session}

/-! ### Workers and loops that act -/

theorem atStation_member {α : Type} {w : Nat} {worker : Worker}
    (member : s.workers[w]? = some worker) (act : Station → Station × α) : s.atStation w act
      = ({ s with
          host := (act ⟨s.host, worker, []⟩).1.host
          workers := s.workers.set w (act ⟨s.host, worker, []⟩).1.worker
          journal := s.journal ++ (act ⟨s.host, worker, []⟩).1.journal.map fun o => (w, o) },
        some (act ⟨s.host, worker, []⟩).2) := by
  unfold atStation
  rw [member]

theorem atStation_absent {α : Type} {w : Nat} (absent : s.workers[w]? = none)
    (act : Station → Station × α) : s.atStation w act = (s, none) := by
  unfold atStation
  rw [absent]

/-- The reply to a registration. -/
def registerReply : Except RegistryError Unit → Reply
  | .ok () => .done
  | .error e => .refused e

/-- The reply to a call of the host. -/
def callReply : Except HostError Answer → Reply
  | .ok a => .answer a
  | .error e => .failed e

theorem exec_register (s : Session) (w : Nat) (task : TaskId) (body : Body) :
    s.exec (.register w task body)
      = s.byWorker w fun st =>
        ((st.register task body).1, registerReply (st.register task body).2) := by
  refine congrArg (s.byWorker w) (funext fun st => ?_)
  obtain ⟨u, r⟩ := st.register task body
  cases r <;> rfl

theorem exec_call (s : Session) (w : Nat) (c : HostCall) :
    s.exec (.call w c) = s.byWorker w fun st => ((st.call c).1, callReply (st.call c).2) := by
  refine congrArg (s.byWorker w) (funext fun st => ?_)
  obtain ⟨u, r⟩ := st.call c
  cases r <;> rfl

/-- A step of a loop: what the loop becomes, and the reply. -/
def byStep (loop : DispatchLoop) (st : Station) : Station × Option DispatchLoop × Reply :=
  let (next, st, r) := loop.step st
  (st, some next,
    match r with
    | .ok () => .state next.state
    | .error e => .stopped e)

/-- A run of a loop, which ends it, and the reply. -/
def byRun (loop : DispatchLoop) (st : Station) : Station × Option DispatchLoop × Reply :=
  let (st, r) := loop.run st
  (st, none, drainReply r)

/-- Lets a loop act at a worker; there may be no such loop, or no such worker. -/
def byLoop (s : Session) (l w : Nat)
    (act : DispatchLoop → Station → Station × Option DispatchLoop × Reply) : Session × Reply :=
  match s.loops[l]? with
  | none => (s, .absent)
  | some none => (s, .gone)
  | some (some loop) =>
    match s.atStation w (act loop) with
    | (s, none) => (s, .absent)
    | (s, some (next, r)) => ({ s with loops := s.loops.set l next }, r)

theorem exec_stepLoop (s : Session) (l w : Nat) : s.exec (.stepLoop l w) = s.byLoop l w byStep := by
  simp only [exec, byLoop]
  cases s.loops[l]? with
  | none => rfl
  | some place =>
    cases place with
    | none => rfl
    | some loop =>
      cases member : s.workers[w]? with
      | none => simp only [atStation_absent member]
      | some worker =>
        simp only [atStation_member member]
        rfl

theorem exec_runLoop (s : Session) (l w : Nat) : s.exec (.runLoop l w) = s.byLoop l w byRun := by
  simp only [exec, byLoop]
  cases s.loops[l]? with
  | none => rfl
  | some place =>
    cases place with
    | none => rfl
    | some loop =>
      cases member : s.workers[w]? with
      | none => simp only [atStation_absent member]
      | some worker =>
        simp only [atStation_member member]
        rfl

variable {l i : Nat} {act : DispatchLoop → Station → Station × Option DispatchLoop × Reply}

theorem byLoop_member {loop : DispatchLoop} {worker : Worker}
    (place : s.loops[l]? = some (some loop)) (member : s.workers[i]? = some worker) :
    s.byLoop l i act
      = ({ (s.atStation i (act loop)).1 with
            loops := s.loops.set l (act loop ⟨s.host, worker, []⟩).2.1 },
        (act loop ⟨s.host, worker, []⟩).2.2) := by
  simp only [byLoop, place, atStation_member member]

/-- Where there is no loop or no worker, nothing changes. -/
theorem byLoop_cases (s : Session) (l i : Nat)
    (act : DispatchLoop → Station → Station × Option DispatchLoop × Reply) :
    (s.byLoop l i act).1 = s ∨ ∃ loop worker, s.loops[l]? = some (some loop)
      ∧ s.workers[i]? = some worker
      ∧ (s.byLoop l i act).1 = { (s.atStation i (act loop)).1 with
          loops := s.loops.set l (act loop ⟨s.host, worker, []⟩).2.1 } := by
  cases place : s.loops[l]? with
  | none => exact .inl (by simp only [byLoop, place])
  | some there =>
    cases there with
    | none => exact .inl (by simp only [byLoop, place])
    | some loop =>
      cases member : s.workers[i]? with
      | none => exact .inl (by simp only [byLoop, place, atStation_absent member])
      | some worker =>
        exact .inr ⟨loop, worker, rfl, rfl, congrArg Prod.fst (byLoop_member place member)⟩

/-! ### What each command changes -/

theorem change_refl (s : Session) : Change L s s := .idle (.refl _) rfl rfl rfl rfl

theorem change_host {h : Host} (later : s.host.Later h) (contexts : h.contexts = s.host.contexts) :
    Change L s { s with host := h } := .idle later contexts rfl rfl rfl

theorem addWorker_facts (s : Session) (handle : ContextHandle) (threshold : Option LogLevel) :
    ∃ worker, IsNew worker handle ∧ (s.addWorker handle threshold).1
      = { s with workers := s.workers ++ [worker] } := by
  cases threshold with
  | none => exact ⟨.ofHandle handle, ⟨rfl, rfl, rfl⟩, rfl⟩
  | some level => exact ⟨(Worker.ofHandle handle).withLogThreshold level, ⟨rfl, rfl, rfl⟩, rfl⟩

theorem change_spawn (d : ContextDescriptor) (threshold : Option LogLevel) :
    Change L s (s.exec (.spawn d threshold)).1 := by
  simp only [exec, Host.spawn]
  by_cases refused : 0 < s.host.outages.spawns
  · rw [if_pos refused]
    exact change_host (Host.later_passSpawn s.host) rfl
  · rw [if_neg refused]
    let handle : ContextHandle := ⟨.spawned s.host.contexts.length, d.worker, d.name⟩
    have later := (Host.later_passSpawn s.host).trans (Host.later_makeContext s.host.passSpawn d)
    obtain ⟨worker, new, added⟩ := addWorker_facts
      { s with host := (s.host.passSpawn.makeContext d).1 } handle threshold
    have whole : Change L s { s with
        host := (s.host.passSpawn.makeContext d).1, workers := s.workers ++ [worker] } :=
      .spawned handle worker new rfl later rfl rfl rfl rfl
    exact added ▸ whole

theorem change_adopt {handle : ContextHandle} (allowed : L.adopts handle)
    (threshold : Option LogLevel) : Change L s (s.exec (.adopt handle threshold)).1 := by
  obtain ⟨worker, new, added⟩ := addWorker_facts s handle threshold
  have whole : Change L s { s with workers := s.workers ++ [worker] } :=
    .adopted handle worker new allowed rfl rfl rfl rfl
  exact added ▸ whole

theorem change_byWorker {i : Nat} {act : Station → Station × Reply}
    (acts : ∀ worker, s.workers[i]? = some worker → ∀ loops,
      View.Moves (L.calls i) ⟨loops, ⟨s.host, worker, []⟩⟩ ⟨loops, (act ⟨s.host, worker, []⟩).1⟩)
    (rests : ∀ worker, s.workers[i]? = some worker → worker.registry.running = none →
      (act ⟨s.host, worker, []⟩).1.worker.registry.running = none) :
    Change L s (s.byWorker i act).1 := by
  unfold byWorker atStation
  cases hw : s.workers[i]? with
  | none => exact change_refl s
  | some worker => exact .worked i worker _ hw (acts worker hw) (rests worker hw) rfl rfl rfl rfl

theorem change_deeds {i : Nat} {act : Station → Station × Reply}
    (acts : ∀ worker, s.workers[i]? = some worker →
      Station.Deeds (L.calls i) ⟨s.host, worker, []⟩ (act ⟨s.host, worker, []⟩).1) :
    Change L s (s.byWorker i act).1 :=
  change_byWorker (fun worker hw loops => View.moves_deeds loops (acts worker hw))
    fun worker hw => View.rests_deeds (acts worker hw)

/-- A loop acts at a worker. -/
theorem change_byLoop (allowed : L.steps l i)
    (acts : ∀ worker, s.workers[i]? = some worker → ∀ loop pre post,
      let acted := act loop ⟨s.host, worker, []⟩
      View.Moves (L.calls i) ⟨pre ++ loop :: post, ⟨s.host, worker, []⟩⟩
        ⟨pre ++ (acted.2.1.toList ++ post), acted.1⟩)
    (rests : ∀ worker, s.workers[i]? = some worker → ∀ loop, worker.registry.running = none →
      (act loop ⟨s.host, worker, []⟩).1.worker.registry.running = none) :
    Change L s (s.byLoop l i act).1 := by
  obtain same | ⟨loop, worker, place, member, acted⟩ := byLoop_cases s l i act
  · rw [same]
    exact change_refl s
  · rw [acted, atStation_member member]
    exact .turned i l worker loop _ _ member place allowed (acts worker member loop)
      (rests worker member loop) rfl rfl rfl rfl

theorem change_start (op : Operation) : Change L s (s.exec (.start op)).1 := by
  cases op with
  | timer delay =>
    exact .idle (Host.later_setTimeout s.host delay) (Host.contexts_setTimeout s.host delay)
      rfl rfl rfl
  | read path => exact .idle (Host.later_loadFile s.host path) rfl rfl rfl rfl
  | write path contents => exact .idle (Host.later_storeFile s.host path contents) rfl rfl rfl rfl
  | fetch url => exact .idle (Host.later_fetch s.host url) rfl rfl rfl rfl

/-- What a command changes. -/
theorem change_exec (hs : Lawful L s) {c : Command} (hc : c.Obeys L) :
    Change L s (s.exec c).1 := by
  cases c with
  | spawn d threshold => exact change_spawn d threshold
  | adopt handle threshold => exact change_adopt hc threshold
  | register i task body =>
    rw [exec_register]
    refine change_deeds fun worker hw => ?_
    exact .single (.act _ (.register task body) (by rw [Action.Obeys]; exact hc))
  | setTimeout i delay body =>
    refine change_deeds fun worker hw => ?_
    exact .single (.act _ (.setTimeout delay body) (by rw [Action.Obeys]; exact hc))
  | settle i origin =>
    refine change_deeds fun worker hw => ?_
    exact Station.deeds_settle origin ⟨s.host, worker, []⟩ (hs i worker hw)
  | drain i =>
    refine change_byWorker (fun worker hw loops => ?_) fun worker hw => ?_
    · exact View.moves_drain loops (hs i worker hw)
    · exact View.rests_run .start (hs i worker hw)
  | console i stream args =>
    exact change_deeds fun worker hw => .single (.act _ (.console stream args) trivial)
  | call i c =>
    rw [exec_call]
    refine change_deeds fun worker hw => ?_
    exact .single (.act _ (.call c) (by rw [Action.Obeys]; exact hc))
  | entries i => exact change_deeds fun worker hw => .refl
  | registry i task => exact change_deeds fun worker hw => .refl
  | queue i => exact change_deeds fun worker hw => .refl
  | newLoop => exact .looped rfl rfl rfl rfl
  | stepLoop l i =>
    rw [exec_stepLoop]
    refine change_byLoop hc (fun worker member loop pre post => ?_) fun worker member loop => ?_
    · exact View.moves_step pre post loop (hs i worker member)
    · exact View.rests_step loop (hs i worker member)
  | runLoop l i =>
    rw [exec_runLoop]
    refine change_byLoop hc (fun worker member loop pre post => ?_) fun worker member loop => ?_
    · obtain ⟨k, free, moved, -⟩ := View.moves_run pre post loop (hs i worker member)
      exact moved.tail (.leave pre post k _ free)
    · exact View.rests_run loop (hs i worker member)
  | showLoop l =>
    simp only [exec]
    split <;> exact change_refl s
  | advance d => exact change_host (Host.later_advance s.host d) rfl
  | drive => exact change_host (Host.later_drive s.host) (Host.contexts_drive s.host)
  | print line isError => exact change_host (Host.later_print s.host line isError) rfl
  | timers => exact change_refl s
  | contexts => exact change_refl s
  | file path => exact change_refl s
  | lines isError => exact change_refl s
  | start op => exact change_start op
  | slot i =>
    simp only [exec]
    split <;> exact change_refl s
  | take i =>
    simp only [exec]
    split
    · exact change_refl s
    · exact .idle (.refl _) rfl rfl rfl rfl

/-! ### Laws are kept -/

theorem getElem?_concat_cases {α : Type} {l : List α} {a b : α} {k : Nat}
    (h : (l ++ [a])[k]? = some b) : l[k]? = some b ∨ (k = l.length ∧ b = a) := by
  by_cases early : k < l.length
  · rw [List.getElem?_append_left early] at h
    exact Or.inl h
  · have bound := (List.getElem?_eq_some_iff.mp h).1
    rw [List.length_append, List.length_singleton] at bound
    have last : k = l.length := by omega
    rw [last, List.getElem?_concat_length] at h
    exact Or.inr ⟨last, (Option.some.inj h).symm⟩

theorem obeys_congr {law : HostCall → Prop} {u v : Station} (h : v.worker = u.worker)
    (hu : u.Obeys law) : v.Obeys law := by
  unfold Station.Obeys
  rw [h]
  exact hu

theorem lawful_set (hs : Lawful L s) {i : Nat} {u : Station} (hu : u.Obeys (L.calls i))
    (workers : t.workers = s.workers.set i u.worker) : Lawful L t := by
  intro k worker hk
  rw [workers] at hk
  by_cases e : i = k
  · subst e
    have bound := (List.getElem?_eq_some_iff.mp hk).1
    rw [List.length_set] at bound
    rw [List.getElem?_set_self bound] at hk
    exact obeys_congr (Option.some.inj hk).symm hu
  · rw [List.getElem?_set_ne e] at hk
    exact obeys_congr rfl (hs k worker hk)

theorem lawful_append (hs : Lawful L s) {handle : ContextHandle} {worker : Worker}
    (new : IsNew worker handle) (workers : t.workers = s.workers ++ [worker]) : Lawful L t := by
  intro k other hk
  rw [workers] at hk
  rcases getElem?_concat_cases hk with old | ⟨-, rfl⟩
  · exact obeys_congr rfl (hs k other old)
  · intro b hb
    simp only [Worker.bodies, new.registry, new.bridge] at hb
    cases hb

theorem lawful_change (hs : Lawful L s) (h : Change L s t) : Lawful L t := by
  cases h with
  | idle host contexts workers loops journal =>
    intro i worker hw
    exact obeys_congr rfl (hs i worker (workers ▸ hw))
  | spawned handle worker new serial host contexts workers loops journal =>
    exact lawful_append hs new workers
  | adopted handle worker new allowed host workers loops journal =>
    exact lawful_append hs new workers
  | looped host workers loops journal =>
    intro i worker hw
    exact obeys_congr rfl (hs i worker (workers ▸ hw))
  | worked i worker u member moves rests host workers loops journal =>
    exact lawful_set hs (View.obeys_moves (hs i worker member) (moves [])) workers
  | turned i l worker loop next u member place allowed moves rests host workers loops journal =>
    exact lawful_set hs (View.obeys_moves (hs i worker member) (moves [] [])) workers

end Session
end TaskHost
