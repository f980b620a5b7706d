/-
# A worker with its loops

A view is a worker at its station together with the loops that are stepped there.
It changes by moves of the worker: deeds, and what loops do between them
(`View.Move`). While other workers act on the same host, the worker's view moves
too, but its context stays as it is (`View.Step`). Every step of a loop, every run
and every drain is a sequence of moves (`View.moves_step`, `View.moves_run`,
`View.moves_drain`), so what every step of a view preserves holds at every moment,
also inside callbacks.

Key definitions: `LoopState.held?`, `View`, `View.held`, `View.Move`, `View.Step`,
`View.Moves`, `View.Path`.
Key theorems: `View.keeps_moves`, `View.obeys_moves`, `View.moves_step`,
`View.moves_run`, `View.moves_drain`.
-/
import TaskHost.Worker.Dispatch
import TaskHost.Proofs.Deeds
import TaskHost.Proofs.Registries

namespace TaskHost

/-- The id that a loop has pulled and not yet dispatched. -/
def LoopState.held? : LoopState → Option TaskId
  | .dispatching task => some task
  | _ => none

/-- What a loop does next when a pull has come back. -/
def LoopState.afterPull : Except HostError (Option TaskId) → LoopState
  | .error _ => .pullPending
  | .ok none => .drained
  | .ok (some task) => .dispatching task

/-- A worker at its station and the loops that are stepped there. -/
structure View where
  loops : List DispatchLoop
  station : Station

namespace View

/-- The ids that loops hold. -/
def heldBy (loops : List DispatchLoop) : List TaskId := loops.filterMap fun l => l.state.held?

/-- The ids that the loops of a view hold. -/
def held (v : View) : List TaskId := heldBy v.loops

theorem heldBy_append (a b : List DispatchLoop) : heldBy (a ++ b) = heldBy a ++ heldBy b :=
  List.filterMap_append

theorem heldBy_cons (l : DispatchLoop) (rest : List DispatchLoop) :
    heldBy (l :: rest) = l.state.held?.toList ++ heldBy rest := by
  unfold heldBy
  rw [List.filterMap_cons]
  cases l.state.held? <;> rfl

/-- What the worker of a view and its loops do. A loop may be made at any time, and
be given up unless it holds an id; its report may change otherwise than by a
skipped id, which has a move of its own. -/
inductive Move (law : HostCall → Prop) : View → View → Prop
  | deed (loops : List DispatchLoop) {s t : Station} (h : Station.Deed law s t) :
      Move law ⟨loops, s⟩ ⟨loops, t⟩
  | enter (pre post : List DispatchLoop) (s : Station) :
      Move law ⟨pre ++ post, s⟩ ⟨pre ++ .start :: post, s⟩
  | leave (pre post : List DispatchLoop) (l : DispatchLoop) (s : Station)
      (free : l.state.held? = none) : Move law ⟨pre ++ l :: post, s⟩ ⟨pre ++ post, s⟩
  | turn (pre post : List DispatchLoop) (l k : DispatchLoop) (s : Station)
      (free : l.state.held? = none) (free' : k.state.held? = none)
      (skipped : k.report.skipped = l.report.skipped) :
      Move law ⟨pre ++ l :: post, s⟩ ⟨pre ++ k :: post, s⟩
  | pull (pre post : List DispatchLoop) (report : DrainReport) (s : Station) :
      Move law ⟨pre ++ ⟨.pullPending, report⟩ :: post, s⟩
        ⟨pre ++ ⟨.afterPull s.pull.2, report⟩ :: post, s.pull.1⟩
  | take (pre post : List DispatchLoop) (report : DrainReport) (s : Station) (task : TaskId)
      (body : Body) (registered : s.worker.registry.callback? task = some body) :
      Move law ⟨pre ++ ⟨.dispatching task, report⟩ :: post, s⟩
        ⟨pre ++ ⟨.pullPending, report⟩ :: post, ((s.takeCallback task).2.beginTask task).note
          (.began (.task task) (some task) (some task) body)⟩
  | skip (pre post : List DispatchLoop) (report : DrainReport) (s : Station) (task : TaskId)
      (unregistered : s.worker.registry.callback? task = none) :
      Move law ⟨pre ++ ⟨.dispatching task, report⟩ :: post, s⟩
        ⟨pre ++ ⟨.pullPending, report.skip task⟩ :: post, s⟩
  | ended (loops : List DispatchLoop) (s : Station) (task : TaskId) (r : Except TaskError Unit) :
      Move law ⟨loops, s⟩ ⟨loops, s.note (.ended (.task task) r)⟩
  | finish (loops : List DispatchLoop) (s : Station) : Move law ⟨loops, s⟩ ⟨loops, s.finishTask⟩

/-- A move, or something that happens elsewhere on the host. -/
inductive Step (law : HostCall → Prop) : View → View → Prop
  | move {v w : View} (h : Move law v w) : Step law v w
  | elsewhere (loops : List DispatchLoop) (s : Station) (h : Host) (later : s.host.Later h)
      (same : h.context? s.context = s.host.context? s.context) :
      Step law ⟨loops, s⟩ ⟨loops, { s with host := h }⟩

/-- Any number of moves. -/
abbrev Moves (law : HostCall → Prop) : View → View → Prop := Relation.ReflTransGen (Move law)

/-- Any number of steps. -/
abbrev Path (law : HostCall → Prop) : View → View → Prop := Relation.ReflTransGen (Step law)

variable {law : HostCall → Prop} {v w : View}

theorem path_of_moves (h : Moves law v w) : Path law v w :=
  Relation.ReflTransGen.mono (fun _ _ => Step.move) _ _ h

/-! ### What moves keep -/

theorem keeps_pull (s : Station) : s.Keeps s.pull.1 := by
  have evolves := Host.evolves_pull s.host s.context
  unfold Station.pull
  split
  · next h task e => rw [e] at evolves; exact ⟨rfl, rfl, evolves⟩
  · next h error e => rw [e] at evolves; exact ⟨rfl, rfl, evolves⟩

theorem keeps_move (h : Move law v w) : v.station.Keeps w.station := by
  cases h with
  | deed loops h => exact Station.keeps_deed h
  | pull pre post report s => exact keeps_pull s
  | _ => exact ⟨rfl, rfl, .refl _ _⟩

theorem keeps_moves (h : Moves law v w) : v.station.Keeps w.station := by
  induction h with
  | refl => exact .refl _
  | tail _ step ih => exact ih.trans (keeps_move step)

theorem worker_pull (s : Station) : s.pull.1.worker = s.worker := by
  unfold Station.pull
  split <;> rfl

theorem journal_pull (s : Station) :
    s.pull.1.journal = s.journal ∨ ∃ task, s.pull.1.journal = s.journal ++ [.pulled task] := by
  unfold Station.pull
  split
  · exact Or.inr ⟨_, rfl⟩
  · exact Or.inl rfl

theorem host_pull (s : Station) : s.pull.2 = (s.host.pull s.context).2
    ∧ s.pull.1.queue = (s.host.pull s.context).1.queuedIds s.context := by
  unfold Station.pull
  split
  · next h task e => rw [e]; exact ⟨rfl, rfl⟩
  · next h error e => rw [e]; exact ⟨rfl, rfl⟩

/-- A pull that fails leaves the queue as it is; one that succeeds gives out the
first id, which stays queued only by a planned fault. -/
theorem queue_pull (s : Station) :
    (∃ e, s.pull.2 = .error e ∧ s.pull.1.queue = s.queue)
      ∨ (s.pull.2 = .ok s.queue.head? ∧ (s.pull.1.queue = s.queue.tail
        ∨ (0 < s.host.faults.repeatPulls ∧ s.pull.1.queue = s.queue))) := by
  rw [(host_pull s).1, (host_pull s).2]
  exact Host.queuedIds_pull s.host s.context

theorem bodies_takeCallback (s : Station) (task : TaskId) :
    ∀ b ∈ (s.takeCallback task).2.worker.bodies, b ∈ s.worker.bodies := by
  intro b hb
  rcases List.mem_append.mp hb with task | timer
  · obtain ⟨c, hc, rfl⟩ := List.mem_map.mp task
    exact List.mem_append_left _ (List.mem_map_of_mem (List.mem_filter.mp hc).1)
  · exact List.mem_append_right _ timer

theorem obeys_move (hv : v.station.Obeys law) (h : Move law v w) : w.station.Obeys law := by
  cases h with
  | deed loops h => exact Station.obeys_deed hv h
  | pull pre post report s =>
    unfold Station.Obeys
    rw [worker_pull]
    exact hv
  | take pre post report s task body registered =>
    exact fun b hb => hv b (bodies_takeCallback s task b hb)
  | _ => exact hv

theorem obeys_moves (hv : v.station.Obeys law) (h : Moves law v w) : w.station.Obeys law := by
  induction h with
  | refl => exact hv
  | tail _ step ih => exact obeys_move ih step

/-! ### What is done by moves -/

theorem moves_deeds (loops : List DispatchLoop) {s t : Station} (h : Station.Deeds law s t) :
    Moves law ⟨loops, s⟩ ⟨loops, t⟩ := by
  induction h with
  | refl => exact .refl
  | tail _ step ih => exact ih.tail (.deed loops step)

theorem obeys_callback {s : Station} (hs : s.Obeys law) {task : TaskId} {body : Body}
    (h : s.worker.registry.callback? task = some body) : Body.Obeys law body :=
  hs body (List.mem_append_left _ (List.mem_map_of_mem (Registry.mem_of_callback? h)))

theorem moves_runTask (loops : List DispatchLoop) {s : Station} (hs : s.Obeys law) (task : TaskId)
    {body : Body} (hb : Body.Obeys law body) :
    Moves law ⟨loops, (s.beginTask task).note (.began (.task task) (some task) (some task) body)⟩
      ⟨loops, (s.runTask task body).1⟩ := by
  have ran := Station.deeds_runBody (some task) hb
    ((s.beginTask task).note (.began (.task task) (some task) (some task) body))
  have noted := (moves_deeds loops ran).tail (.ended loops _ task
    (Station.runBody (some task) body
      ((s.beginTask task).note (.began (.task task) (some task) (some task) body))).2)
  have settled := Station.deeds_settle (some task) _
    (obeys_moves (v := ⟨loops, (s.beginTask task).note _⟩) hs noted)
  exact (noted.trans (moves_deeds loops settled)).tail (.finish loops _)

theorem moves_dispatch (pre post : List DispatchLoop) (report : DrainReport) {s : Station}
    (hs : s.Obeys law) (task : TaskId) :
    Moves law ⟨pre ++ ⟨.dispatching task, report⟩ :: post, s⟩
      ⟨pre ++ ((⟨.dispatching task, report⟩ : DispatchLoop).dispatch s task).1 :: post,
        ((⟨.dispatching task, report⟩ : DispatchLoop).dispatch s task).2⟩ := by
  unfold DispatchLoop.dispatch
  split
  · next u h =>
    have unregistered : s.worker.registry.callback? task = none := congrArg Prod.fst h
    exact (Relation.ReflTransGen.single (.skip pre post report s task unregistered)).trans
      (moves_deeds _ (Station.deeds_log s _))
  · next body u h =>
    have registered : s.worker.registry.callback? task = some body := congrArg Prod.fst h
    have taken : Moves law ⟨pre ++ ⟨.dispatching task, report⟩ :: post, s⟩ _ :=
      .single (.take pre post report s task body registered)
    obtain rfl : (s.takeCallback task).2 = u := congrArg Prod.snd h
    have ran := moves_runTask (pre ++ ⟨.pullPending, report⟩ :: post)
      (fun b hb => hs b (bodies_takeCallback s task b hb)) task (obeys_callback hs registered)
    have whole := taken.trans ran
    split
    · next t e =>
      rw [e] at whole
      exact whole.tail (.turn pre post _ ⟨.pullPending, report.execute task⟩ t rfl rfl rfl)
    · next t error e =>
      rw [e] at whole
      exact (whole.tail (.turn pre post _ ⟨.pullPending, report.fail task error⟩ t rfl rfl rfl)).trans
        (moves_deeds _ (Station.deeds_log t _))

/-- A step of a loop. -/
theorem moves_step (pre post : List DispatchLoop) (l : DispatchLoop) {s : Station}
    (hs : s.Obeys law) :
    Moves law ⟨pre ++ l :: post, s⟩ ⟨pre ++ (l.step s).1 :: post, (l.step s).2.1⟩ := by
  obtain ⟨state, report⟩ := l
  cases state with
  | idle =>
    have settled := moves_deeds (pre ++ ⟨.idle, report⟩ :: post) (Station.deeds_settle none s hs)
    exact settled.tail (.turn pre post _ ⟨.pullPending, report⟩ _ rfl rfl rfl)
  | pullPending =>
    have pulled : Moves law ⟨pre ++ ⟨.pullPending, report⟩ :: post, s⟩ _ :=
      .single (.pull pre post report s)
    simp only [DispatchLoop.step]
    split
    · next t e h => rw [h] at pulled; exact pulled
    · next t task h => rw [h] at pulled; exact pulled
    · next t h =>
      rw [h] at pulled
      exact pulled.trans (moves_deeds _ (Station.deeds_log t _))
  | dispatching task => exact moves_dispatch pre post report hs task
  | drained => exact .refl

/-- A loop fails only because a pull does, and then stays as it is. -/
theorem step_eq_error {l k : DispatchLoop} {s t : Station} {e : DispatchError}
    (h : l.step s = (k, t, .error e)) :
    l.state = .pullPending ∧ k = l ∧ ∃ error, e = .host error ∧ s.pull = (t, .error error) := by
  obtain ⟨state, report⟩ := l
  cases state with
  | pullPending =>
    simp only [DispatchLoop.step] at h
    split at h
    · next u error hp =>
      obtain ⟨rfl, rfl, he⟩ := h
      exact ⟨rfl, rfl, error, rfl, hp⟩
    · cases h
    · cases h
  | _ => cases h

/-- A run of a loop; at its end the loop holds no id. -/
theorem moves_run (pre post : List DispatchLoop) (l : DispatchLoop) {s : Station}
    (hs : s.Obeys law) :
    ∃ k, k.state.held? = none ∧ Moves law ⟨pre ++ l :: post, s⟩ ⟨pre ++ k :: post, (l.run s).1⟩
      ∧ ∀ report, (l.run s).2 = .ok report → k.report = report := by
  fun_induction DispatchLoop.run l s with
  | case1 l s hl => exact ⟨l, by rw [hl]; rfl, .refl, fun _ h => Except.ok.inj h⟩
  | case2 l s hl k t e h =>
    have moved := moves_step pre post l hs
    rw [h] at moved
    obtain ⟨pending, rfl, -⟩ := step_eq_error h
    have free : k.state.held? = none := by rw [pending]; rfl
    exact ⟨k, free, moved, fun _ h => by cases h⟩
  | case3 l s hl k t h ih =>
    have moved := moves_step pre post l hs
    rw [h] at moved
    obtain ⟨last, free, rest, report⟩ := ih (obeys_moves hs moved)
    exact ⟨last, free, moved.trans rest, report⟩

/-- A drain brings a loop of its own and gives it up. -/
theorem moves_drain (loops : List DispatchLoop) {s : Station} (hs : s.Obeys law) :
    Moves law ⟨loops, s⟩ ⟨loops, s.drain.1⟩ := by
  obtain ⟨k, free, moved, -⟩ := moves_run [] loops .start hs
  exact ((Relation.ReflTransGen.single (.enter [] loops s)).trans moved).tail
    (.leave [] loops k _ free)

end View
end TaskHost
