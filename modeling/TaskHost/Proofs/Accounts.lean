/-
# Every registration is accounted for

The journal of a worker tells which registrations were accepted and which pulled
callbacks began. Whatever faults the host shows, and whatever ids are pushed past
the registry, the accepted registrations of a task are those that were invoked, in
the same order, and after them the one that is still in the registry, if there is
one; unless its id was lost, this id is queued or held by a loop
(`Station.Accounted`). All this holds as long as ids are pulled by loops only
(`View.accounted_step`). A callback whose id is neither queued nor held stays where
it is until its id is pushed (`View.dormant_path`).

Key definitions: `Occurrence.accepted?`, `Occurrence.invoked?`, `registrationsOf`,
`invocationsOf`, `Station.Accounted`, `Station.Dormant`.
Key theorems: `Station.Accounted.invoked`, `View.accounted_path`,
`View.dormant_path`.
-/
import TaskHost.Proofs.Lockstep

namespace TaskHost

/-- The registration that was accepted: the task, the callback, and whether the
host lost the id. -/
def Occurrence.accepted? : Occurrence → Option (TaskId × Body × Bool)
  | .registered task body lost => some (task, body, lost)
  | _ => none

/-- The pulled task whose callback began, and the callback. -/
def Occurrence.invoked? : Occurrence → Option (TaskId × Body)
  | .began (.task task) _ _ body => some (task, body)
  | _ => none

/-- What belongs to one task. -/
def ofTask {α : Type} (task : TaskId) (l : List (TaskId × α)) : List α :=
  l.filterMap fun p => if p.1 = task then some p.2 else none

/-- The accepted registrations of a task, each with whether its id was lost. -/
def registrationsOf (task : TaskId) (journal : List Occurrence) : List (Body × Bool) :=
  ofTask task (journal.filterMap Occurrence.accepted?)

/-- The callbacks that were invoked for a task. -/
def invocationsOf (task : TaskId) (journal : List Occurrence) : List Body :=
  ofTask task (journal.filterMap Occurrence.invoked?)

theorem registrationsOf_concat (task : TaskId) (journal : List Occurrence) (o : Occurrence) :
    registrationsOf task (journal ++ [o])
      = registrationsOf task journal ++ ofTask task o.accepted?.toList := by
  cases h : o.accepted? <;> simp [registrationsOf, ofTask, List.filterMap_append, h]

theorem invocationsOf_concat (task : TaskId) (journal : List Occurrence) (o : Occurrence) :
    invocationsOf task (journal ++ [o])
      = invocationsOf task journal ++ ofTask task o.invoked?.toList := by
  cases h : o.invoked? <;> simp [invocationsOf, ofTask, List.filterMap_append, h]

theorem registrationsOf_other (task : TaskId) (journal : List Occurrence) {o : Occurrence}
    (h : o.accepted? = none) :
    registrationsOf task (journal ++ [o]) = registrationsOf task journal := by
  rw [registrationsOf_concat, h]
  exact List.append_nil _

theorem invocationsOf_other (task : TaskId) (journal : List Occurrence) {o : Occurrence}
    (h : o.invoked? = none) :
    invocationsOf task (journal ++ [o]) = invocationsOf task journal := by
  rw [invocationsOf_concat, h]
  exact List.append_nil _

theorem registrationsOf_registered (key task : TaskId) (journal : List Occurrence) (body : Body)
    (lost : Bool) : registrationsOf key (journal ++ [.registered task body lost])
      = registrationsOf key journal ++ if key = task then [(body, lost)] else [] := by
  rw [registrationsOf_concat]
  by_cases hk : key = task
  · simp [ofTask, Occurrence.accepted?, hk]
  · have hk' : ¬ task = key := fun e => hk e.symm
    simp [ofTask, Occurrence.accepted?, hk, hk']

theorem invocationsOf_began (key task : TaskId) (journal : List Occurrence)
    (scope running : Option TaskId) (body : Body) :
    invocationsOf key (journal ++ [.began (.task task) scope running body])
      = invocationsOf key journal ++ if key = task then [body] else [] := by
  rw [invocationsOf_concat]
  by_cases hk : key = task
  · simp [ofTask, Occurrence.invoked?, hk]
  · have hk' : ¬ task = key := fun e => hk e.symm
    simp [ofTask, Occurrence.invoked?, hk, hk']

theorem Occurrence.IsRemark.silent {o : Occurrence} (ho : o.IsRemark) :
    o.accepted? = none ∧ o.invoked? = none := by
  cases o with
  | began trigger scope running body => cases trigger <;> simp_all [IsRemark, accepted?, invoked?]
  | _ => simp_all [IsRemark, accepted?, invoked?]

namespace Station

variable {law : HostCall → Prop} {s t : Station} {held held' : List TaskId} {task : TaskId}

/-- Whether every registration is accounted for. -/
structure Accounted (s : Station) (held : List TaskId) : Prop where
  counts : ∀ task, (registrationsOf task s.journal).map Prod.fst
    = invocationsOf task s.journal ++ (s.worker.registry.callback? task).toList
  kept : ∀ task, (s.worker.registry.callback? task).isSome → ∀ body,
    (registrationsOf task s.journal).getLast? = some (body, false) → task ∈ s.queue ∨ task ∈ held

/-- Once queue and loops are empty, every registration whose id was not lost has
been invoked. -/
theorem Accounted.invoked (hs : s.Accounted held) (queue : s.queue = []) (free : held = [])
    {i : Nat} {body : Body} (h : (registrationsOf task s.journal)[i]? = some (body, false)) :
    (invocationsOf task s.journal)[i]? = some body := by
  have counts := hs.counts task
  have image : ((registrationsOf task s.journal).map Prod.fst)[i]? = some body := by
    rw [List.getElem?_map, h]
    rfl
  cases hc : s.worker.registry.callback? task with
  | none =>
    rw [hc, Option.toList, List.append_nil] at counts
    rw [← counts, image]
  | some b =>
    rw [counts, hc, Option.toList] at image
    by_cases early : i < (invocationsOf task s.journal).length
    · rwa [List.getElem?_append_left early] at image
    · -- the last registration is still in the registry, so its id was lost
      have bound := (List.getElem?_eq_some_iff.mp image).1
      have length := congrArg List.length counts
      rw [hc, Option.toList] at length
      simp only [List.length_map, List.length_append, List.length_singleton] at bound length
      have last : (registrationsOf task s.journal).getLast? = some (body, false) := by
        rw [List.getLast?_eq_getElem?, ← h]
        congr 1
        omega
      rcases hs.kept task (by rw [hc]; rfl) body last with hq | hh
      · rw [queue] at hq
        cases hq
      · rw [free] at hh
        cases hh

/-- Nothing is registered or invoked, and ids of registered tasks stay queued or
held. -/
theorem Accounted.mono (hs : s.Accounted held)
    (callback : ∀ task, t.worker.registry.callback? task = s.worker.registry.callback? task)
    (registrations : ∀ task, registrationsOf task t.journal = registrationsOf task s.journal)
    (invocations : ∀ task, invocationsOf task t.journal = invocationsOf task s.journal)
    (places : ∀ task, (s.worker.registry.callback? task).isSome →
      task ∈ s.queue ∨ task ∈ held → task ∈ t.queue ∨ task ∈ held') : t.Accounted held' where
  counts task := by rw [callback, registrations, invocations]; exact hs.counts task
  kept task hc body last := by
    rw [callback] at hc
    rw [registrations] at last
    exact places task hc (hs.kept task hc body last)

theorem Accounted.of_held (hs : s.Accounted held) (h : held' = held) : s.Accounted held' :=
  h ▸ hs

theorem Accounted.grow (hs : s.Accounted held)
    (callbacks : t.worker.registry.callbacks = s.worker.registry.callbacks)
    (journal : t.journal = s.journal) (queue : ∀ task ∈ s.queue, task ∈ t.queue) :
    t.Accounted held :=
  hs.mono (fun _ => by rw [Registry.callback?, callbacks]; rfl) (fun _ => by rw [journal])
    (fun _ => by rw [journal]) fun _ _ place => place.imp_left (queue _)

theorem subset_of_queue_eq (h : t.queue = s.queue) : ∀ task ∈ s.queue, task ∈ t.queue :=
  fun _ hk => h ▸ hk

theorem Accounted.note (hs : s.Accounted held) {o : Occurrence} (ho : o.accepted? = none)
    (ho' : o.invoked? = none) : (s.note o).Accounted held :=
  hs.mono (fun _ => rfl) (fun task => registrationsOf_other task s.journal ho)
    (fun task => invocationsOf_other task s.journal ho') fun _ _ place => place

theorem queue_of_registerTask {h : Host}
    (accepted : s.host.registerTask s.context task = (h, .ok ())) :
    (∀ key ∈ s.queue, key ∈ h.queuedIds s.context)
      ∧ (s.host.losesNext = false → task ∈ h.queuedIds s.context) := by
  rcases Host.queuedIds_of_registerTask_ok accepted with ⟨lost, queue⟩ | ⟨-, -, queue⟩
  · rw [queue, lost]
    exact ⟨fun _ h => h, fun h => by cases h⟩
  · rw [queue]
    exact ⟨fun _ h => List.mem_append_left _ h, fun _ => List.mem_append_right _ List.mem_cons_self⟩

theorem queue_subset_registerTask (s : Station) (task : TaskId) :
    ∀ key ∈ s.queue, key ∈ (s.host.registerTask s.context task).1.queuedIds s.context := by
  intro key hk
  rcases Host.queuedIds_registerTask s.host s.context task with ⟨-, -, -, queue⟩ | ⟨queue, -⟩
  · rw [queue]
    exact List.mem_append_left _ hk
  · rw [queue]
    exact hk

/-- An accepted registration becomes the last of its task. -/
theorem Accounted.register (hs : s.Accounted held) {body : Body} {lost : Bool}
    (absent : s.worker.registry.callback? task = none)
    (callback : ∀ key, t.worker.registry.callback? key
      = if key = task then some body else s.worker.registry.callback? key)
    (journal : t.journal = s.journal ++ [.registered task body lost])
    (queue : ∀ key ∈ s.queue, key ∈ t.queue) (queued : lost = false → task ∈ t.queue) :
    t.Accounted held := by
  constructor
  · intro key
    have counts := hs.counts key
    rw [callback, journal, registrationsOf_registered, invocationsOf_other key s.journal rfl]
    by_cases hk : key = task
    · rw [hk, absent] at counts
      simpa [hk] using counts
    · simpa [hk] using counts
  · intro key hc b last
    rw [callback] at hc
    rw [journal, registrationsOf_registered] at last
    by_cases hk : key = task
    · subst hk
      rw [if_pos rfl, List.getLast?_concat] at last
      exact Or.inl (queued (Prod.mk.inj (Option.some.inj last)).2)
    · rw [if_neg hk] at hc last
      rw [List.append_nil] at last
      exact (hs.kept key hc b last).imp_left (queue key)

theorem accounted_effect (noPull : ¬ law .pull) (hs : s.Accounted held) (h : Effect law s t) :
    t.Accounted held := by
  cases h with
  | quiet h logger host queue => exact hs.grow rfl rfl (subset_of_queue_eq queue)
  | registered task body h fresh accepted obeys =>
    have absent := Registry.callback?_eq_none_iff.mpr (Registry.refusal?_eq_none_iff.mp fresh).1
    obtain ⟨queue, queued⟩ := queue_of_registerTask accepted
    exact hs.register absent (Registry.callback?_add absent) rfl queue queued
  | timed delay body obeys =>
    have queue : (s.setTimeout delay body).1.queue = s.queue :=
      queue_congr (Host.contexts_setTimeout s.host delay) rfl
    exact hs.grow rfl rfl (subset_of_queue_eq queue)
  | pushed task allowed => exact hs.grow rfl rfl (queue_subset_registerTask s task)
  | pulled allowed => exact absurd allowed noPull

theorem accounted_deed (noPull : ¬ law .pull) (hs : s.Accounted held) (h : Deed law s t) :
    t.Accounted held := by
  cases h with
  | act a ha => exact accounted_effect noPull hs (effect_act a ha)
  | note o ho => exact hs.note ho.silent.1 ho.silent.2
  | poll =>
    obtain ⟨registry, context, -, contexts⟩ := s.poll_facts
    exact hs.grow (by rw [registry]) rfl (subset_of_queue_eq (queue_congr contexts context))

/-- A callback is taken out as its invocation begins. -/
theorem Accounted.take (hs : s.Accounted held) {body : Body}
    (registered : s.worker.registry.callback? task = some body)
    (callback : ∀ key, t.worker.registry.callback? key
      = if key = task then none else s.worker.registry.callback? key)
    (journal : t.journal = s.journal ++ [.began (.task task) (some task) (some task) body])
    (places : ∀ key, key ≠ task → key ∈ s.queue ∨ key ∈ held → key ∈ t.queue ∨ key ∈ held') :
    t.Accounted held' := by
  constructor
  · intro key
    have counts := hs.counts key
    rw [callback, journal, registrationsOf_other key s.journal rfl, invocationsOf_began]
    by_cases hk : key = task
    · rw [hk, registered] at counts
      simpa [hk] using counts
    · simpa [hk] using counts
  · intro key hc b last
    rw [callback] at hc
    rw [journal, registrationsOf_other key s.journal rfl] at last
    by_cases hk : key = task
    · rw [if_pos hk] at hc
      cases hc
    · rw [if_neg hk] at hc
      exact places key hk (hs.kept key hc b last)

end Station

namespace View

variable {law : HostCall → Prop} {v w : View} {task : TaskId}

theorem mem_heldBy_middle {pre post : List DispatchLoop} {l : DispatchLoop} :
    task ∈ heldBy (pre ++ l :: post)
      ↔ task ∈ heldBy (pre ++ post) ∨ l.state.held? = some task := by
  rw [heldBy_append, heldBy_append, heldBy_cons]
  simp only [List.mem_append, Option.mem_toList]
  tauto

/-- A pull moves an id from the queue to the loop that pulls, or leaves it. -/
theorem places_pull {pre post : List DispatchLoop} {report : DrainReport} {s : Station}
    (h : task ∈ s.queue ∨ task ∈ heldBy (pre ++ ⟨.pullPending, report⟩ :: post)) :
    task ∈ s.pull.1.queue ∨ task ∈ heldBy (pre ++ ⟨.afterPull s.pull.2, report⟩ :: post) := by
  rw [mem_heldBy_middle] at h ⊢
  rcases h with queued | others | own
  · rcases queue_pull s with ⟨e, -, queue⟩ | ⟨result, queue | ⟨-, queue⟩⟩
    · exact Or.inl (queue ▸ queued)
    · -- the first id goes to the loop
      rw [result, queue]
      cases hq : s.queue with
      | nil => rw [hq] at queued; cases queued
      | cons first rest =>
        rw [hq] at queued
        rcases List.mem_cons.mp queued with rfl | later
        · exact Or.inr (Or.inr rfl)
        · exact Or.inl later
    · exact Or.inl (queue ▸ queued)
  · exact Or.inr (Or.inl others)
  · cases own

theorem places_dispatch {pre post : List DispatchLoop} {report report' : DrainReport}
    {key : TaskId} (hk : key ≠ task)
    (h : key ∈ heldBy (pre ++ ⟨.dispatching task, report⟩ :: post)) :
    key ∈ heldBy (pre ++ ⟨.pullPending, report'⟩ :: post) := by
  rw [mem_heldBy_middle] at h ⊢
  rcases h with others | own
  · exact Or.inl others
  · exact absurd (Option.some.inj own).symm hk

theorem accounted_move (noPull : ¬ law .pull) (hv : v.station.Accounted v.held)
    (h : Move law v w) : w.station.Accounted w.held := by
  cases h with
  | deed loops h => exact Station.accounted_deed noPull hv h
  | enter pre post s =>
    have held : heldBy (pre ++ .start :: post) = heldBy (pre ++ post) := heldBy_insert rfl
    exact hv.of_held held
  | leave pre post l s free => exact hv.of_held (heldBy_insert free).symm
  | turn pre post l k s free free' same =>
    have held : heldBy (pre ++ k :: post) = heldBy (pre ++ l :: post) :=
      heldBy_replace (free'.trans free.symm)
    exact hv.of_held held
  | pull pre post report s =>
    have callback : ∀ key, s.pull.1.worker.registry.callback? key
        = s.worker.registry.callback? key := fun key => by rw [worker_pull]
    rcases journal_pull s with same | ⟨pulled, journal⟩
    · exact hv.mono callback (fun _ => by rw [same]) (fun _ => by rw [same])
        fun _ _ place => places_pull place
    · exact hv.mono callback
        (fun key => (congrArg _ journal).trans (registrationsOf_other key s.journal rfl))
        (fun key => (congrArg _ journal).trans (invocationsOf_other key s.journal rfl))
        fun _ _ place => places_pull place
  | take pre post report s task body registered =>
    exact hv.take registered (fun key => Registry.callback?_take key) rfl
      fun key hk place => place.imp_right (places_dispatch hk)
  | skip pre post report s task unregistered =>
    refine hv.mono (fun _ => rfl) (fun _ => rfl) (fun _ => rfl) fun key hc place => ?_
    have hk : key ≠ task := fun e => by
      rw [e, unregistered] at hc
      cases hc
    exact place.imp_right (places_dispatch hk)
  | ended loops s task r => exact hv.note rfl rfl
  | finish loops s => exact hv.grow rfl rfl fun _ hk => hk

theorem accounted_step (noPull : ¬ law .pull) (hv : v.station.Accounted v.held)
    (h : Step law v w) : w.station.Accounted w.held := by
  cases h with
  | move h => exact accounted_move noPull hv h
  | elsewhere loops s h later same =>
    have queue : ({ s with host := h } : Station).queue = s.queue := Host.queuedIds_congr same
    exact hv.grow rfl rfl (Station.subset_of_queue_eq queue)

/-- Every registration stays accounted for. -/
theorem accounted_path (noPull : ¬ law .pull) (hv : v.station.Accounted v.held)
    (h : Path law v w) : w.station.Accounted w.held := by
  induction h with
  | refl => exact hv
  | tail _ step ih => exact accounted_step noPull ih step

end View

/-! ### Dormant callbacks -/

namespace Station

variable {law : HostCall → Prop} {s t : Station} {held held' : List TaskId} {task : TaskId}
  {body : Body} {invoked : List Body}

/-- Whether a callback is registered whose id no pull can bring. -/
structure Dormant (task : TaskId) (body : Body) (invoked : List Body) (s : Station)
    (held : List TaskId) : Prop where
  pending : s.worker.registry.callback? task = some body
  unqueued : task ∉ s.queue
  unheld : task ∉ held
  invocations : invocationsOf task s.journal = invoked

theorem not_mem_queue_registerTask {key : TaskId} (hk : task ≠ key) (h : task ∉ s.queue) :
    task ∉ (s.host.registerTask s.context key).1.queuedIds s.context := by
  intro mem
  rcases Host.queuedIds_registerTask s.host s.context key with ⟨-, -, -, queue⟩ | ⟨queue, -⟩
  · rw [queue] at mem
    rcases List.mem_append.mp mem with old | new
    · exact h old
    · exact hk (List.mem_singleton.mp new)
  · rw [queue] at mem
    exact h mem

theorem not_mem_queue_pull (h : task ∉ s.queue) :
    task ∉ (s.host.pull s.context).1.queuedIds s.context := by
  intro mem
  rcases Host.queuedIds_pull s.host s.context with ⟨e, -, queue⟩ | ⟨-, queue | ⟨-, queue⟩⟩
  · rw [queue] at mem
    exact h mem
  · rw [queue] at mem
    exact h (List.mem_of_mem_tail mem)
  · rw [queue] at mem
    exact h mem

theorem dormant_effect (noPush : ¬ law (.push task)) (hs : s.Dormant task body invoked held)
    (h : Effect law s t) : t.Dormant task body invoked held := by
  obtain ⟨pending, unqueued, unheld, invocations⟩ := hs
  cases h with
  | quiet h logger host queue =>
    exact ⟨pending, fun mem => unqueued (queue ▸ mem), unheld, invocations⟩
  | registered key callback h fresh accepted obeys =>
    have absent := Registry.callback?_eq_none_iff.mpr (Registry.refusal?_eq_none_iff.mp fresh).1
    have hk : task ≠ key := fun e => by
      rw [← e, pending] at absent
      cases absent
    have queue := not_mem_queue_registerTask hk unqueued
    rw [accepted] at queue
    refine ⟨?_, queue, unheld, (invocationsOf_other task s.journal rfl).trans invocations⟩
    exact (Registry.callback?_add absent task).trans ((if_neg hk).trans pending)
  | timed delay callback obeys =>
    have queue : (s.setTimeout delay callback).1.queue = s.queue :=
      queue_congr (Host.contexts_setTimeout s.host delay) rfl
    exact ⟨pending, queue ▸ unqueued, unheld, invocations⟩
  | pushed key allowed =>
    have hk : task ≠ key := fun e => noPush (e ▸ allowed)
    exact ⟨pending, not_mem_queue_registerTask hk unqueued, unheld, invocations⟩
  | pulled allowed => exact ⟨pending, not_mem_queue_pull unqueued, unheld, invocations⟩

theorem dormant_deed (noPush : ¬ law (.push task)) (hs : s.Dormant task body invoked held)
    (h : Deed law s t) : t.Dormant task body invoked held := by
  cases h with
  | act a ha => exact dormant_effect noPush hs (effect_act a ha)
  | note o ho =>
    obtain ⟨pending, unqueued, unheld, invocations⟩ := hs
    exact ⟨pending, unqueued, unheld,
      (invocationsOf_other task s.journal ho.silent.2).trans invocations⟩
  | poll =>
    obtain ⟨pending, unqueued, unheld, invocations⟩ := hs
    obtain ⟨registry, context, -, contexts⟩ := s.poll_facts
    exact ⟨by rw [registry]; exact pending, (queue_congr contexts context) ▸ unqueued, unheld,
      invocations⟩

theorem Dormant.of_held (hs : s.Dormant task body invoked held) (h : held' = held) :
    s.Dormant task body invoked held' := h ▸ hs

end Station

namespace View

variable {law : HostCall → Prop} {v w : View} {task : TaskId} {body : Body} {invoked : List Body}

/-- A pull brings no id into play. -/
theorem places_of_pull {pre post : List DispatchLoop} {report : DrainReport} {s : Station}
    (h : task ∈ s.pull.1.queue ∨ task ∈ heldBy (pre ++ ⟨.afterPull s.pull.2, report⟩ :: post)) :
    task ∈ s.queue ∨ task ∈ heldBy (pre ++ ⟨.pullPending, report⟩ :: post) := by
  rw [mem_heldBy_middle] at h ⊢
  rcases h with queued | others | own
  · rcases queue_pull s with ⟨e, -, queue⟩ | ⟨-, queue | ⟨-, queue⟩⟩
    · exact Or.inl (queue ▸ queued)
    · exact Or.inl (List.mem_of_mem_tail (queue ▸ queued))
    · exact Or.inl (queue ▸ queued)
  · exact Or.inr (Or.inl others)
  · rcases queue_pull s with ⟨e, result, -⟩ | ⟨result, -⟩
    · rw [result] at own
      cases own
    · rw [result] at own
      cases hq : s.queue with
      | nil => rw [hq] at own; cases own
      | cons first rest =>
        rw [hq] at own
        exact Or.inl (Option.some.inj own ▸ List.mem_cons_self)

theorem unheld_of_dispatch {pre post : List DispatchLoop} {report report' : DrainReport}
    {key : TaskId} (h : task ∉ heldBy (pre ++ ⟨.dispatching key, report⟩ :: post)) :
    task ∉ heldBy (pre ++ ⟨.pullPending, report'⟩ :: post) := by
  rw [mem_heldBy_middle] at h ⊢
  rintro (others | own)
  · exact h (Or.inl others)
  · cases own

theorem dormant_move (noPush : ¬ law (.push task))
    (hv : v.station.Dormant task body invoked v.held) (h : Move law v w) :
    w.station.Dormant task body invoked w.held := by
  cases h with
  | deed loops h => exact Station.dormant_deed noPush hv h
  | enter pre post s =>
    have held : heldBy (pre ++ .start :: post) = heldBy (pre ++ post) := heldBy_insert rfl
    exact hv.of_held held
  | leave pre post l s free => exact hv.of_held (heldBy_insert free).symm
  | turn pre post l k s free free' same =>
    have held : heldBy (pre ++ k :: post) = heldBy (pre ++ l :: post) :=
      heldBy_replace (free'.trans free.symm)
    exact hv.of_held held
  | pull pre post report s =>
    obtain ⟨pending, unqueued, unheld, invocations⟩ := hv
    have unplaced := fun place => (places_of_pull place).elim unqueued unheld
    refine ⟨by rw [worker_pull]; exact pending, fun mem => unplaced (Or.inl mem),
      fun mem => unplaced (Or.inr mem), ?_⟩
    rcases journal_pull s with same | ⟨pulled, journal⟩
    · exact (congrArg _ same).trans invocations
    · exact (congrArg _ journal).trans ((invocationsOf_other task s.journal rfl).trans invocations)
  | take pre post report s key callback registered =>
    obtain ⟨pending, unqueued, unheld, invocations⟩ := hv
    have hk : task ≠ key := fun e => unheld (mem_heldBy_middle.mpr (Or.inr (congrArg some e.symm)))
    refine ⟨(Registry.callback?_take task).trans ((if_neg hk).trans pending), unqueued,
      unheld_of_dispatch unheld, ?_⟩
    refine (invocationsOf_began task key s.journal (some key) (some key) callback).trans ?_
    rw [if_neg hk, List.append_nil]
    exact invocations
  | skip pre post report s key unregistered =>
    exact ⟨hv.pending, hv.unqueued, unheld_of_dispatch hv.unheld, hv.invocations⟩
  | ended loops s key r =>
    obtain ⟨pending, unqueued, unheld, invocations⟩ := hv
    exact ⟨pending, unqueued, unheld, (invocationsOf_other task s.journal rfl).trans invocations⟩
  | finish loops s => exact ⟨hv.pending, hv.unqueued, hv.unheld, hv.invocations⟩

/-- A callback stays dormant as long as its id is not pushed. -/
theorem dormant_path (noPush : ¬ law (.push task))
    (hv : v.station.Dormant task body invoked v.held) (h : Path law v w) :
    w.station.Dormant task body invoked w.held := by
  induction h with
  | refl => exact hv
  | tail _ step ih =>
    cases step with
    | move h => exact dormant_move noPush ih h
    | elsewhere loops s h later same =>
      have queue : ({ s with host := h } : Station).queue = s.queue := Host.queuedIds_congr same
      exact ⟨ih.pending, queue ▸ ih.unqueued, ih.unheld, ih.invocations⟩

end View
end TaskHost
