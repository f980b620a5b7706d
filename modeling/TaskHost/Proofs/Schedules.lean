/-
# Every schedule of a crew comes to the same report

What becomes of a worker of a pool is told by the workload alone (`Workload.outcome`): it
executes all ids in order if none of them repeats an earlier one, and otherwise its
installation stops at the first that does. A crew is sound if every worker is on the way to
that outcome, on contexts of their own, and the starter has reported the workers that were
joined (`Crew.Sound`). Every turn of a sound crew leaves it sound, with less to be done
(`Crew.Sound.turn`), and as long as it is not over somebody can take a turn
(`Crew.Sound.isSome_turn?`). So schedules are bounded, none of them gets stuck, and all of
them come to the same report.

Key definitions: `Workload.repeat?`, `Workload.outcome`, `Workload.report`,
`Progress.Fits`, `Crew.Sound`, `Crew.effort`.
Key theorems: `Workload.repeatAfter?_cases`, `Progress.Fits.turn`, `Crew.Sound.turn`,
`Crew.Sound.isSome_turn?`, `Crew.Sound.follow`.
-/
import TaskHost.Proofs.Crews
import TaskHost.Proofs.Drains

namespace TaskHost

/-! ### What becomes of a worker -/

namespace Workload

variable {w : Workload} {seen rest : List TaskId}

/-- The first of some ids that repeats one before it, if others stand before all of them. -/
def repeatAfter? (seen : List TaskId) : List TaskId → Option TaskId
  | [] => none
  | task :: rest => if task ∈ seen then some task else repeatAfter? (seen ++ [task]) rest

/-- The first id of a workload that repeats an earlier one. -/
def repeat? (w : Workload) : Option TaskId := repeatAfter? [] w.taskIds

/-- What becomes of a worker that runs the workload. -/
def outcome (w : Workload) (id : WorkerId) : Except PoolError WorkerSummary :=
  match w.repeat? with
  | none => .ok ⟨id, w.taskIds.length, ⟨w.taskIds, [], []⟩⟩
  | some task => .error (.registry (.duplicateTask task))

/-- The report on workers that ran the workload. -/
def report (w : Workload) (ids : List WorkerId) : RunReport :=
  match w.repeat? with
  | none => ⟨ids.map fun id => ⟨id, w.taskIds.length, ⟨w.taskIds, [], []⟩⟩, []⟩
  | some task => ⟨[], ids.map fun id => (id, .registry (.duplicateTask task))⟩

end Workload

/-- A worker that did nothing but register callbacks. -/
def Silent (journal : List Occurrence) : Prop :=
  ∀ o ∈ journal, ∃ task body lost, o = .registered task body lost

/-! ### Workers on the way to their outcome -/

namespace Progress

variable {w : Workload} {c : PoolConfig} {delay : Duration} {index : Nat} {id : WorkerId} {h k : Host}
  {p q : Progress}

/-- The context of a worker that has one and has not ended. -/
def context? : Progress → Option ContextId
  | .installing _ _ clerk => some clerk.worker.bridge.context
  | .draining clerk => some clerk.worker.bridge.context
  | _ => none

/-- What a worker has yet to do, besides the host's timers. -/
def effort (tasks : Nat) : Progress → Nat
  | .waiting => 18 * tasks + 7
  | .installing _ rest clerk => 17 * (clerk.worker.registry.size + rest.length) + rest.length + 6
  | .draining clerk => clerk.desk.effort + 17 * clerk.worker.registry.size + 1
  | .ended _ _ => 0

/-- A worker is on the way to the outcome of the workload, or has come to it. -/
inductive Fits (w : Workload) (delay : Duration) (id : WorkerId) (h : Host) : Progress → Prop
  | waiting : Fits w delay id h .waiting
  | installing {seen rest : List TaskId} {clerk : Clerk} (split : w.taskIds = seen ++ rest)
      (first : w.repeat? = Workload.repeatAfter? seen rest)
      (installed : Workload.Installed ⟨some id⟩ delay seen (clerk.at h).station)
      (free : clerk.desk = .empty) (silent : Silent clerk.journal) :
      Fits w delay id h (.installing delay rest clerk)
  | draining {clerk : Clerk} (distinct : w.repeat? = none)
      (drains : Workload.Drains ⟨some id⟩ delay w.taskIds (clerk.at h)) :
      Fits w delay id h (.draining clerk)
  | ended {journal : List Occurrence} (silent : w.repeat? ≠ none → Silent journal) :
      Fits w delay id h (.ended journal (w.outcome id))

theorem Fits.known (fits : Fits w delay id h p) {key : ContextId} (own : p.context? = some key) :
    (h.context? key).isSome := by
  cases fits with
  | waiting => cases own
  | installing split first installed free silent =>
    obtain rfl := Option.some.inj own
    exact installed.faultless.known
  | draining distinct drains =>
    obtain rfl := Option.some.inj own
    exact drains.known
  | ended silent => cases own

theorem Fits.of_ended {journal : List Occurrence} {outcome : Except PoolError WorkerSummary}
    (fits : Fits w delay id h (.ended journal outcome)) :
    outcome = w.outcome id ∧ (w.repeat? ≠ none → Silent journal) := by
  cases fits with
  | ended silent => exact ⟨rfl, silent⟩

theorem Fits.elsewhere (fits : Fits w delay id h p) {key : ContextId} (goes : h.Goes key k)
    (apart : p.context? ≠ some key) : Fits w delay id k p := by
  have same {own : ContextId} (mine : p.context? = some own) : k.context? own = h.context? own :=
    goes.others own fun e => apart (e ▸ mine)
  cases fits with
  | waiting => exact .waiting
  | installing split first installed free silent =>
    exact .installing split first (installed.elsewhere goes.toLater (same rfl)) free silent
  | draining distinct drains =>
    exact .draining distinct (drains.elsewhere goes.toLater goes.onward (same rfl))
  | ended silent => exact .ended silent

/-- A turn of a worker: the host goes on for one context, which is the worker's or is made
for it, and less is left to be done. -/
structure Nears (tasks : Nat) (h : Host) (p : Progress) (k : Host) (q : Progress) : Prop where
  goes : ∃ key, h.Goes key k ∧ (p.context? = some key ∨ h.context? key = none)
    ∧ (q.context? = some key ∨ q.context? = none)
  closer : q.effort tasks + 2 * k.timers.size < p.effort tasks + 2 * h.timers.size

/-- A worker makes its context. -/
theorem nears_start (index : Nat) (id : WorkerId)
    (delayed : Duration.ofMillis c.workload.delayMs = .ok delay) (smooth : h.Smooth) :
    Fits c.workload delay id (start c index id h).1 (start c index id h).2
      ∧ Nears c.workload.taskIds.length h .waiting (start c index id h).1 (start c index id h).2 := by
  let d : ContextDescriptor := ⟨s!"worker-{index}", some id⟩
  let handle : ContextHandle := ⟨.spawned h.contexts.length, some id, s!"worker-{index}"⟩
  have spawned : h.spawn d = ((h.spawn d).1, .ok handle) := by
    unfold Host.spawn
    rw [if_neg (by rw [smooth.outages]; decide)]
    rfl
  have goes := h.goes_spawn d
  have timers : (h.spawn d).1.timers = h.timers :=
    (Host.Request.still_serve h (.spawn d) rfl).timers
  let clerk := Clerk.new handle (some c.logLevel)
  have new : Session.IsNew clerk.worker handle := ⟨rfl, rfl, rfl⟩
  have installed : Workload.Installed ⟨some id⟩ delay [] (clerk.at (h.spawn d).1).station :=
    Workload.installed_nil smooth.faults smooth.outages spawned new
  have begins : start c index id h
      = ((h.spawn d).1, .installing delay c.workload.taskIds clerk) := by
    rw [start, delayed, show h.spawn ⟨s!"worker-{index}", some id⟩ = _ from spawned]
  rw [begins]
  have silent : Silent clerk.journal := fun o ho => by cases ho
  refine ⟨.installing rfl rfl installed rfl silent, ⟨_, goes, Or.inr ?_, Or.inl rfl⟩, ?_⟩
  · exact List.getElem?_eq_none (Nat.le_refl _)
  · have none : clerk.worker.registry.size = 0 := rfl
    simp only [effort, timers, none]
    omega

theorem silent_register {s : Station} (silent : Silent s.journal) (task : TaskId) (body : Body) :
    Silent (s.register task body).1.journal := by
  rcases s.register_cases task body with ⟨e, -, done⟩ | ⟨-, k, e, done⟩ | ⟨-, k, lost, done⟩
  all_goals rw [done]
  · exact silent
  · exact silent
  · intro o ho
    rcases List.mem_append.mp ho with old | new
    · exact silent o old
    · exact ⟨task, body, lost, List.mem_singleton.mp new⟩

/-- A worker registers the next id, or finds that it repeats an earlier one. -/
theorem nears_register {seen rest : List TaskId} {task : TaskId} {clerk : Clerk}
    (split : w.taskIds = seen ++ task :: rest)
    (first : w.repeat? = Workload.repeatAfter? seen (task :: rest))
    (installed : Workload.Installed ⟨some id⟩ delay seen (clerk.at h).station)
    (free : clerk.desk = .empty) (silent : Silent clerk.journal) :
    Fits w delay id (register h delay task rest clerk).1 (register h delay task rest clerk).2
      ∧ Nears w.taskIds.length h (.installing delay (task :: rest) clerk)
        (register h delay task rest clerk).1 (register h delay task rest clerk).2 := by
  let s := (clerk.at h).station
  let body := Workload.taskBody ⟨some id⟩ delay task
  have goes := s.goes_register task body
  have timers := (s.still_register task body).timers
  have silent' := silent_register (s := s) silent task body
  have kept := bridge_register s task body
  have who : Workload.taskBody clerk.worker.identity delay task = body := by
    show Workload.taskBody s.worker.identity delay task = body
    rw [installed.who]
  by_cases again : task ∈ seen
  · have stops : w.repeat? = some task := first.trans (if_pos again)
    have refused := installed.register_again again body
    have outcome : w.outcome id = .error (.registry (.duplicateTask task)) := by
      unfold Workload.outcome
      rw [stops]
    have stopped : register h delay task rest clerk = (h, .ended clerk.journal (w.outcome id)) := by
      unfold register
      rw [who, refused, outcome]
      rfl
    rw [stopped]
    refine ⟨.ended fun _ => silent, ⟨_, .refl _ _, Or.inl rfl, Or.inr rfl⟩, ?_⟩
    simp only [effort, List.length_cons]
    show 0 + 2 * h.timers.size < _
    omega
  · have goesOn : w.repeat? = Workload.repeatAfter? (seen ++ [task]) rest := first.trans (if_neg again)
    obtain ⟨t, registered, more, -⟩ := installed.register_fresh again
    rw [registered] at goes timers silent' kept
    have done : register h delay task rest clerk
        = (t.host, .installing delay rest ⟨t.worker, t.journal, clerk.desk⟩) := by
      unfold register
      rw [who, registered]
      rfl
    rw [done]
    have shift : w.taskIds = (seen ++ [task]) ++ rest := by rw [split]; simp
    have context : t.context = s.context := congrArg Bridge.context kept
    refine ⟨.installing shift goesOn more free silent', ⟨_, goes, Or.inl rfl, Or.inl ?_⟩, ?_⟩
    · exact congrArg some context
    · have before : clerk.worker.registry.size = seen.length := installed.size
      have after : t.worker.registry.size = seen.length + 1 := by
        rw [more.size, List.length_append, List.length_singleton]
      show 17 * (t.worker.registry.size + rest.length) + rest.length + 6 + 2 * t.host.timers.size
        < 17 * (clerk.worker.registry.size + (rest.length + 1)) + (rest.length + 1) + 6
          + 2 * h.timers.size
      have same : t.host.timers.size = h.timers.size := congrArg TimerQueue.size timers
      omega

/-- A worker whose ids are all registered begins to drain. -/
theorem nears_drain {seen : List TaskId} {clerk : Clerk} (split : w.taskIds = seen ++ [])
    (first : w.repeat? = Workload.repeatAfter? seen [])
    (installed : Workload.Installed ⟨some id⟩ delay seen (clerk.at h).station)
    (free : clerk.desk = .empty) :
    Fits w delay id h (.draining { clerk with desk := clerk.desk.begin .drain })
      ∧ Nears w.taskIds.length h (.installing delay [] clerk)
        h (.draining { clerk with desk := clerk.desk.begin .drain }) := by
  obtain rfl : w.taskIds = seen := split.trans (List.append_nil seen)
  obtain ⟨worker, journal, desk⟩ := clerk
  obtain rfl : desk = .empty := free
  refine ⟨.draining first (.beginning installed), ⟨_, .refl _ _, Or.inl rfl, Or.inl rfl⟩, ?_⟩
  have begun : (Desk.empty.begin .drain).effort = 4 := rfl
  simp only [effort, begun, List.length_nil]
  omega

/-- A worker that has not come to its outcome can take a turn; it then fits still, and there is
less to be done. -/
theorem Fits.turn (fits : Fits c.workload delay id h p) (index : Nat)
    (delayed : Duration.ofMillis c.workload.delayMs = .ok delay) (smooth : h.Smooth) (owned : h.Owned) :
    (∃ journal, p = .ended journal (c.workload.outcome id))
      ∨ ∃ k q, p.turn? c index id h = some (k, q) ∧ Fits c.workload delay id k q
        ∧ Nears c.workload.taskIds.length h p k q := by
  cases fits with
  | waiting =>
    obtain ⟨fits, nears⟩ := nears_start index id delayed smooth
    exact Or.inr ⟨_, _, rfl, fits, nears⟩
  | @installing seen rest clerk split first installed free silent =>
    refine Or.inr ?_
    cases rest with
    | nil =>
      obtain ⟨fits, nears⟩ := nears_drain split first installed free
      exact ⟨_, _, rfl, fits, nears⟩
    | cons task rest =>
      obtain ⟨fits, nears⟩ := nears_register split first installed free silent
      exact ⟨_, _, rfl, fits, nears⟩
  | @draining clerk distinct drains =>
    refine Or.inr ?_
    rcases drains.turn owned with emptied | ⟨t, nears, drains'⟩
    · obtain ⟨worker, journal, desk⟩ := clerk
      obtain rfl : desk = Workload.draining [] .drained c.workload.taskIds := emptied
      have outcome : c.workload.outcome id
          = .ok ⟨id, c.workload.taskIds.length, ⟨c.workload.taskIds, [], []⟩⟩ := by
        unfold Workload.outcome
        rw [distinct]
      refine ⟨h, .ended journal (c.workload.outcome id), ?_, .ended fun some => absurd distinct some,
        ⟨_, .refl _ _, Or.inl rfl, Or.inr rfl⟩, ?_⟩
      · rw [outcome]
        rfl
      · simp only [effort]
        omega
    · have busy : clerk.desk.agenda.isEmpty = false := by
        have turned := nears.turned
        unfold Shift.turn? at turned
        cases agenda : clerk.desk.agenda with
        | nil =>
          rw [show (clerk.at h).desk.agenda = [] from agenda] at turned
          cases turned
        | cons chore rest => rfl
      refine ⟨t.station.host, .draining t.clerk, ?_, .draining distinct drains',
        ⟨_, nears.goes, Or.inl rfl, Or.inl ?_⟩, ?_⟩
      · show (if clerk.desk.agenda.isEmpty then _ else (clerk.at h).turn?.map _) = _
        rw [busy, nears.turned]
        rfl
      · exact congrArg some (Shift.keeps_turn nears.turned).context
      · have closer := nears.closer
        simp only [Shift.effort, Station.effort] at closer
        show t.desk.effort + 17 * t.station.worker.registry.size + 1 + 2 * t.station.host.timers.size
          < clerk.desk.effort + 17 * clerk.worker.registry.size + 1 + 2 * h.timers.size
        have : (clerk.at h).desk.effort = clerk.desk.effort := rfl
        have : (clerk.at h).station.worker.registry.size = clerk.worker.registry.size := rfl
        have : (clerk.at h).station.host.timers.size = h.timers.size := rfl
        omega
  | ended silent => exact Or.inl ⟨_, rfl⟩

end Progress

/-! ### Sound crews -/

/-- Two workers that have no context in common. -/
def Progress.Apart (p q : WorkerId × Progress) : Prop :=
  ∀ key, p.2.context? = some key → q.2.context? ≠ some key

namespace Crew

variable {c : PoolConfig} {delay : Duration} {ids : List WorkerId} {crew next : Crew} {a : Actor}

/-- Every worker is on the way to its outcome, in its own context; those that were joined have
come to it, and are reported. -/
structure Sound (c : PoolConfig) (delay : Duration) (ids : List WorkerId) (crew : Crew) : Prop where
  smooth : crew.host.Smooth
  owned : crew.host.Owned
  members : crew.members.map Prod.fst = ids
  fits : ∀ m ∈ crew.members, m.2.Fits c.workload delay m.1 crew.host
  apart : crew.members.Pairwise Progress.Apart
  bound : crew.joined ≤ crew.members.length
  ended : ∀ i < crew.joined, ∃ id journal,
    crew.members[i]? = some (id, .ended journal (c.workload.outcome id))
  report : crew.report = c.workload.report (ids.take crew.joined)

/-- What a crew has yet to do. -/
def effort (tasks : Nat) (crew : Crew) : Nat :=
  (crew.members.map fun m => m.2.effort tasks).sum + 2 * crew.host.timers.size
    + (crew.members.length - crew.joined)

theorem exists_append_of_getElem? {α : Type} {l : List α} {i : Nat} {m : α}
    (member : l[i]? = some m) : ∃ before after, l = before ++ m :: after ∧ i = before.length := by
  obtain ⟨bound, rfl⟩ := List.getElem?_eq_some_iff.mp member
  exact ⟨l.take i, l.drop (i + 1), by simp, by simp; omega⟩

/-- A crew of which one worker has taken a turn. -/
theorem Sound.member {before after : List (WorkerId × Progress)} {id : WorkerId} {p q : Progress}
    {h k : Host} {joined : Nat} {report : RunReport}
    (hs : Sound c delay ids ⟨h, before ++ (id, p) :: after, joined, report⟩)
    (fits : q.Fits c.workload delay id k)
    (nears : Progress.Nears c.workload.taskIds.length h p k q)
    (going : ∀ journal outcome, p ≠ .ended journal outcome) :
    Sound c delay ids ⟨k, before ++ (id, q) :: after, joined, report⟩
      ∧ effort c.workload.taskIds.length ⟨k, before ++ (id, q) :: after, joined, report⟩
        < effort c.workload.taskIds.length ⟨h, before ++ (id, p) :: after, joined, report⟩ := by
  obtain ⟨key, goes, mine, mine'⟩ := nears.goes
  obtain ⟨front, rest, across⟩ := List.pairwise_append.mp hs.apart
  obtain ⟨first, back⟩ := List.pairwise_cons.mp rest
  -- the context of the turn is nobody else's
  have others : ∀ m ∈ before ++ after, m.2.context? ≠ some key := by
    intro m hm own
    rcases mine with mine | new
    · rcases List.mem_append.mp hm with hm | hm
      · exact across m hm (id, p) List.mem_cons_self key own mine
      · exact first m hm key mine own
    · have there : m ∈ before ++ (id, p) :: after := by
        rcases List.mem_append.mp hm with hm | hm <;> simp [hm]
      have known := (hs.fits m there).known own
      rw [new] at known
      cases known
  have away : ∀ m ∈ before ++ after, Progress.Apart m (id, q) ∧ Progress.Apart (id, q) m := by
    intro m hm
    refine ⟨fun own hown hq => ?_, fun own hq hown => ?_⟩
    all_goals
      rcases mine' with same | none
      · rw [same] at hq
        exact others m hm (hown.trans hq.symm)
      · rw [none] at hq
        cases hq
  have smooth := goes.smooth hs.smooth
  have owned := goes.onward.owned hs.owned
  refine ⟨⟨smooth, owned, ?_, ?_, ?_, ?_, ?_, hs.report⟩, ?_⟩
  · rw [← hs.members]
    simp
  · intro m hm
    rcases List.mem_append.mp hm with hm | hm
    · have there : m ∈ before ++ (id, p) :: after := List.mem_append_left _ hm
      exact (hs.fits m there).elsewhere goes (others m (List.mem_append_left _ hm))
    · rcases List.mem_cons.mp hm with rfl | hm
      · exact fits
      · have there : m ∈ before ++ (id, p) :: after := by simp [hm]
        exact (hs.fits m there).elsewhere goes (others m (List.mem_append_right _ hm))
  · refine List.pairwise_append.mpr ⟨front, List.pairwise_cons.mpr ⟨?_, back⟩, ?_⟩
    · exact fun m hm => (away m (List.mem_append_right _ hm)).2
    · intro m hm m' hm'
      rcases List.mem_cons.mp hm' with rfl | hm'
      · exact (away m (List.mem_append_left _ hm)).1
      · exact across m hm m' (List.mem_cons_of_mem _ hm')
  · have bound := hs.bound
    simp only [List.length_append, List.length_cons] at bound ⊢
    exact bound
  · intro i hi
    obtain ⟨id', journal, there⟩ := hs.ended i hi
    refine ⟨id', journal, ?_⟩
    have other : i ≠ before.length := by
      rintro rfl
      simp only [List.getElem?_append_right (Nat.le_refl _), Nat.sub_self, List.getElem?_cons_zero,
        Option.some.injEq, Prod.mk.injEq] at there
      exact going _ _ there.2
    have replaced : before ++ (id, q) :: after
        = (before ++ (id, p) :: after).set before.length (id, q) := by simp
    rw [replaced, List.getElem?_set_ne other.symm]
    exact there
  · have closer := nears.closer
    simp only [effort, List.map_append, List.map_cons, List.sum_append, List.sum_cons,
      List.length_append, List.length_cons]
    omega

/-- The report when one more worker is joined. -/
theorem report_join {w : Workload} {n : Nat} {id : WorkerId} (place : ids[n]? = some id)
    (reported : crew.report = w.report (ids.take n)) :
    (crew.join id (w.outcome id)).report = w.report (ids.take (n + 1)) := by
  have more : ids.take (n + 1) = ids.take n ++ [id] := by
    rw [List.take_add_one, place]
    rfl
  unfold Workload.report at reported
  unfold Workload.outcome Workload.report
  cases again : w.repeat? with
  | none =>
    rw [again] at reported
    simp only [join, reported, more, List.map_append, List.map_cons, List.map_nil]
  | some task =>
    rw [again] at reported
    simp only [join, reported, more, List.map_append, List.map_cons, List.map_nil]

theorem join_eq (crew : Crew) (id : WorkerId) (outcome : Except PoolError WorkerSummary) :
    ∃ line isError, (crew.join id outcome).host = crew.host.print line isError
      ∧ (crew.join id outcome).members = crew.members
      ∧ (crew.join id outcome).joined = crew.joined + 1 := by
  cases outcome with
  | ok summary => exact ⟨_, _, rfl, rfl, rfl⟩
  | error e => exact ⟨_, _, rfl, rfl, rfl⟩

/-- A crew of which one more worker was joined. -/
theorem Sound.join (hs : crew.Sound c delay ids) {id : WorkerId} {journal : List Occurrence}
    {outcome : Except PoolError WorkerSummary}
    (member : crew.members[crew.joined]? = some (id, .ended journal outcome)) :
    (crew.join id outcome).Sound c delay ids
      ∧ (crew.join id outcome).effort c.workload.taskIds.length
        < crew.effort c.workload.taskIds.length := by
  have fits : Progress.Fits c.workload delay id crew.host (.ended journal outcome) :=
    hs.fits _ (List.mem_of_getElem? member)
  obtain ⟨rfl, -⟩ := fits.of_ended
  have bound := (List.getElem?_eq_some_iff.mp member).1
  have place : ids[crew.joined]? = some id := by
    rw [← hs.members, List.getElem?_map, member]
    rfl
  have reported := report_join place hs.report
  obtain ⟨line, isError, host, members, joined⟩ := crew.join_eq id (c.workload.outcome id)
  have goes (key : ContextId) : crew.host.Goes key (crew.join id (c.workload.outcome id)).host := by
    rw [host]
    exact Host.goes_print key _ _ _
  refine ⟨⟨?_, ?_, ?_, ?_, ?_, ?_, ?_, ?_⟩, ?_⟩
  · exact (goes (.spawned 0)).smooth hs.smooth
  · exact (goes (.spawned 0)).onward.owned hs.owned
  · rw [members, hs.members]
  · intro m hm
    rw [members] at hm
    -- printing is on behalf of no context, so of none that a worker has
    refine (hs.fits m hm).elsewhere (goes (.spawned crew.host.contexts.length)) fun own => ?_
    have known := (hs.fits m hm).known own
    simp [Host.context?] at known
  · rw [members]
    exact hs.apart
  · rw [members, joined]
    exact bound
  · rw [members, joined]
    intro i hi
    rcases Nat.lt_succ_iff_lt_or_eq.mp hi with old | rfl
    · exact hs.ended i old
    · exact ⟨id, journal, member⟩
  · rw [joined]
    exact reported
  · have timers : (crew.join id (c.workload.outcome id)).host.timers = crew.host.timers := by
      rw [host]
      rfl
    simp only [effort, members, joined, timers]
    omega

variable (delayed : Duration.ofMillis c.workload.delayMs = .ok delay)
include delayed

/-- A turn leaves a crew sound, and less to be done. -/
theorem Sound.turn (hs : crew.Sound c delay ids) (turned : crew.turn? c a = some next) :
    next.Sound c delay ids
      ∧ next.effort c.workload.taskIds.length < crew.effort c.workload.taskIds.length := by
  cases a with
  | starter =>
    simp only [turn?] at turned
    split at turned
    · next id journal outcome member =>
      obtain rfl := Option.some.inj turned
      exact hs.join member
    · cases turned
  | worker i =>
    simp only [turn?] at turned
    split at turned
    · next id p member =>
      obtain ⟨⟨k, q⟩, moved, rfl⟩ := Option.map_eq_some_iff.mp turned
      obtain ⟨h, members, joined, report⟩ := crew
      obtain ⟨before, after, rfl, rfl⟩ := exists_append_of_getElem? member
      have fits : p.Fits c.workload delay id h := hs.fits (id, p) (by simp)
      rcases fits.turn before.length delayed hs.smooth hs.owned with ⟨journal, rfl⟩
        | ⟨k', q', same, fits', nears⟩
      · cases moved
      · obtain ⟨rfl, rfl⟩ := Prod.mk.inj (Option.some.inj (same.symm.trans moved))
        have going : ∀ journal outcome, p ≠ .ended journal outcome := by
          rintro journal outcome rfl
          cases moved
        simpa using hs.member fits' nears going
    · cases turned

/-- In a sound crew that is not over somebody can take a turn. -/
theorem Sound.isSome_turn? (hs : crew.Sound c delay ids) :
    crew.Over ∨ ∃ a, (crew.turn? c a).isSome := by
  rcases Nat.lt_or_ge crew.joined crew.members.length with left | all
  · refine Or.inr ?_
    obtain ⟨⟨id, p⟩, member⟩ : ∃ m, crew.members[crew.joined]? = some m :=
      ⟨_, List.getElem?_eq_getElem left⟩
    have fits : p.Fits c.workload delay id crew.host := hs.fits _ (List.mem_of_getElem? member)
    rcases fits.turn crew.joined delayed hs.smooth hs.owned with ⟨journal, rfl⟩
      | ⟨k, q, turned, -, -⟩
    · refine ⟨.starter, ?_⟩
      simp only [turn?, member]
      rfl
    · refine ⟨.worker crew.joined, ?_⟩
      simp only [turn?, member, turned]
      rfl
  · exact Or.inl (Nat.le_antisymm hs.bound all)

/-- A schedule leaves a crew sound, and it is no longer than what was to be done. -/
theorem Sound.follow (hs : crew.Sound c delay ids) {actors : List Actor}
    (followed : crew.follow c actors = some next) :
    next.Sound c delay ids
      ∧ actors.length + next.effort c.workload.taskIds.length
        ≤ crew.effort c.workload.taskIds.length := by
  induction actors generalizing crew with
  | nil =>
    obtain rfl := Option.some.inj followed
    exact ⟨hs, by simp⟩
  | cons a rest ih =>
    obtain ⟨middle, turned, followed⟩ := Option.bind_eq_some_iff.mp followed
    obtain ⟨sound, less⟩ := hs.turn delayed turned
    obtain ⟨sound', more⟩ := ih sound followed
    refine ⟨sound', ?_⟩
    rw [List.length_cons]
    omega

end Crew
end TaskHost
