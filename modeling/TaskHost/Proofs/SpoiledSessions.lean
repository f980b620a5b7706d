/-
# Sessions with spoiled callbacks

In a session each operation of a worker comes to its end before the next command. What it
comes to with spoiled callbacks follows from the turns that it takes
(`Station.Between.settle`, `Station.Between.step`, `Station.Between.run`): the same timers are
run, the same ids are pulled, the same callbacks are run, and the same is left behind. So two
sessions that are given the same commands stay the same (`Session.Spoiled.exec`), and the
replies tell of the failures only: a settlement counts the timers among them, and in a report
the tasks have moved.

Key definitions: `Station.Between`, `Diary.Spoiled`, `Session.Spoiled`,
`Session.Command.Spoiled`, `Session.Command.Tells`.
Key theorems: `Station.Between.complete`, `Session.Spoiled.work`, `Session.Spoiled.exec`,
`Session.failures_stay_apart`.
-/
import TaskHost.Proofs.SpoiledFloors

namespace TaskHost

/-! ### Accounts of one operation -/

namespace Account

variable {i k : Nat} {B : Books} {E : List Account}

/-- The tasks that failed. -/
def tasks (E : List Account) : List (TaskId × String) := E.filterMap fun a => a.failure.task?

/-- The number of timers that failed. -/
def timers (E : List Account) : Nat := (E.map failure).countP Failure.isTimer

/-- The account with another loop. -/
def atLoop (loop : Option Nat) (a : Account) : Account := { a with loop := loop }

/-- All tasks are reported by the reporter. -/
theorem moved_reporter (own : ∀ a ∈ E, a.By i B) (reporter : B.reporter = some k) :
    moved k E = tasks E := by
  induction E with
  | nil => rfl
  | cons a rest ih =>
    have others := ih fun b member => own b (List.mem_cons_of_mem a member)
    unfold moved tasks at others ⊢
    rw [List.filterMap_cons, ← others, List.filter_cons]
    rcases (own a List.mem_cons_self).loop with timer | loop
    · have untold := Failure.task?_timer timer
      rw [untold]
      split
      · rw [List.filterMap_cons, untold]
      · rfl
    · rw [loop, reporter, if_pos (by simp), List.filterMap_cons]

theorem moved_atLoop_self (k : Nat) (E : List Account) :
    moved k (E.map (atLoop (some k))) = tasks E := by
  simp [moved, tasks, List.filter_map, List.filterMap_map, Function.comp_def, atLoop]

theorem moved_atLoop_other {loop : Option Nat} (other : loop ≠ some k) (E : List Account) :
    moved k (E.map (atLoop loop)) = [] := by
  simp [moved, List.filter_map, Function.comp_def, atLoop, other]

theorem entries_atLoop (loop : Option Nat) (E : List Account) :
    entries (E.map (atLoop loop)) = entries E := by
  simp [entries, atLoop]

theorem failures_atLoop (loop : Option Nat) (E : List Account) :
    (E.map (atLoop loop)).map failure = E.map failure := by
  simp [atLoop]

theorem timers_atLoop (loop : Option Nat) (E : List Account) :
    timers (E.map (atLoop loop)) = timers E := by
  rw [timers, failures_atLoop, timers]

theorem tasks_atLoop (loop : Option Nat) (E : List Account) :
    tasks (E.map (atLoop loop)) = tasks E := by
  simp [tasks, List.filterMap_map, Function.comp_def, atLoop]

end Account

/-! ### Stations between operations -/

namespace Station

variable {i : Nat} {B : Books} {L : Ledger} {s s' u u' : Station}

/-- The same station between operations: no callback is running, and all failures are in
the books. -/
def Between (B : Books) (s s' : Station) : Prop :=
  ∃ broke, s.Spoiled (B.ledger none broke) s' ∧ broke.Perm B.told

/-- The host has the same timers for the bridge. -/
theorem Spoiled.answered (spoiled : s.Spoiled L s') (answered : s.Answered) : s'.Answered := by
  have waiting := spoiled.worker.bridge.waiting
  have hosts : ∀ σ, s.host.Answers σ → s'.host.Answers σ := by
    intro σ answers
    rw [spoiled.host.same]
    cases σ with
    | cancelled => trivial
    | scheduled order => exact answers
  unfold Answered at answered ⊢
  generalize s.worker.bridge.timers.waiting = l at waiting answered
  generalize s'.worker.bridge.timers.waiting = l' at waiting
  induction waiting with
  | nil => exact fun w member => by cases member
  | @cons w w' rest rest' timer others ih =>
    intro v member
    rcases List.mem_cons.mp member with rfl | later
    · rw [timer.signal]
      exact hosts _ (answered w List.mem_cons_self)
    · exact ih (fun x among => answered x (List.mem_cons_of_mem w among)) v later

theorem Between.answered (between : Between B s s') (answered : s.Answered) : s'.Answered := by
  obtain ⟨broke, stations, -⟩ := between
  exact stations.answered answered

theorem between_free {v v' : Shift} (spoiled : Shift.Spoiled B v v') (free : v.desk.agenda = []) :
    Between B v.station v'.station ∧ Desk.Spoiled B v.desk v'.desk := by
  obtain @⟨active, broke, due, t, t', d, d', stations, agenda, desks, reckoned⟩ := spoiled
  obtain ⟨-, rfl, rfl⟩ := Agenda.Spoiled.free (free ▸ agenda)
  rw [List.append_nil] at reckoned
  exact ⟨⟨broke, stations, reckoned⟩, desks⟩

/-- An operation comes to its end at both stations. -/
theorem Between.complete (between : Between B s s') {d d' e e' : Desk} {chores : List Chore}
    (desks : Desk.Spoiled B d d') (free : d.agenda = []) (free' : d'.agenda = [])
    (agenda : Agenda.Spoiled none [] chores chores)
    (turns : Shift.Turns ⟨s, d.plan chores⟩ ⟨u, e⟩)
    (turns' : Shift.Turns ⟨s', d'.plan chores⟩ ⟨u', e'⟩) (ended : e.agenda = [])
    (ended' : e'.agenda = []) :
    ∃ E : List Account, (∀ a ∈ E, a.By i B) ∧ Between (B.add E) u u'
      ∧ Desk.Spoiled (B.add E) e e' := by
  obtain ⟨broke, stations, reckoned⟩ := between
  have planned : Agenda.Spoiled none [] (d.plan chores).agenda (d'.plan chores).agenda := by
    simp only [Desk.plan, free, free', List.append_nil]
    exact agenda
  have shifts : Shift.Spoiled B ⟨s, d.plan chores⟩ ⟨s', d'.plan chores⟩ := by
    refine .of stations planned (desks.plan chores chores) ?_
    rw [List.append_nil]
    exact reckoned
  obtain ⟨E, own, reached⟩ := Shift.turns_related (fun _ _ => Shift.advances_turn (i := i))
    shifts.advances turns turns' (Shift.turn?_free u ended) (Shift.turn?_free u' ended')
  obtain ⟨after, ends⟩ := between_free reached ended
  exact ⟨E, own, after, ends⟩

/-- Settling comes to the same, and counts the timers that failed. -/
theorem Between.settle (between : Between B s s') (answered : s.Answered)
    (moved : B.moved = fun _ => []) (reporter : B.reporter = none) (counted : B.counted = 0)
    (origin : Option TaskId) :
    ∃ E : List Account, (∀ a ∈ E, a.By i B)
      ∧ Between (B.add E) (s.settle origin).1 (s'.settle origin).1
      ∧ (s'.settle origin).2 = (s.settle origin).2 + Account.timers E := by
  have desks : Desk.Spoiled B .empty .empty := by
    refine ⟨.nil, rfl, ?_, rfl, fun k _ => ?_, reporter.symm⟩
    · rw [counted]
      rfl
    · rw [moved]
  obtain ⟨E, own, after, ends⟩ := between.complete (i := i) desks rfl rfl
    (Agenda.spoiled_singleton (.settle origin .looking)) (Shift.turns_settle origin answered .empty)
    (Shift.turns_settle origin (between.answered answered) .empty) rfl rfl
  have failures := ends.failures
  simp only [Desk.addFailures, Desk.empty, Books.add, counted, Nat.zero_add] at failures
  exact ⟨E, own, after, failures⟩

end Station

namespace DispatchLoop

variable {i : Nat} {B : Books} {s s' : Station} {l l' : DispatchLoop}

/-- The books of a worker whose only loop is in hand. -/
structure Opens (B : Books) : Prop where
  moved : ∀ k, k ≠ 0 → B.moved k = []
  reporter : B.reporter = some 0
  counted : B.counted = 0

theorem Spoiled.desk (loop : l.Spoiled (B.moved 0) l') (opens : Opens B) :
    Desk.Spoiled B (.withLoop l) (.withLoop l') := by
  refine ⟨fun k => ?_, rfl, ?_, rfl, fun k beyond => opens.moved k ?_, opens.reporter.symm⟩
  · cases k with
    | zero => exact .some loop
    | succ k => exact .none
  · rw [opens.counted]
    rfl
  · exact Nat.ne_of_gt beyond

/-- A step comes to the same, and the loop stays the same but for tasks that failed. -/
theorem Spoiled.step (loop : l.Spoiled (B.moved 0) l') (between : Station.Between B s s')
    (answered : s.Answered) (opens : Opens B) :
    ∃ E : List Account, (∀ a ∈ E, a.By i B)
      ∧ Station.Between (B.add E) (l.step s).2.1 (l'.step s').2.1
      ∧ (l.step s).1.Spoiled ((B.add E).moved 0) (l'.step s').1
      ∧ (l'.step s').2.2 = (l.step s).2.2 := by
  cases stepped : l.step s with
  | mk k rest =>
    obtain ⟨u, r⟩ := rest
    cases stepped' : l'.step s' with
    | mk k' rest' =>
      obtain ⟨u', r'⟩ := rest'
      obtain ⟨n, turns⟩ := Shift.turns_step answered (d := .withLoop l) rfl stepped
      obtain ⟨n', turns'⟩ :=
        Shift.turns_step (between.answered answered) (d := .withLoop l') rfl stepped'
      obtain ⟨E, own, after, ends⟩ := between.complete (i := i) (loop.desk opens) rfl rfl
        (Agenda.spoiled_singleton (.step false)) turns turns' (by cases r <;> rfl)
        (by cases r' <;> rfl)
      refine ⟨E, own, after, ?_⟩
      have loops := ends.loops 0
      have endings := ends.endings
      cases r with
      | ok done =>
        cases r' with
        | ok done' =>
          cases loops with
          | some loops => exact ⟨loops, rfl⟩
        | error e' => cases endings
      | error e =>
        cases r' with
        | ok done' => cases endings
        | error e' =>
          obtain ⟨-, rfl, -⟩ := View.step_eq_error stepped
          obtain ⟨-, rfl, -⟩ := View.step_eq_error stepped'
          cases endings
          cases loops with
          | some loops => exact ⟨loops, rfl⟩

/-- How a run of a loop ended, with tasks that failed. -/
inductive Ends (moved : List (TaskId × String)) :
    Except DispatchError DrainReport → Except DispatchError DrainReport → Prop
  | drained {r r' : DrainReport} (report : r.Spoiled moved r') : Ends moved (.ok r) (.ok r')
  | stopped (e : DispatchError) : Ends moved (.error e) (.error e)

/-- A run comes to the same, and reports the same but for tasks that failed. -/
theorem Spoiled.run (loop : l.Spoiled (B.moved 0) l') (between : Station.Between B s s')
    (answered : s.Answered) (opens : Opens B) :
    ∃ E : List Account, (∀ a ∈ E, a.By i B) ∧ Station.Between (B.add E) (l.run s).1 (l'.run s').1
      ∧ Ends ((B.add E).moved 0) (l.run s).2 (l'.run s').2 := by
  obtain ⟨n, k, turns, drained⟩ := Shift.turns_run answered (d := .withLoop l) rfl
  obtain ⟨n', k', turns', drained'⟩ :=
    Shift.turns_run (between.answered answered) (d := .withLoop l') rfl
  generalize (l.run s).2 = r at turns drained ⊢
  generalize (l'.run s').2 = r' at turns' drained' ⊢
  obtain ⟨E, own, after, ends⟩ := between.complete (i := i) (loop.desk opens) rfl rfl
    (Agenda.spoiled_singleton (.step true)) turns turns' (by cases r <;> rfl) (by cases r' <;> rfl)
  refine ⟨E, own, after, ?_⟩
  have loops := ends.loops 0
  have endings := ends.endings
  cases r with
  | ok report =>
    cases r' with
    | ok report' =>
      obtain rfl := drained report rfl
      obtain rfl := drained' report' rfl
      cases loops with
      | some loops => exact .drained loops.report
    | error e' => cases endings
  | error e =>
    cases r' with
    | ok report' => cases endings
    | error e' =>
      cases endings
      exact .stopped e

end DispatchLoop

/-! ### Sessions -/

/-- The same journals of a session, operation by operation, with accounts of all spoiled
callbacks that have ended with their failure. -/
inductive Diary.Spoiled : List Account → List (Nat × Occurrence) → List (Nat × Occurrence) → Prop
  | start : Diary.Spoiled [] [] []
  | chapter {G E : List Account} {j j' : List (Nat × Occurrence)} {os os' : List Occurrence}
      {broke : List Failure} (h : Diary.Spoiled G j j') (i : Nat) (own : ∀ a ∈ E, a.worker = i)
      (journal : Journal.Spoiled none broke os os')
      (reckoned : broke.Perm (E.map Account.failure)) :
      Diary.Spoiled (G ++ E) (j ++ os.map fun o => (i, o)) (j' ++ os'.map fun o => (i, o))

/-- The books of a worker of a session when an operation begins, with what the loop at
hand, if there is one, has reported. -/
def Worker.books (w : Worker) (G : List Account) (i : Nat) (moved : List (TaskId × String))
    (reporter : Option Nat) : Books where
  printed := Account.entries G
  source := w.logger.source
  logged := (Account.of i G).map Account.failure
  told := []
  moved k := if k = 0 then moved else []
  reporter := reporter
  counted := 0

namespace Session

variable {s s' : Session} {G E : List Account} {i l : Nat} {w : Worker}

/-- The same session, except for what is said of failures: the hosts are the same but for
lines, workers and loops are the same as their counterparts, and so is what they have
done. -/
structure Spoiled (G : List Account) (s s' : Session) : Prop where
  host : s.host.Spoiled (Account.entries G) s'.host
  workers : Placewise (fun i w w' =>
    w.Spoiled w.logger.source ((Account.of i G).map Account.failure) w') s.workers s'.workers
  loops : Placewise (fun l => Option.Rel (DispatchLoop.Spoiled (Account.moved l G)))
    s.loops s'.loops
  slots : s'.slots = s.slots
  journal : Diary.Spoiled G s.journal s'.journal
  within : ∀ a ∈ G, a.worker < s.workers.length ∧ ∀ l, a.loop = some l → l < s.loops.length

/-- Whether the timers that workers wait for have an outcome or will be given one. -/
def Answered (s : Session) : Prop :=
  ∀ (i : Nat) (w : Worker), s.workers[i]? = some w → (⟨s.host, w, []⟩ : Station).Answered

theorem Spoiled.between (spoiled : Spoiled G s s') {w' : Worker} (member : s.workers[i]? = some w)
    (member' : s'.workers[i]? = some w') (moved : List (TaskId × String)) (reporter : Option Nat) :
    Station.Between (w.books G i moved reporter) ⟨s.host, w, []⟩ ⟨s'.host, w', []⟩ := by
  obtain ⟨v, there, worker⟩ := spoiled.workers.get member
  obtain rfl := Option.some.inj (member'.symm.trans there)
  exact ⟨[], ⟨spoiled.host, worker, .start⟩, .refl _⟩

/-- A worker has done something, which was the same with both. -/
theorem Spoiled.work (spoiled : Spoiled G s s') (member : s.workers[i]? = some w)
    {moved : List (TaskId × String)} {reporter : Option Nat}
    (own : ∀ a ∈ E, a.By i (w.books G i moved reporter)) {u u' : Station}
    (between : Station.Between ((w.books G i moved reporter).add E) u u') (loop : Option Nat)
    {ls ls' : List (Option DispatchLoop)}
    (loops : Placewise (fun l => Option.Rel (DispatchLoop.Spoiled
      (Account.moved l (G ++ E.map (Account.atLoop loop))))) ls ls')
    (size : ls.length = s.loops.length) (within : ∀ l, loop = some l → l < s.loops.length) :
    Spoiled (G ++ E.map (Account.atLoop loop))
      ⟨u.host, s.workers.set i u.worker, ls, s.slots, s.journal ++ u.journal.map fun o => (i, o)⟩
      ⟨u'.host, s'.workers.set i u'.worker, ls', s'.slots,
        s'.journal ++ u'.journal.map fun o => (i, o)⟩ := by
  obtain ⟨broke, stations, reckoned⟩ := between
  have here : ∀ a ∈ E.map (Account.atLoop loop), a.worker = i := by
    intro a known
    obtain ⟨b, listed, rfl⟩ := List.mem_map.mp known
    exact (own b listed).worker
  have failures := Account.failures_atLoop loop E
  refine ⟨?_, spoiled.workers.set (fun j v v' other worker => ?_) ?_, loops, spoiled.slots,
    spoiled.journal.chapter i here stations.journal ?_, fun a known => ?_⟩
  · rw [Account.entries_append, Account.entries_atLoop]
    exact stations.host
  · rw [Account.of_append, Account.of_other here other, List.append_nil]
    exact worker
  · have source : u.worker.logger.source = w.logger.source := stations.worker.logs
    rw [Account.of_append, Account.of_own here, List.map_append, failures, source]
    exact stations.worker
  · rw [failures]
    exact reckoned
  · rw [List.length_set, size]
    rcases List.mem_append.mp known with old | new
    · exact spoiled.within a old
    · obtain ⟨b, listed, rfl⟩ := List.mem_map.mp new
      have present : i < s.workers.length := (List.getElem?_eq_some_iff.mp member).1
      exact ⟨(own b listed).worker ▸ present, within⟩

theorem Spoiled.loopsKept (spoiled : Spoiled G s s') (E : List Account) :
    Placewise (fun l => Option.Rel (DispatchLoop.Spoiled
      (Account.moved l (G ++ E.map (Account.atLoop none))))) s.loops s'.loops := by
  refine spoiled.loops.imp fun l k k' loop => ?_
  have none : Account.moved l (E.map (Account.atLoop none)) = [] :=
    Account.moved_atLoop_other (by simp) E
  rw [Account.moved_append, none, List.append_nil]
  exact loop

/-- The loops of a session after a worker has been at work with one of them. -/
theorem Spoiled.loopsSet (spoiled : Spoiled G s s') (E : List Account) (l : Nat)
    {k k' : Option DispatchLoop}
    (loop : Option.Rel (DispatchLoop.Spoiled (Account.moved l G ++ Account.tasks E)) k k') :
    Placewise (fun j => Option.Rel (DispatchLoop.Spoiled
      (Account.moved j (G ++ E.map (Account.atLoop (some l)))))) (s.loops.set l k)
      (s'.loops.set l k') := by
  refine spoiled.loops.set (fun j k k' other loop => ?_) ?_
  · have none : Account.moved j (E.map (Account.atLoop (some l))) = [] :=
      Account.moved_atLoop_other (by simpa using other.symm) E
    rw [Account.moved_append, none, List.append_nil]
    exact loop
  · rw [Account.moved_append, Account.moved_atLoop_self]
    exact loop

theorem Spoiled.still (spoiled : Spoiled G s s') {R : List Account → Prop} (holds : R []) :
    ∃ E, Spoiled (G ++ E) s s' ∧ R E :=
  ⟨[], by rwa [List.append_nil], holds⟩

/-- An operation of a worker by itself, without a loop of the session. -/
theorem Spoiled.byWorker (spoiled : Spoiled G s s') (i : Nat) (reporter : Option Nat)
    {act act' : Station → Station × Reply} {R : List Account → Reply → Reply → Prop}
    (alike : ∀ w, s.workers[i]? = some w → ∀ t', Station.Between (w.books G i [] reporter)
      ⟨s.host, w, []⟩ t' → ∃ E : List Account, (∀ a ∈ E, a.By i (w.books G i [] reporter))
        ∧ Station.Between ((w.books G i [] reporter).add E) (act ⟨s.host, w, []⟩).1 (act' t').1
        ∧ R (E.map (Account.atLoop none)) (act ⟨s.host, w, []⟩).2 (act' t').2)
    (absent : R [] .absent .absent) :
    ∃ E, Spoiled (G ++ E) (s.byWorker i act).1 (s'.byWorker i act').1
      ∧ R E (s.byWorker i act).2 (s'.byWorker i act').2 := by
  unfold Session.byWorker Session.atStation
  cases member : s.workers[i]? with
  | none =>
    rw [spoiled.workers.absent member]
    exact spoiled.still absent
  | some w =>
    obtain ⟨w', member', -⟩ := spoiled.workers.get member
    obtain ⟨E, own, after, told⟩ :=
      alike w member _ (spoiled.between member member' [] reporter)
    rw [member']
    have worked :=
      spoiled.work member own after none (spoiled.loopsKept E) rfl fun l h => by cases h
    exact ⟨_, worked, told⟩

theorem Spoiled.quiet (spoiled : Spoiled G s s') (i : Nat) {act act' : Station → Station × Reply}
    {R : List Account → Reply → Reply → Prop}
    (alike : ∀ (L : Ledger) (t t' : Station), L.logged = (Account.of i G).map Account.failure →
      t.Spoiled L t' → (act t).1.Spoiled L (act' t').1 ∧ R [] (act t).2 (act' t').2)
    (absent : R [] .absent .absent) :
    ∃ E, Spoiled (G ++ E) (s.byWorker i act).1 (s'.byWorker i act').1
      ∧ R E (s.byWorker i act).2 (s'.byWorker i act').2 := by
  refine spoiled.byWorker i none (fun w member t' ⟨broke, stations, reckoned⟩ => ?_) absent
  obtain ⟨after, told⟩ := alike _ _ t' rfl stations
  refine ⟨[], (fun a known => by cases known), ?_, told⟩
  rw [Books.add_nil]
  exact ⟨broke, after, reckoned⟩

/-! ### Commands -/

/-- The same command, with a callback that may be spoiled. -/
inductive Command.Spoiled : Command → Command → Prop
  | register (w : Nat) (task : TaskId) {change : Option String} {b b' : Body}
      (body : Body.Spoiled change b b') : Spoiled (.register w task b) (.register w task b')
  | setTimeout (w : Nat) (delay : Duration) {change : Option String} {b b' : Body}
      (body : Body.Spoiled change b b') : Spoiled (.setTimeout w delay b) (.setTimeout w delay b')
  | same (c : Command) : Spoiled c c

/-- What a command replies in both sessions: the same, except that a settlement counts the
timers that failed, that tasks that failed have moved in reports, and that lines and log
entries tell of them. There are accounts of earlier failures and of those that the command
has brought. -/
def Command.Tells (G E : List Account) : Command → Reply → Reply → Prop
  | .settle _ _, .count n, r => r = .count (n + Account.timers E)
  | .drain _, .report q, r => ∃ q', r = .report q' ∧ q.Spoiled (Account.tasks E) q'
  | .runLoop l _, .report q, r => ∃ q', r = .report q' ∧ q.Spoiled (Account.moved l (G ++ E)) q'
  | .showLoop l, .loop k, r => ∃ k', r = .loop k' ∧ k.Spoiled (Account.moved l G) k'
  | .entries i, .entries es, r => ∃ source es', r = .entries es'
      ∧ Entries.Spoiled source ((Account.of i G).map Account.failure) es es'
  | .lines isError, .lines ls, r => ∃ h h' : Host, h.Spoiled (Account.entries G) h'
      ∧ ls = h.lines isError ∧ r = .lines (h'.lines isError)
  | _, r, r' => r' = r

theorem Spoiled.register (spoiled : Spoiled G s s') (w : Nat) (task : TaskId) {b b' : Body}
    (breaks : Body.MayBreak b b') :
    ∃ E, Spoiled (G ++ E) (s.exec (.register w task b)).1 (s'.exec (.register w task b')).1
      ∧ (s'.exec (.register w task b')).2 = (s.exec (.register w task b)).2 := by
  rw [exec_register, exec_register]
  refine spoiled.quiet (R := fun _ r r' => r' = r) w (fun L t t' _ stations => ?_) rfl
  obtain ⟨after, result⟩ := stations.register task breaks
  exact ⟨after, congrArg registerReply result⟩

theorem Spoiled.setTimeout (spoiled : Spoiled G s s') (w : Nat) (delay : Duration) {b b' : Body}
    (breaks : Body.MayBreak b b') :
    ∃ E, Spoiled (G ++ E) (s.exec (.setTimeout w delay b)).1 (s'.exec (.setTimeout w delay b')).1
      ∧ (s'.exec (.setTimeout w delay b')).2 = (s.exec (.setTimeout w delay b)).2 := by
  refine spoiled.quiet (R := fun _ r r' => r' = r) w (fun L t t' _ stations => ?_) rfl
  obtain ⟨after, result⟩ := stations.setTimeout delay breaks
  exact ⟨after, congrArg (fun id => Reply.answer (.timer id)) result⟩

theorem Spoiled.call (spoiled : Spoiled G s s') (w : Nat) (c : HostCall) :
    ∃ E, Spoiled (G ++ E) (s.exec (.call w c)).1 (s'.exec (.call w c)).1
      ∧ (s'.exec (.call w c)).2 = (s.exec (.call w c)).2 := by
  rw [exec_call, exec_call]
  refine spoiled.quiet (R := fun _ r r' => r' = r) w (fun L t t' _ stations => ?_) rfl
  obtain ⟨after, result⟩ := stations.call c
  exact ⟨after, congrArg callReply result⟩

/-- A worker settles. -/
theorem Spoiled.settle (spoiled : Spoiled G s s') (answered : s.Answered) (w : Nat)
    (origin : Option TaskId) :
    ∃ E, Spoiled (G ++ E) (s.exec (.settle w origin)).1 (s'.exec (.settle w origin)).1
      ∧ Command.Tells G E (.settle w origin) (s.exec (.settle w origin)).2
        (s'.exec (.settle w origin)).2 := by
  refine spoiled.byWorker (R := fun E => Command.Tells G E (.settle w origin)) w none
    (fun v member t' between => ?_) rfl
  obtain ⟨E, own, after, count⟩ := between.settle (i := w) (answered w v member) (by
    funext k
    exact ite_self _) rfl rfl origin
  refine ⟨E, own, after, ?_⟩
  show Reply.count _ = .count (_ + Account.timers _)
  rw [Account.timers_atLoop, count]

theorem opens_books (w : Worker) (G : List Account) (i : Nat) (moved : List (TaskId × String)) :
    DispatchLoop.Opens (w.books G i moved (some 0)) :=
  ⟨fun _ other => if_neg other, rfl, rfl⟩

theorem moved_books {moved : List (TaskId × String)}
    (own : ∀ a ∈ E, a.By i (w.books G i moved (some 0))) :
    ((w.books G i moved (some 0)).add E).moved 0 = moved ++ Account.tasks E := by
  rw [← Account.moved_reporter own rfl]
  rfl

/-- A worker drains. -/
theorem Spoiled.drain (spoiled : Spoiled G s s') (answered : s.Answered) (w : Nat) :
    ∃ E, Spoiled (G ++ E) (s.exec (.drain w)).1 (s'.exec (.drain w)).1
      ∧ Command.Tells G E (.drain w) (s.exec (.drain w)).2 (s'.exec (.drain w)).2 := by
  refine spoiled.byWorker (R := fun E => Command.Tells G E (.drain w)) w (some 0)
    (fun v member t' between => ?_) rfl
  have new : DispatchLoop.start.Spoiled ((v.books G w [] (some 0)).moved 0) .start := ⟨rfl, .start⟩
  obtain ⟨E, own, after, ends⟩ :=
    new.run (i := w) between (answered w v member) (opens_books v G w [])
  refine ⟨E, own, after, ?_⟩
  rw [moved_books own, List.nil_append, ← Account.tasks_atLoop none] at ends
  simp only [Station.drain]
  generalize (DispatchLoop.start.run ⟨s.host, v, []⟩).2 = r at ends
  generalize (DispatchLoop.start.run t').2 = r' at ends
  cases ends with
  | drained report => exact ⟨_, rfl, report⟩
  | stopped e => rfl

/-- A loop acts. -/
theorem Spoiled.byLoop (spoiled : Spoiled G s s') (l w : Nat)
    {act : DispatchLoop → Station → Station × Option DispatchLoop × Reply}
    {R : List Account → Reply → Reply → Prop}
    (alike : ∀ v, s.workers[w]? = some v → ∀ t' (k k' : DispatchLoop),
      let B := v.books G w (Account.moved l G) (some 0)
      Station.Between B ⟨s.host, v, []⟩ t' → k.Spoiled (B.moved 0) k' →
      ∃ E : List Account, (∀ a ∈ E, a.By w B)
        ∧ Station.Between (B.add E) (act k ⟨s.host, v, []⟩).1 (act k' t').1
        ∧ Option.Rel (DispatchLoop.Spoiled ((B.add E).moved 0)) (act k ⟨s.host, v, []⟩).2.1
          (act k' t').2.1
        ∧ R (E.map (Account.atLoop (some l))) (act k ⟨s.host, v, []⟩).2.2 (act k' t').2.2)
    (absent : R [] .absent .absent) (gone : R [] .gone .gone) :
    ∃ E, Spoiled (G ++ E) (s.byLoop l w act).1 (s'.byLoop l w act).1
      ∧ R E (s.byLoop l w act).2 (s'.byLoop l w act).2 := by
  unfold Session.byLoop
  cases place : s.loops[l]? with
  | none =>
    rw [spoiled.loops.absent place]
    exact spoiled.still absent
  | some k =>
    obtain ⟨k', place', loop⟩ := spoiled.loops.get place
    rw [place']
    cases loop with
    | none => exact spoiled.still gone
    | @some k k' loop =>
      unfold Session.atStation
      cases member : s.workers[w]? with
      | none =>
        rw [spoiled.workers.absent member]
        exact spoiled.still absent
      | some v =>
        obtain ⟨v', member', -⟩ := spoiled.workers.get member
        rw [member']
        obtain ⟨E, own, after, next, told⟩ := alike v member ⟨s'.host, v', []⟩ k k'
          (spoiled.between member member' (Account.moved l G) (some 0)) loop
        rw [moved_books own] at next
        have within : l < s.loops.length := (List.getElem?_eq_some_iff.mp place).1
        have worked := spoiled.work member own after (some l) (spoiled.loopsSet E l next)
          (List.length_set ..) fun j same => Option.some.inj same ▸ within
        exact ⟨_, worked, told⟩

theorem Spoiled.stepLoop (spoiled : Spoiled G s s') (answered : s.Answered) (l w : Nat) :
    ∃ E, Spoiled (G ++ E) (s.exec (.stepLoop l w)).1 (s'.exec (.stepLoop l w)).1
      ∧ (s'.exec (.stepLoop l w)).2 = (s.exec (.stepLoop l w)).2 := by
  rw [exec_stepLoop, exec_stepLoop]
  refine spoiled.byLoop (R := fun _ r r' => r' = r) l w (fun v member t' k k' between known => ?_)
    rfl rfl
  obtain ⟨E, own, after, next, result⟩ :=
    known.step (i := w) between (answered w v member) (opens_books v G w _)
  refine ⟨E, own, after, .some next, ?_⟩
  simp only [byStep, result, next.state]

/-- A loop is run to its end. -/
theorem Spoiled.runLoop (spoiled : Spoiled G s s') (answered : s.Answered) (l w : Nat) :
    ∃ E, Spoiled (G ++ E) (s.exec (.runLoop l w)).1 (s'.exec (.runLoop l w)).1
      ∧ Command.Tells G E (.runLoop l w) (s.exec (.runLoop l w)).2
        (s'.exec (.runLoop l w)).2 := by
  rw [exec_runLoop, exec_runLoop]
  refine spoiled.byLoop (R := fun E => Command.Tells G E (.runLoop l w)) l w
    (fun v member t' k k' between known => ?_) rfl rfl
  obtain ⟨E, own, after, ends⟩ :=
    known.run (i := w) between (answered w v member) (opens_books v G w _)
  refine ⟨E, own, after, .none, ?_⟩
  rw [moved_books own] at ends
  simp only [byRun]
  generalize (k.run ⟨s.host, v, []⟩).2 = r at ends
  generalize (k'.run t').2 = r' at ends
  cases ends with
  | drained report =>
    refine ⟨_, rfl, ?_⟩
    rw [Account.moved_append, Account.moved_atLoop_self]
    exact report
  | stopped e => rfl

theorem Spoiled.withHost (spoiled : Spoiled G s s') {h k : Host}
    (hosts : h.Spoiled (Account.entries G) k) :
    Spoiled G { s with host := h } { s' with host := k } :=
  { spoiled with host := hosts }

/-- A worker joins. -/
theorem Spoiled.addWorker (spoiled : Spoiled G s s') (handle : ContextHandle)
    (threshold : Option LogLevel) :
    Spoiled G (s.addWorker handle threshold).1 (s'.addWorker handle threshold).1
      ∧ (s'.addWorker handle threshold).2 = (s.addWorker handle threshold).2 := by
  have none : Account.of s.workers.length G = [] :=
    List.filter_eq_nil_iff.mpr fun a known => by simp [Nat.ne_of_lt (spoiled.within a known).1]
  have size := spoiled.workers.length_eq
  refine ⟨{ spoiled with workers := spoiled.workers.concat ?_, within := fun a known => ?_ }, ?_⟩
  · rw [none]
    cases threshold <;> exact ⟨rfl, ⟨.nil, rfl⟩, ⟨rfl, .nil, rfl⟩, rfl, rfl, rfl, .start⟩
  · obtain ⟨worker, loop⟩ := spoiled.within a known
    simp only [Session.addWorker, List.length_append, List.length_singleton]
    exact ⟨Nat.lt_succ_of_lt worker, loop⟩
  · simp only [Session.addWorker, size]

/-- A loop is made. -/
theorem Spoiled.newLoop (spoiled : Spoiled G s s') :
    Spoiled G (s.exec .newLoop).1 (s'.exec .newLoop).1
      ∧ (s'.exec .newLoop).2 = (s.exec .newLoop).2 := by
  have none : Account.moved s.loops.length G = [] := by
    have unreported : G.filter (fun a => a.loop = some s.loops.length) = [] := by
      refine List.filter_eq_nil_iff.mpr fun a known => ?_
      have loop := (spoiled.within a known).2 s.loops.length
      simpa using fun same => Nat.lt_irrefl _ (loop same)
    rw [Account.moved, unreported]
    rfl
  have size := spoiled.loops.length_eq
  refine ⟨{ spoiled with
    loops := spoiled.loops.concat (.some ⟨rfl, ?_⟩), within := fun a known => ?_ }, ?_⟩
  · rw [none]
    exact .start
  · obtain ⟨worker, loop⟩ := spoiled.within a known
    simp only [Session.exec, List.length_append, List.length_singleton]
    exact ⟨worker, fun l same => Nat.lt_succ_of_lt (loop l same)⟩
  · simp only [Session.exec, size]

theorem Spoiled.start (spoiled : Spoiled G s s') (op : Session.Operation) :
    Spoiled G (s.exec (.start op)).1 (s'.exec (.start op)).1
      ∧ (s'.exec (.start op)).2 = (s.exec (.start op)).2 := by
  obtain ⟨hosts, slot⟩ := spoiled.host.start op
  simp only [Session.exec, Session.begin_eq, Session.addSlot, slot, spoiled.slots]
  exact ⟨{ spoiled with host := hosts, slots := rfl }, trivial⟩

theorem Spoiled.refresh (spoiled : Spoiled G s s') (slot : Slot) :
    slot.refresh s'.host = slot.refresh s.host := by
  unfold Slot.refresh
  rw [spoiled.host.completion?]

theorem viewRegistry_spoiled {r r' : Registry Body} (spoiled : r.Spoiled r')
    (task : Option TaskId) :
    Session.viewRegistry r' task = Session.viewRegistry r task := by
  have ids : r'.callbacks.map Prod.fst = r.callbacks.map Prod.fst := by
    have pairs := spoiled.callbacks
    generalize r.callbacks = l at pairs
    generalize r'.callbacks = l' at pairs
    induction pairs with
    | nil => rfl
    | cons pair _ ih => rw [List.map_cons, List.map_cons, ih, pair.1]
  unfold Session.viewRegistry Registry.ids
  rw [ids, spoiled.running, funext spoiled.contains]

theorem viewQueue_withOutput (h : Host) (o : List PrintedLine) (id : ContextId) :
    Session.viewQueue (h.withOutput o) id = Session.viewQueue h id := by
  unfold Session.viewQueue Host.queuedIds Host.signalCount
  simp only [Host.context?_withOutput]

/-- A context is made, and a worker for it. -/
theorem Spoiled.spawn (spoiled : Spoiled G s s') (d : ContextDescriptor)
    (threshold : Option LogLevel) :
    Spoiled G (s.exec (.spawn d threshold)).1 (s'.exec (.spawn d threshold)).1
      ∧ (s'.exec (.spawn d threshold)).2 = (s.exec (.spawn d threshold)).2 := by
  obtain ⟨hosts, made⟩ := spoiled.host.mute (Host.mute_spawn d)
  simp only [Session.exec]
  generalize s.host.spawn d = r at hosts made
  generalize s'.host.spawn d = r' at hosts made
  obtain ⟨h, r⟩ := r
  obtain ⟨h', r'⟩ := r'
  obtain rfl : r' = r := made
  cases r' with
  | ok handle => exact (spoiled.withHost hosts).addWorker handle threshold
  | error e => exact ⟨spoiled.withHost hosts, rfl⟩

theorem Spoiled.slot (spoiled : Spoiled G s s') (i : Nat) :
    Spoiled G (s.exec (.slot i)).1 (s'.exec (.slot i)).1
      ∧ (s'.exec (.slot i)).2 = (s.exec (.slot i)).2 := by
  simp only [Session.exec, spoiled.slots]
  cases s.slots[i]? with
  | none => exact ⟨spoiled, rfl⟩
  | some slot =>
    simp only [spoiled.refresh]
    exact ⟨spoiled, trivial⟩

theorem Spoiled.take (spoiled : Spoiled G s s') (i : Nat) :
    Spoiled G (s.exec (.take i)).1 (s'.exec (.take i)).1
      ∧ (s'.exec (.take i)).2 = (s.exec (.take i)).2 := by
  simp only [Session.exec, spoiled.slots]
  cases s.slots[i]? with
  | none => exact ⟨spoiled, rfl⟩
  | some slot =>
    simp only [spoiled.refresh]
    exact ⟨{ spoiled with slots := rfl }, trivial⟩

theorem Spoiled.shows (spoiled : Spoiled G s s') (i : Nat) {look : Station → Reply}
    {R : List Account → Reply → Reply → Prop}
    (alike : ∀ (L : Ledger) (t t' : Station), L.logged = (Account.of i G).map Account.failure →
      t.Spoiled L t' → R [] (look t) (look t'))
    (absent : R [] .absent .absent) :
    ∃ E, Spoiled (G ++ E) (s.byWorker i fun t => (t, look t)).1
        (s'.byWorker i fun t => (t, look t)).1
      ∧ R E (s.byWorker i fun t => (t, look t)).2 (s'.byWorker i fun t => (t, look t)).2 :=
  spoiled.quiet i (fun L t t' logged stations => ⟨stations, alike L t t' logged stations⟩) absent

/-- A command does the same in both sessions. -/
theorem Spoiled.exec (spoiled : Spoiled G s s') (answered : s.Answered) {c c' : Command}
    (same : c.Spoiled c') :
    ∃ E, Spoiled (G ++ E) (s.exec c).1 (s'.exec c').1
      ∧ c.Tells G E (s.exec c).2 (s'.exec c').2 := by
  have plain {t t' : Session} {r r' : Reply} (after : Spoiled G t t' ∧ r' = r) :
      ∃ E, Spoiled (G ++ E) t t' ∧ r' = r := after.1.still (R := fun _ => r' = r) after.2
  cases same with
  | register w task body => exact spoiled.register w task ⟨_, body⟩
  | setTimeout w delay body => exact spoiled.setTimeout w delay ⟨_, body⟩
  | same =>
    cases c with
    | spawn d threshold => exact plain (spoiled.spawn d threshold)
    | adopt handle threshold => exact plain (spoiled.addWorker handle threshold)
    | register w task body => exact spoiled.register w task ⟨_, Body.spoiled_refl body⟩
    | setTimeout w delay body => exact spoiled.setTimeout w delay ⟨_, Body.spoiled_refl body⟩
    | settle w origin => exact spoiled.settle answered w origin
    | drain w => exact spoiled.drain answered w
    | console w stream args =>
      exact spoiled.quiet (R := fun _ r r' => r' = r) w (fun L t t' _ stations =>
        ⟨⟨stations.host.print _ _, stations.worker, stations.journal⟩, rfl⟩) rfl
    | call w c => exact spoiled.call w c
    | entries w =>
      refine spoiled.shows (R := fun E => Command.Tells G E (.entries w)) w
        (fun L t t' logged stations => ?_) rfl
      refine ⟨L.source, _, rfl, ?_⟩
      rw [← logged]
      exact stations.worker.entries
    | registry w task =>
      exact spoiled.shows (R := fun _ r r' => r' = r) w (fun L t t' _ stations =>
        congrArg Reply.registry (viewRegistry_spoiled stations.worker.registry task)) rfl
    | queue w =>
      refine spoiled.shows (R := fun _ r r' => r' = r) w (fun L t t' _ stations => ?_) rfl
      rw [stations.host.same, viewQueue_withOutput, stations.worker.handle]
    | newLoop => exact plain spoiled.newLoop
    | stepLoop l w => exact spoiled.stepLoop answered l w
    | runLoop l w => exact spoiled.runLoop answered l w
    | showLoop l =>
      simp only [Session.exec]
      cases place : s.loops[l]? with
      | none =>
        rw [spoiled.loops.absent place]
        exact plain ⟨spoiled, rfl⟩
      | some k =>
        obtain ⟨k', place', loop⟩ := spoiled.loops.get place
        rw [place']
        cases loop with
        | none => exact plain ⟨spoiled, rfl⟩
        | @some k k' loop =>
          exact spoiled.still (R := fun E => Command.Tells G E (.showLoop l) (.loop k) (.loop k'))
            ⟨k', rfl, loop⟩
    | advance d =>
      exact plain ⟨spoiled.withHost (spoiled.host.mute (Host.mute_advance d)).1, rfl⟩
    | drive =>
      obtain ⟨hosts, fired⟩ := spoiled.host.mute Host.mute_drive
      exact plain ⟨spoiled.withHost hosts, congrArg Reply.flag fired⟩
    | print line isError => exact plain ⟨spoiled.withHost (spoiled.host.print line isError), rfl⟩
    | timers => exact plain ⟨spoiled, by simp only [Session.exec]; rw [spoiled.host.same]; rfl⟩
    | contexts => exact plain ⟨spoiled, by simp only [Session.exec]; rw [spoiled.host.same]; rfl⟩
    | file path => exact plain ⟨spoiled, by simp only [Session.exec]; rw [spoiled.host.same]; rfl⟩
    | lines isError =>
      exact spoiled.still (R := fun E => Command.Tells G E (.lines isError) _ _)
        ⟨s.host, s'.host, spoiled.host, rfl, rfl⟩
    | start op => exact plain (spoiled.start op)
    | slot i => exact plain (spoiled.slot i)
    | take i => exact plain (spoiled.take i)

/-! ### From the beginning -/

theorem answered_change {t : Session} (answered : s.Answered) (change : Change Law.any s t) :
    t.Answered := by
  have later := (crew_change change).1
  have old (j : Nat) (v : Worker) (member : s.workers[j]? = some v) :
      (⟨t.host, v, []⟩ : Station).Answered := (answered j v member).later later fun _ waits => waits
  have hired {handle : ContextHandle} {new : Worker} (isNew : IsNew new handle)
      (workers : t.workers = s.workers ++ [new]) : t.Answered := by
    intro j v member
    rw [workers] at member
    rcases getElem?_concat_cases member with before | ⟨-, rfl⟩
    · exact old j v before
    · intro x waits
      dsimp only at waits
      rw [isNew.bridge] at waits
      cases waits
  have acted {j : Nat} {actor : Worker} {u : Station} (member : s.workers[j]? = some actor)
      (moved : u.Answered) (host : t.host = u.host)
      (workers : t.workers = s.workers.set j u.worker) :
      t.Answered := by
    intro k v there
    rw [workers] at there
    by_cases same : j = k
    · subst same
      rw [List.getElem?_set_self (List.getElem?_eq_some_iff.mp member).1] at there
      obtain rfl := Option.some.inj there
      rw [host]
      exact moved
    · rw [List.getElem?_set_ne same] at there
      exact old k v there
  cases change with
  | idle host contexts workers loops journal => exact fun j v member => old j v (workers ▸ member)
  | spawned handle new isNew serial host contexts workers loops journal => exact hired isNew workers
  | adopted handle new isNew allowed host workers loops journal => exact hired isNew workers
  | looped host workers loops journal => exact fun j v member => old j v (workers ▸ member)
  | worked j actor u member moves rests host workers loops journal =>
    exact acted member (View.answered_moves (answered j actor member) (moves [])) host workers
  | turned j l actor loop next u member place allowed moves rests host workers loops journal =>
    exact acted member (View.answered_moves (answered j actor member) (moves [] [])) host workers

theorem answered_exec (answered : s.Answered) (c : Command) : (s.exec c).1.Answered :=
  answered_change answered (change_exec (lawful_any s) c.obeys_any)

theorem Spoiled.play (spoiled : Spoiled G s s') (answered : s.Answered) {cs cs' : List Command}
    (same : List.Forall₂ Command.Spoiled cs cs') :
    ∃ E, Spoiled (G ++ E) (s.play cs) (s'.play cs') ∧ (s.play cs).Answered := by
  induction same generalizing s s' G with
  | nil => exact spoiled.still (R := fun _ => s.Answered) answered
  | cons first rest ih =>
    obtain ⟨E, done, -⟩ := spoiled.exec answered first
    obtain ⟨F, played, answered'⟩ := ih done (answered_exec answered _)
    rw [List.append_assoc] at played
    exact ⟨E ++ F, played, answered'⟩

/-- The report that a reply tells. -/
def Reply.report? : Reply → Option DrainReport
  | .report r => some r
  | _ => none

end Session
end TaskHost
