/-
# Floors with spoiled callbacks

Workers with spoiled callbacks take turns on a floor, in any order. At every point the
floor is the one that it would be without the failures: the host has the same queues,
timers, files and clock, every worker the same tasks and timers and the same chores before
it, and has done the same (`Floor.Spoiled.happen`). What differs is what was said of the
failures; the accounts of all workers tell which these are, in the order in which they were
logged.

Key definitions: `Floor.Event.Spoiled`, `Clerk.books`, `Floor.Spoiled`.
Key theorems: `Floor.Spoiled.set`, `Floor.Spoiled.happen`, `Floor.Spoiled.play`.
-/
import TaskHost.Proofs.Floors
import TaskHost.Proofs.SpoiledShifts

namespace TaskHost

/-! ### Calls -/

namespace Host

variable {h k : Host} {failures : List LogEntry}

theorem mute_advance (d : Duration) : Mute fun h => (h.advance d, ()) := fun _ _ => rfl

/-- An operation is started alike. -/
theorem Spoiled.start (spoiled : h.Spoiled failures k) (op : Session.Operation) :
    (op.serve h).1.Spoiled failures (op.serve k).1 ∧ (op.serve k).2 = (op.serve h).2 := by
  cases op with
  | timer delay =>
    obtain ⟨after, signal⟩ := spoiled.mute (mute_setTimeout delay)
    exact ⟨after, congrArg Slot.ofSignal signal⟩
  | read path =>
    exact spoiled.mute (f := fun h => (Session.Operation.read path).serve h) fun _ _ => rfl
  | write path contents =>
    exact spoiled.mute (f := fun h => (Session.Operation.write path contents).serve h)
      fun _ _ => rfl
  | fetch url =>
    exact spoiled.mute (f := fun h => (Session.Operation.fetch url).serve h) fun _ _ => rfl

/-- A call is served alike. -/
theorem Spoiled.serve (spoiled : h.Spoiled failures k) (call : Call) :
    (call.serve h).Spoiled failures (call.serve k) := by
  cases call with
  | request r =>
    cases r with
    | spawn d => exact (spoiled.mute (mute_spawn d)).1
    | register id task => exact (spoiled.mute (mute_registerTask id task)).1
    | pull id => exact (spoiled.mute (mute_pull id)).1
    | signal id => exact spoiled.signal id
    | remove path => exact (spoiled.mute (f := fun h => h.removeFile path) fun _ _ => rfl).1
    | print line isError => exact spoiled.print line isError
    | advance d => exact (spoiled.mute (mute_advance d)).1
    | drive => exact (spoiled.mute mute_drive).1
  | start op => exact (spoiled.start op).1
  | sleep delay => exact (spoiled.mute (mute_sleep delay)).1

end Host

/-! ### Operations and events -/

/-- The same operation, with callbacks that may be spoiled. -/
inductive Operation.Spoiled : Operation → Operation → Prop
  | act {a a' : Action} (action : a.Spoiled a') : Spoiled (.act a) (.act a')
  | same (op : Operation) : Spoiled op op

/-- The same event, with callbacks that may be spoiled. -/
inductive Floor.Event.Spoiled : Floor.Event → Floor.Event → Prop
  | begins (i : Nat) {op op' : Operation} (operation : op.Spoiled op') :
      Spoiled (.begins i op) (.begins i op')
  | same (e : Floor.Event) : Spoiled e e

/-- The chores of an operation. -/
theorem Operation.Spoiled.begin {op op' : Operation} (spoiled : op.Spoiled op') {B : Books}
    {d d' : Desk} (desks : Desk.Spoiled B d d') (free : d.agenda = []) (free' : d'.agenda = []) :
    Desk.Spoiled { B with reporter := (d.begin op).hand? } (d.begin op) (d'.begin op')
      ∧ Agenda.Spoiled none [] (d.begin op).agenda (d'.begin op').agenda := by
  have planned {c c' : Chore} (chore : c.Spoiled none [] c') :
      Desk.Spoiled { B with reporter := (d.plan [c]).hand? } (d.plan [c]) (d'.plan [c'])
        ∧ Agenda.Spoiled none [] (d.plan [c]).agenda (d'.plan [c']).agenda := by
    refine ⟨{ desks with reporter := rfl }, ?_⟩
    simp only [Desk.plan, free, free']
    exact Agenda.spoiled_singleton chore
  have started : Desk.Spoiled { B with reporter := Desk.hand? { d with loops := d.loops ++ [.start] } }
      { d with loops := d.loops ++ [.start] } { d' with loops := d'.loops ++ [.start] } := by
    have unreported : B.moved d.loops.length = [] := desks.beyond _ (Nat.le_refl _)
    refine ⟨desks.loops.concat ⟨rfl, ?_⟩, desks.hand, desks.failures, desks.endings,
      fun k beyond => ?_, rfl⟩
    · rw [unreported]
      exact .start
    · simp only [List.length_append, List.length_singleton] at beyond
      exact desks.beyond k (by omega)
  have step (again : Bool) :
      Agenda.Spoiled none [] (.step again :: d.agenda) (.step again :: d'.agenda) := by
    rw [free, free']
    exact Agenda.spoiled_singleton (.step again)
  cases spoiled with
  | act action => exact planned (.ask action)
  | same =>
    cases op with
    | act a => exact planned (.ask (Action.spoiled_refl a))
    | settle origin => exact planned (.settle origin .looking)
    | newLoop =>
      refine ⟨started, ?_⟩
      simp only [Desk.begin, free, free']
      exact .nil
    | step i => exact ⟨{ desks with hand := rfl, reporter := rfl }, step false⟩
    | run i => exact ⟨{ desks with hand := rfl, reporter := rfl }, step true⟩
    | drain =>
      have size := desks.loops.length_eq
      simp only [Desk.begin, size]
      exact ⟨{ started with hand := rfl, reporter := rfl }, step true⟩

/-! ### The books of a floor -/

namespace Account

variable {i j : Nat} {G E : List Account}

/-- The accounts of one worker. -/
def of (i : Nat) (G : List Account) : List Account := G.filter fun a => a.worker = i

theorem of_append (i : Nat) (G E : List Account) : of i (G ++ E) = of i G ++ of i E :=
  List.filter_append ..

theorem of_own (own : ∀ a ∈ E, a.worker = i) : of i E = E :=
  List.filter_eq_self.mpr fun a member => decide_eq_true (own a member)

theorem of_other (own : ∀ a ∈ E, a.worker = i) (ne : j ≠ i) : of j E = [] :=
  List.filter_eq_nil_iff.mpr fun a member => by simp [own a member, ne.symm]

end Account

/-- The books of a worker of a floor, when there are accounts of all. -/
def Clerk.books (c : Clerk) (G : List Account) (i : Nat) : Books where
  printed := Account.entries G
  source := c.worker.logger.source
  logged := (Account.of i G).map Account.failure
  told := (Account.of i G).map Account.failure
  moved k := Account.moved k (Account.of i G)
  reporter := c.desk.hand?
  counted := ((Account.of i G).map Account.failure).countP Failure.isTimer

namespace Clerk

variable {i j : Nat} {G E : List Account} {c : Clerk}

theorem books_own (own : ∀ a ∈ E, a.worker = i) : c.books (G ++ E) i = (c.books G i).add E := by
  simp only [books, Account.of_append, Account.of_own own, Account.entries_append,
    Account.moved_append, List.map_append, List.countP_append, Books.add]

theorem books_other (own : ∀ a ∈ E, a.worker = i) (ne : j ≠ i) :
    c.books (G ++ E) j = { c.books G j with printed := Account.entries (G ++ E) } := by
  simp only [books, Account.of_append, Account.of_other own ne, List.append_nil]

end Clerk

/-! ### Floors -/

/-- The books of a clerk that has gone on. -/
theorem Shift.Spoiled.books {c : Clerk} {G E : List Account} {i : Nat} {s s' : Shift}
    (spoiled : Shift.Spoiled ((c.books G i).add E) s s') (own : ∀ a ∈ E, a.worker = i) :
    s.clerk.books (G ++ E) i = (c.books G i).add E := by
  obtain @⟨_, _, _, u, _, d, _, stations, _, desks, _⟩ := spoiled
  have source : u.worker.logger.source = c.worker.logger.source := stations.worker.logs
  have reporter : d.hand? = c.desk.hand? := desks.reporter
  rw [← Clerk.books_own own]
  simp only [Clerk.books, Shift.clerk, source, reporter]

theorem Shift.Spoiled.elsewhere {B : Books} {c c' : Clerk} {h h' k k' : Host}
    (spoiled : Shift.Spoiled B (c.at h) (c'.at h')) {printed : List LogEntry}
    (hosts : k.Spoiled printed k') :
    Shift.Spoiled { B with printed := printed } (c.at k) (c'.at k') := by
  obtain ⟨stations, agenda, desks, reckoned⟩ := spoiled
  exact .of ⟨hosts, stations.worker, stations.journal⟩ agenda { desks with } reckoned

namespace Floor

variable {f f' : Floor} {G : List Account} {i : Nat}

/-- The same floor, except for what is said of failures: the hosts are the same but for
lines, and every worker is the same as its counterpart, with its own failures in its
books. -/
structure Spoiled (G : List Account) (f f' : Floor) : Prop where
  host : f.host.Spoiled (Account.entries G) f'.host
  clerks : Placewise (fun i c c' => Shift.Spoiled (c.books G i) (c.at f.host) (c'.at f'.host))
    f.clerks f'.clerks
  within : ∀ a ∈ G, a.worker < f.clerks.length

theorem Spoiled.withHost (spoiled : Spoiled G f f') {h k : Host}
    (hosts : h.Spoiled (Account.entries G) k) :
    Spoiled G { f with host := h } { f' with host := k } :=
  ⟨hosts, spoiled.clerks.imp fun _ _ _ shifts => shifts.elsewhere hosts, spoiled.within⟩

/-- A worker goes on alike, and accounts are added. -/
theorem Spoiled.set (spoiled : Spoiled G f f') {E : List Account} (own : ∀ a ∈ E, a.worker = i)
    (member : i < f.clerks.length) {c : Clerk} {s s' : Shift}
    (shifts : Shift.Spoiled ((c.books G i).add E) s s') :
    Spoiled (G ++ E) ⟨s.station.host, f.clerks.set i s.clerk⟩
      ⟨s'.station.host, f'.clerks.set i s'.clerk⟩ := by
  rw [← shifts.books own] at shifts
  have same := shifts
  obtain ⟨stations, -, -, -⟩ := same
  have hosts := stations.host
  refine ⟨hosts, spoiled.clerks.set (fun j c c' other shifts => ?_) shifts, fun a known => ?_⟩
  · rw [Clerk.books_other own other]
    exact shifts.elsewhere hosts
  · rw [List.length_set]
    rcases List.mem_append.mp known with old | new
    · exact spoiled.within a old
    · rw [own a new]
      exact member

/-- A worker joins. -/
theorem Spoiled.join (spoiled : Spoiled G f f') (handle : ContextHandle)
    (threshold : Option LogLevel) :
    Spoiled G { f with clerks := f.clerks ++ [.new handle threshold] }
      { f' with clerks := f'.clerks ++ [.new handle threshold] } := by
  have none : Account.of f.clerks.length G = [] :=
    List.filter_eq_nil_iff.mpr fun a known => by simp [Nat.ne_of_lt (spoiled.within a known)]
  refine ⟨spoiled.host, spoiled.clerks.concat ?_, fun a known => ?_⟩
  · unfold Clerk.books
    rw [none]
    refine .of ⟨spoiled.host, ?_, .start⟩ .nil ⟨.nil, rfl, rfl, rfl, fun _ _ => rfl, rfl⟩ (.refl _)
    cases threshold <;> exact ⟨rfl, ⟨.nil, rfl⟩, ⟨rfl, .nil, rfl⟩, rfl, rfl, rfl, .start⟩
  · rw [List.length_append]
    exact Nat.lt_of_lt_of_le (spoiled.within a known) (Nat.le_add_right _ _)

theorem Spoiled.still (spoiled : Spoiled G f f') : ∃ E, Spoiled (G ++ E) f f' :=
  ⟨[], by rwa [List.append_nil]⟩

/-- An operation begins alike. -/
theorem Spoiled.begin (spoiled : Spoiled G f f') (i : Nat) {op op' : Operation}
    (operation : op.Spoiled op') : ∃ E, Spoiled (G ++ E) (f.begin i op) (f'.begin i op') := by
  unfold Floor.begin
  cases member : f.clerks[i]? with
  | none =>
    rw [spoiled.clerks.absent member]
    exact spoiled.still
  | some c =>
    obtain ⟨c', member', shifts⟩ := spoiled.clerks.get member
    obtain @⟨active, broke, due, -, -, -, -, stations, agenda, desks, reckoned⟩ := shifts
    have within : i < f.clerks.length := (List.getElem?_eq_some_iff.mp member).1
    rw [member']
    cases free : c.desk.agenda with
    | nil =>
      obtain ⟨free', rfl, rfl⟩ := Agenda.Spoiled.free (free ▸ agenda)
      obtain ⟨begun, chores⟩ := operation.begin desks free free'
      have shifts : Shift.Spoiled ((Clerk.books ⟨c.worker, c.journal, c.desk.begin op⟩ G i).add [])
          ⟨⟨f.host, c.worker, c.journal⟩, c.desk.begin op⟩
          ⟨⟨f'.host, c'.worker, c'.journal⟩, c'.desk.begin op'⟩ := by
        rw [Books.add_nil]
        exact .of stations chores begun reckoned
      simp only [free, free', List.isEmpty_nil, if_true]
      have none : ∀ a ∈ ([] : List Account), a.worker = i := fun a known => by cases known
      exact ⟨[], spoiled.set none within shifts⟩
    | cons chore rest =>
      cases free' : c'.desk.agenda with
      | nil =>
        rw [free, free'] at agenda
        cases agenda
      | cons chore' rest' =>
        simp only [free, free', List.isEmpty_cons, Bool.false_eq_true, if_false]
        exact spoiled.still

/-- A turn is taken alike. -/
theorem Spoiled.turn (spoiled : Spoiled G f f') (i : Nat) :
    ∃ E, Spoiled (G ++ E) (f.turn i) (f'.turn i) := by
  unfold Floor.turn
  cases member : f.clerks[i]? with
  | none =>
    rw [spoiled.clerks.absent member]
    exact spoiled.still
  | some c =>
    obtain ⟨c', member', shifts⟩ := spoiled.clerks.get member
    have within : i < f.clerks.length := (List.getElem?_eq_some_iff.mp member).1
    have turned := Shift.spoiled_turn (i := i) shifts
    rw [member']
    simp only
    generalize (c.at f.host).turn? = s at turned
    generalize (c'.at f'.host).turn? = s' at turned
    cases turned with
    | none => exact spoiled.still
    | some advances =>
      obtain ⟨E, own, reached⟩ := advances
      exact ⟨E, spoiled.set (fun a known => (own a known).worker) within reached⟩

/-- The same happens. -/
theorem Spoiled.happen (spoiled : Spoiled G f f') {e e' : Event} (same : e.Spoiled e') :
    ∃ E, Spoiled (G ++ E) (f.happen e) (f'.happen e') := by
  cases same with
  | begins i operation => exact spoiled.begin i operation
  | same =>
    cases e with
    | spawn d threshold =>
      obtain ⟨hosts, made⟩ := spoiled.host.mute (Host.mute_spawn d)
      have goesOn := spoiled.withHost hosts
      simp only [Floor.happen]
      cases first : f.host.spawn d with
      | mk h r =>
        cases second : f'.host.spawn d with
        | mk h' r' =>
          rw [first, second] at goesOn made
          obtain rfl : r' = r := made
          cases r' with
          | ok handle => exact (goesOn.join handle threshold).still
          | error e => exact goesOn.still
    | adopt handle threshold => exact (spoiled.join handle threshold).still
    | begins i op => exact spoiled.begin i (.same op)
    | turns i => exact spoiled.turn i
    | calls call => exact (spoiled.withHost (spoiled.host.serve call)).still

/-- The same happens, event by event. -/
theorem Spoiled.play (spoiled : Spoiled G f f') {events events' : List Event}
    (same : List.Forall₂ Event.Spoiled events events') :
    ∃ E, Spoiled (G ++ E) (f.play events) (f'.play events') := by
  induction same generalizing f f' G with
  | nil => exact spoiled.still
  | cons first rest ih =>
    obtain ⟨E, happened⟩ := spoiled.happen first
    obtain ⟨F, played⟩ := ih happened
    rw [List.append_assoc] at played
    exact ⟨E ++ F, played⟩

end Floor
end TaskHost
