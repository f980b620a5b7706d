/-
# Workers of one host are isolated

What a worker does changes neither another worker nor another context, whatever faults the
host shows (`Session.spares_exec`, `Floor.turn_others`). On a calm host workers that keep to
themselves do among others what they do alone: in a session, where each command is carried
out in one piece (`Session.play_alone`), and on a floor, where their turns interleave
(`Floor.play_alone`).

Key definitions: `Session.Command.Secluded`, `Session.Secluded`, `Session.Alike`.
Key theorems: `Session.spares_exec`, `Session.Alike.own`, `Session.play_alone`,
`Floor.workers_isolated`.
-/
import TaskHost.Proofs.Seclusion

namespace TaskHost

/-! ### What a worker does not change -/

namespace Session

/-- The worker through whom a command is carried out. -/
def Command.worker? : Command → Option Nat
  | .register w _ _ => some w
  | .setTimeout w _ _ => some w
  | .settle w _ => some w
  | .drain w => some w
  | .console w _ _ => some w
  | .call w _ => some w
  | .entries w => some w
  | .registry w _ => some w
  | .queue w => some w
  | .stepLoop _ w => some w
  | .runLoop _ w => some w
  | _ => none

variable {s : Session} {i j : Nat} {a b : Worker}

/-- Another worker and its context are as they were. -/
def Spares (s t : Session) (j : Nat) (b : Worker) : Prop :=
  t.workers[j]? = some b
    ∧ t.host.context? b.bridge.context = s.host.context? b.bridge.context

theorem spares_atStation {α : Type} (act : Station → Station × α) (ne : j ≠ i)
    (member : s.workers[i]? = some a) (other : s.workers[j]? = some b)
    (apart : b.bridge.context ≠ a.bridge.context)
    (keeps : Station.Keeps ⟨s.host, a, []⟩ (act ⟨s.host, a, []⟩).1) :
    s.Spares (s.atStation i act).1 j b := by
  simp only [atStation, member]
  exact ⟨(List.getElem?_set_ne ne.symm).trans other, keeps.host.others _ apart⟩

theorem spares_byWorker {act : Station → Station × Reply} (ne : j ≠ i)
    (member : s.workers[i]? = some a) (other : s.workers[j]? = some b)
    (apart : b.bridge.context ≠ a.bridge.context)
    (keeps : Station.Keeps ⟨s.host, a, []⟩ (act ⟨s.host, a, []⟩).1) :
    s.Spares (s.byWorker i act).1 j b := by
  have spared := spares_atStation act ne member other apart keeps
  rw [byWorker]
  rw [atStation_member member] at spared ⊢
  exact spared

theorem spares_byLoop {l : Nat}
    {act : DispatchLoop → Station → Station × Option DispatchLoop × Reply} (ne : j ≠ i)
    (member : s.workers[i]? = some a) (other : s.workers[j]? = some b)
    (apart : b.bridge.context ≠ a.bridge.context)
    (keeps : ∀ loop, Station.Keeps ⟨s.host, a, []⟩ (act loop ⟨s.host, a, []⟩).1) :
    s.Spares (s.byLoop l i act).1 j b := by
  obtain same | ⟨loop, worker, -, there, acted⟩ := byLoop_cases s l i act
  · rw [same]
    exact ⟨other, rfl⟩
  · obtain rfl := Option.some.inj (member.symm.trans there)
    rw [acted]
    exact spares_atStation (act loop) ne member other apart (keeps loop)

/-- What is done through a worker leaves the other workers and their contexts alone. -/
theorem spares_exec {c : Command} (own : c.worker? = some i) (ne : j ≠ i)
    (member : s.workers[i]? = some a) (other : s.workers[j]? = some b)
    (apart : b.bridge.context ≠ a.bridge.context) : s.Spares (s.exec c).1 j b := by
  let st : Station := ⟨s.host, a, []⟩
  cases c with
  | register w task body =>
    obtain rfl := Option.some.inj own
    rw [exec_register]
    exact spares_byWorker ne member other apart (Station.keeps_act st (.register task body))
  | setTimeout w delay body =>
    obtain rfl := Option.some.inj own
    exact spares_byWorker ne member other apart (Station.keeps_setTimeout st delay body)
  | settle w origin =>
    obtain rfl := Option.some.inj own
    exact spares_byWorker ne member other apart
      (Station.keeps_deeds (Station.deeds_settle origin st st.obeys_any))
  | drain w =>
    obtain rfl := Option.some.inj own
    exact spares_byWorker ne member other apart
      (View.keeps_moves (View.moves_drain [] st.obeys_any))
  | console w stream args =>
    obtain rfl := Option.some.inj own
    exact spares_byWorker ne member other apart (Station.keeps_act st (.console stream args))
  | call w c =>
    obtain rfl := Option.some.inj own
    rw [exec_call]
    exact spares_byWorker ne member other apart (Station.keeps_act st (.call c))
  | entries w =>
    obtain rfl := Option.some.inj own
    exact spares_byWorker ne member other apart (.refl st)
  | registry w task =>
    obtain rfl := Option.some.inj own
    exact spares_byWorker ne member other apart (.refl st)
  | queue w =>
    obtain rfl := Option.some.inj own
    exact spares_byWorker ne member other apart (.refl st)
  | stepLoop l w =>
    obtain rfl := Option.some.inj own
    rw [exec_stepLoop]
    exact spares_byLoop ne member other apart fun loop =>
      View.keeps_moves (View.moves_step [] [] loop st.obeys_any)
  | runLoop l w =>
    obtain rfl := Option.some.inj own
    rw [exec_runLoop]
    refine spares_byLoop ne member other apart fun loop => ?_
    obtain ⟨k, -, moved, -⟩ := View.moves_run [] [] loop st.obeys_any
    exact View.keeps_moves moved
  | _ => cases own

/-! ### Sessions of secluded workers -/

/-- Whether a command, and the callback in it, keeps to the context of its worker. Each loop
is for one worker. -/
def Command.Secluded (owner : Nat → Nat) : Command → Prop
  | .register _ _ body => Body.Secluded body
  | .settle _ _ => True
  | .drain _ => True
  | .console _ _ _ => True
  | .call _ c => c.Secluded
  | .entries _ => True
  | .registry _ _ => True
  | .newLoop => True
  | .stepLoop l w => owner l = w
  | .runLoop l w => owner l = w
  | _ => False

/-- Secluded workers, each with a context of its own, at a calm host. -/
structure Secluded (now : Instant) (s : Session) : Prop where
  calm : s.host.Calm now
  workers : ∀ (i : Nat) (w : Worker), s.workers[i]? = some w → w.Secluded
  apart : ∀ (i j : Nat) (a b : Worker), i ≠ j → s.workers[i]? = some a → s.workers[j]? = some b →
    a.bridge.context ≠ b.bridge.context

/-- A worker in the same state in two sessions, with the same loops, after it has done the
same. -/
structure Alike (now : Instant) (owner : Nat → Nat) (i : Nat) (w : Worker) (s t : Session) :
    Prop where
  here : s.workers[i]? = some w
  there : t.workers[i]? = some w
  agrees : s.host.Agrees now w.bridge.context t.host
  secluded : w.Secluded
  loops : ∀ l, owner l = i → t.loops[l]? = s.loops[l]?
  count : t.loops.length = s.loops.length
  journal : journalOf i t.journal = journalOf i s.journal

variable {t : Session} {now : Instant} {owner : Nat → Nat} {w : Worker}

theorem Secluded.alike (secluded : s.Secluded now) (member : s.workers[i]? = some w) :
    Alike now owner i w s s :=
  ⟨member, member, ⟨secluded.calm, secluded.calm, rfl⟩, secluded.workers i w member,
    fun _ _ => rfl, rfl, rfl⟩

/-- The worker acts alike in both sessions. -/
theorem Alike.atStation (alike : Alike now owner i w s t) {α : Type} {f : Station → Station × α}
    (acts : ∀ {u v : Station}, u.Mirrors now v →
      (f u).1.Mirrors now (f v).1 ∧ (f v).2 = (f u).2) :
    ∃ w' x, Alike now owner i w' (s.atStation i f).1 (t.atStation i f).1
      ∧ (s.atStation i f).2 = some x ∧ (t.atStation i f).2 = some x := by
  obtain ⟨after, result⟩ := acts (.of alike.agrees alike.secluded [])
  have within := (List.getElem?_eq_some_iff.mp alike.here).1
  have within' := (List.getElem?_eq_some_iff.mp alike.there).1
  unfold Session.atStation
  rw [alike.here, alike.there]
  simp only
  generalize f ⟨s.host, w, []⟩ = first at after result
  generalize f ⟨t.host, w, []⟩ = second at after result
  obtain ⟨u, x⟩ := first
  obtain ⟨v, y⟩ := second
  obtain rfl : y = x := result
  obtain @⟨h, k, w', agrees, secluded, os⟩ := after
  refine ⟨w', y, ⟨List.getElem?_set_self within, List.getElem?_set_self within', agrees, secluded,
    alike.loops, alike.count, ?_⟩, rfl, rfl⟩
  rw [journalOf_append, journalOf_append, alike.journal]

theorem Alike.byWorker (alike : Alike now owner i w s t) {act : Station → Station × Reply}
    (acts : ∀ {u v : Station}, u.Mirrors now v →
      (act u).1.Mirrors now (act v).1 ∧ (act v).2 = (act u).2) :
    ∃ w', Alike now owner i w' (s.byWorker i act).1 (t.byWorker i act).1
      ∧ (t.byWorker i act).2 = (s.byWorker i act).2 := by
  obtain ⟨w', r, acted, first, second⟩ := alike.atStation acts
  unfold Session.byWorker
  generalize s.atStation i act = a at acted first
  generalize t.atStation i act = b at acted second
  obtain ⟨s', x⟩ := a
  obtain ⟨t', y⟩ := b
  obtain rfl : x = some r := first
  obtain rfl : y = some r := second
  exact ⟨w', acted, rfl⟩

theorem Alike.setLoop (alike : Alike now owner i w s t) (l : Nat) (k : Option DispatchLoop) :
    Alike now owner i w { s with loops := s.loops.set l k } { t with loops := t.loops.set l k } :=
  { alike with
    loops := fun j own => by
      simp only [List.getElem?_set, alike.count, alike.loops j own]
    count := by
      simp only [List.length_set]
      exact alike.count }

/-- A loop of the worker acts alike in both sessions. -/
theorem Alike.byLoop (alike : Alike now owner i w s t) {l : Nat} (own : owner l = i)
    {act : DispatchLoop → Station → Station × Option DispatchLoop × Reply}
    (acts : ∀ loop {u v : Station}, u.Mirrors now v →
      (act loop u).1.Mirrors now (act loop v).1 ∧ (act loop v).2 = (act loop u).2) :
    ∃ w', Alike now owner i w' (s.byLoop l i act).1 (t.byLoop l i act).1
      ∧ (t.byLoop l i act).2 = (s.byLoop l i act).2 := by
  unfold Session.byLoop
  rw [alike.loops l own]
  cases s.loops[l]? with
  | none => exact ⟨w, alike, rfl⟩
  | some place =>
    cases place with
    | none => exact ⟨w, alike, rfl⟩
    | some loop =>
      obtain ⟨w', ⟨next, r⟩, acted, first, second⟩ := alike.atStation (acts loop)
      dsimp only
      generalize s.atStation i (act loop) = a at acted first ⊢
      generalize t.atStation i (act loop) = b at acted second ⊢
      obtain ⟨s', x⟩ := a
      obtain ⟨t', y⟩ := b
      obtain rfl : x = some (next, r) := first
      obtain rfl : y = some (next, r) := second
      exact ⟨w', acted.setLoop l next, rfl⟩

/-- What the worker does itself it does alike in both sessions. -/
theorem Alike.own (alike : Alike now owner i w s t) {c : Command} (quiet : c.Secluded owner)
    (own : c.worker? = some i) :
    ∃ w', Alike now owner i w' (s.exec c).1 (t.exec c).1 ∧ (t.exec c).2 = (s.exec c).2 := by
  cases c with
  | register j task body =>
    obtain rfl := Option.some.inj own
    rw [exec_register, exec_register]
    refine alike.byWorker fun {u v} mirrors => ?_
    obtain ⟨after, result⟩ := mirrors.register task body quiet
    exact ⟨after, congrArg registerReply result⟩
  | settle j origin =>
    obtain rfl := Option.some.inj own
    refine alike.byWorker fun {u v} mirrors => ?_
    obtain ⟨after, failures⟩ := mirrors.settle origin
    exact ⟨after, congrArg Reply.count failures⟩
  | drain j =>
    obtain rfl := Option.some.inj own
    refine alike.byWorker fun {u v} mirrors => ?_
    obtain ⟨after, report⟩ := mirrors.run .start
    exact ⟨after, congrArg drainReply report⟩
  | console j stream args =>
    obtain rfl := Option.some.inj own
    refine alike.byWorker fun {u v} mirrors => ⟨(mirrors.act (a := .console stream args) ?_).1, rfl⟩
    simp [Action.Secluded]
  | call j c =>
    obtain rfl := Option.some.inj own
    rw [exec_call, exec_call]
    refine alike.byWorker fun {u v} mirrors => ?_
    obtain ⟨after, result⟩ := mirrors.call quiet
    exact ⟨after, congrArg callReply result⟩
  | entries j =>
    obtain rfl := Option.some.inj own
    exact alike.byWorker fun {u v} mirrors => ⟨mirrors, by simp only [mirrors.worker]⟩
  | registry j task =>
    obtain rfl := Option.some.inj own
    exact alike.byWorker fun {u v} mirrors => ⟨mirrors, by simp only [mirrors.worker]⟩
  | stepLoop l j =>
    obtain rfl := Option.some.inj own
    rw [exec_stepLoop, exec_stepLoop]
    refine alike.byLoop quiet fun loop {u v} mirrors => ?_
    obtain ⟨after, next, result⟩ := mirrors.step loop
    exact ⟨after, by simp only [byStep, next, result]⟩
  | runLoop l j =>
    obtain rfl := Option.some.inj own
    rw [exec_runLoop, exec_runLoop]
    refine alike.byLoop quiet fun loop {u v} mirrors => ?_
    obtain ⟨after, result⟩ := mirrors.run loop
    exact ⟨after, by simp only [byRun, result]⟩
  | newLoop => cases own
  | _ => exact quiet.elim

/-- What a worker's command leaves alone: other workers, loops that are for others, and what
the journal tells about others. -/
structure Works (owner : Nat → Nat) (j : Nat) (s t : Session) : Prop where
  workers : ∀ k, k ≠ j → t.workers[k]? = s.workers[k]?
  loops : ∀ l, owner l ≠ j → t.loops[l]? = s.loops[l]?
  count : t.loops.length = s.loops.length
  journal : ∀ k, k ≠ j → journalOf k t.journal = journalOf k s.journal

theorem works_atStation (owner : Nat → Nat) (j : Nat) (s : Session) {α : Type}
    (act : Station → Station × α) : Works owner j s (s.atStation j act).1 := by
  unfold Session.atStation
  split
  · exact ⟨fun _ _ => rfl, fun _ _ => rfl, rfl, fun _ _ => rfl⟩
  · refine ⟨fun k other => List.getElem?_set_ne other.symm, fun _ _ => rfl, rfl, fun k other => ?_⟩
    rw [journalOf_append, journalOf_other other.symm, List.append_nil]

theorem works_byWorker (owner : Nat → Nat) (j : Nat) (s : Session)
    (act : Station → Station × Reply) : Works owner j s (s.byWorker j act).1 := by
  have works := works_atStation owner j s act
  unfold Session.byWorker
  split
  · next h =>
    rw [h] at works
    exact works
  · next h =>
    rw [h] at works
    exact works

theorem Works.setLoop {j : Nat} (works : Works owner j s t) {l : Nat} (own : owner l = j)
    (k : Option DispatchLoop) : Works owner j s { t with loops := t.loops.set l k } :=
  { works with
    loops := fun m other => by
      rw [← works.loops m other]
      refine List.getElem?_set_ne fun same => other ?_
      rw [← same]
      exact own
    count := by
      rw [List.length_set]
      exact works.count }

theorem works_byLoop (s : Session) {j l : Nat} (own : owner l = j)
    (act : DispatchLoop → Station → Station × Option DispatchLoop × Reply) :
    Works owner j s (s.byLoop l j act).1 := by
  obtain same | ⟨loop, worker, -, member, acted⟩ := byLoop_cases s l j act
  · rw [same]
    exact ⟨fun _ _ => rfl, fun _ _ => rfl, rfl, fun _ _ => rfl⟩
  · have works := works_atStation owner j s (act loop)
    rw [acted]
    rw [atStation_member member] at works ⊢
    exact works.setLoop own _

/-- A command that is carried out through a worker lets it act, or one of its loops. -/
theorem exec_forms {j : Nat} {c : Command} (own : c.worker? = some j) :
    (∃ act, ∀ s : Session, s.exec c = s.byWorker j act)
      ∨ ∃ l act, (∀ owner, c.Secluded owner → owner l = j)
        ∧ ∀ s : Session, s.exec c = s.byLoop l j act := by
  have through {c : Command} {i : Nat} {act : Station → Station × Reply} (own : some i = some j)
      (acts : ∀ s : Session, s.exec c = s.byWorker i act) :
      ∃ act, ∀ s : Session, s.exec c = s.byWorker j act := by
    obtain rfl := Option.some.inj own
    exact ⟨act, acts⟩
  cases c with
  | stepLoop l i =>
    obtain rfl := Option.some.inj own
    exact .inr ⟨l, byStep, fun _ quiet => quiet, fun s => exec_stepLoop s l i⟩
  | runLoop l i =>
    obtain rfl := Option.some.inj own
    exact .inr ⟨l, byRun, fun _ quiet => quiet, fun s => exec_runLoop s l i⟩
  | register i task body => exact .inl (through own fun _ => rfl)
  | setTimeout i delay body => exact .inl (through own fun _ => rfl)
  | settle i origin => exact .inl (through own fun _ => rfl)
  | drain i => exact .inl (through own fun _ => rfl)
  | console i stream args => exact .inl (through own fun _ => rfl)
  | call i c => exact .inl (through own fun _ => rfl)
  | entries i => exact .inl (through own fun _ => rfl)
  | registry i task => exact .inl (through own fun _ => rfl)
  | queue i => exact .inl (through own fun _ => rfl)
  | _ => cases own

theorem works_exec (s : Session) {j : Nat} {c : Command} (quiet : c.Secluded owner)
    (own : c.worker? = some j) : Works owner j s (s.exec c).1 := by
  obtain ⟨act, acts⟩ | ⟨l, act, mine, acts⟩ := exec_forms own
  · rw [acts]
    exact works_byWorker owner j s act
  · rw [acts]
    exact works_byLoop s (mine owner quiet) act

theorem exec_absent (s : Session) {j : Nat} {c : Command} (own : c.worker? = some j)
    (absent : s.workers[j]? = none) : (s.exec c).1 = s := by
  obtain ⟨act, acts⟩ | ⟨l, act, -, acts⟩ := exec_forms own
  · rw [acts, byWorker, atStation_absent absent]
  · rw [acts]
    obtain same | ⟨loop, worker, -, member, -⟩ := byLoop_cases s l j act
    · exact same
    · rw [absent] at member
      cases member

/-- Secluded workers stay secluded. -/
theorem Secluded.exec (secluded : s.Secluded now) {c : Command} (quiet : c.Secluded owner) :
    (s.exec c).1.Secluded now := by
  cases own : c.worker? with
  | none =>
    cases c with
    | newLoop => exact ⟨secluded.calm, secluded.workers, secluded.apart⟩
    | _ => first | exact quiet.elim | cases own
  | some j =>
    cases member : s.workers[j]? with
    | none =>
      rw [exec_absent s own member]
      exact secluded
    | some v =>
      have before : Alike now owner j v s s := secluded.alike member
      obtain ⟨v', alike, -⟩ := before.own quiet own
      obtain ⟨w, here, -, context⟩ :=
        member_crew (crew_change (change_exec (lawful_any s) c.obeys_any)).2 member
      obtain rfl := Option.some.inj (alike.here.symm.trans here)
      have works := works_exec s quiet own
      -- Every worker has the context that it had, and all but the one at work are the same.
      have earlier (k : Nat) (a : Worker) (there : (s.exec c).1.workers[k]? = some a) :
          a.Secluded ∧ ∃ b, s.workers[k]? = some b ∧ b.bridge.context = a.bridge.context := by
        by_cases same : k = j
        · subst same
          obtain rfl := Option.some.inj (here.symm.trans there)
          exact ⟨alike.secluded, v, member, context.symm⟩
        · rw [works.workers k same] at there
          exact ⟨secluded.workers k a there, a, there, rfl⟩
      refine ⟨alike.agrees.calm, fun k a there => (earlier k a there).1,
        fun k l a b ne first second => ?_⟩
      obtain ⟨-, a', first', same⟩ := earlier k a first
      obtain ⟨-, b', second', same'⟩ := earlier l b second
      rw [← same, ← same']
      exact secluded.apart k l a' b' ne first' second'

/-- What others do does not concern the worker. -/
theorem Alike.other (alike : Alike now owner i w s t) (secluded : s.Secluded now) {c : Command}
    {j : Nat} (quiet : c.Secluded owner) (own : c.worker? = some j) (ne : i ≠ j) :
    Alike now owner i w (s.exec c).1 t := by
  cases member : s.workers[j]? with
  | none =>
    rw [exec_absent s own member]
    exact alike
  | some v =>
    have works := works_exec s quiet own
    have apart := secluded.apart i j w v ne alike.here member
    obtain ⟨here, context⟩ := spares_exec own ne member alike.here apart
    have calm := (secluded.exec quiet).calm
    exact ⟨here, alike.there,
      ⟨calm, alike.agrees.calm', alike.agrees.context.trans context.symm⟩, alike.secluded,
      fun l mine => (alike.loops l mine).trans (works.loops l (mine ▸ ne)).symm,
      alike.count.trans works.count.symm, alike.journal.trans (works.journal i ne).symm⟩

theorem Alike.newLoop (alike : Alike now owner i w s t) :
    Alike now owner i w (s.exec .newLoop).1 (t.exec .newLoop).1 :=
  { alike with
    loops := fun l own => by
      simp only [Session.exec, List.getElem?_append, alike.count, alike.loops l own]
    count := by
      simp only [Session.exec, List.length_append, alike.count] }

/-- A worker does among others what it does alone. -/
theorem play_alone (secluded : s.Secluded now) (alike : Alike now owner i w s t)
    {cs : List Command} (quiet : ∀ c ∈ cs, c.Secluded owner) :
    ∃ w', Alike now owner i w' (s.play cs)
      (t.play (cs.filter fun c => c.worker? = some i ∨ c.worker? = none)) := by
  induction cs generalizing s t w with
  | nil => exact ⟨w, alike⟩
  | cons c rest ih =>
    obtain ⟨first, others⟩ := List.forall_mem_cons.mp quiet
    have after := secluded.exec first
    cases own : c.worker? with
    | none =>
      rw [List.filter_cons_of_pos (by simp [own])]
      cases c with
      | newLoop => exact ih after alike.newLoop others
      | _ => first | exact first.elim | cases own
    | some j =>
      by_cases same : j = i
      · subst same
        rw [List.filter_cons_of_pos (by simp [own])]
        obtain ⟨w', acted, -⟩ := alike.own first own
        exact ih after acted others
      · rw [List.filter_cons_of_neg (by simp [own, same])]
        exact ih after (alike.other secluded first own (Ne.symm same)) others

end Session

/-! ### Isolation -/

namespace Floor

/-- **Workers are isolated.** Whatever is done through a worker, in one piece or in turns,
and whatever faults are planned, leaves any worker with another context as it is, with
its registry, its timers and its log, and that context with its handle, its queue and its
signals. And on a host without faults, where workers keep away from files, routes,
timers and the clock: after commands to all workers, and after turns of all workers, in any
order, each worker is as it is after its own commands and turns alone, with its loops and
their reports, its journal and its registry, and so is its context; and it replies the
same. -/
theorem workers_isolated :
    (∀ (s : Session) (i j : Nat) (a b : Worker) (c : Session.Command), c.worker? = some i → j ≠ i →
      s.workers[i]? = some a → s.workers[j]? = some b → b.bridge.context ≠ a.bridge.context →
      s.Spares (s.exec c).1 j b)
    ∧ (∀ (f : Floor) (i j : Nat) (c d : Clerk), f.clerks[i]? = some c → f.clerks[j]? = some d →
      j ≠ i → d.worker.bridge.context ≠ c.worker.bridge.context →
      (f.turn i).clerks[j]? = some d
        ∧ (f.turn i).host.context? d.worker.bridge.context
          = f.host.context? d.worker.bridge.context)
    ∧ (∀ (s : Session) (now : Instant) (owner : Nat → Nat) (i : Nat) (cs : List Session.Command),
      s.Secluded now → (∀ c ∈ cs, c.Secluded owner) → i < s.workers.length →
      let alone := s.play (cs.filter fun c => c.worker? = some i ∨ c.worker? = none)
      (∃ w, Session.Alike now owner i w (s.play cs) alone)
        ∧ ∀ c : Session.Command, c.Secluded owner → c.worker? = some i →
          (alone.exec c).2 = ((s.play cs).exec c).2)
    ∧ ∀ (f : Floor) (now : Instant) (i : Nat) (events : List Event), f.Secluded now →
      (∀ e ∈ events, e.Secluded) → i < f.clerks.length →
      ∃ c, (f.play events).clerks[i]? = some c
        ∧ (f.play (events.filter fun e => e.clerk? = some i)).clerks[i]? = some c
        ∧ (f.play events).host.context? c.worker.bridge.context
          = (f.play (events.filter fun e => e.clerk? = some i)).host.context?
            c.worker.bridge.context := by
  refine ⟨fun s i j a b c own ne member other apart => ?_,
    fun f i j c d member other ne apart => turn_others member other ne apart,
    fun s now owner i cs secluded quiet within => ?_,
    fun f now i events secluded quiet within => ?_⟩
  · exact Session.spares_exec own ne member other apart
  · have before : Session.Alike now owner i s.workers[i] s s :=
      secluded.alike (List.getElem?_eq_getElem within)
    obtain ⟨w, alike⟩ := Session.play_alone secluded before quiet
    refine ⟨⟨w, alike⟩, fun c secluded own => ?_⟩
    obtain ⟨-, -, same⟩ := alike.own secluded own
    exact same
  · have member := List.getElem?_eq_getElem within
    obtain ⟨c, among, alone, ⟨⟨agrees, -, -⟩, -⟩⟩ :=
      play_alone secluded ⟨_, member, member, secluded.mirrors member⟩ quiet
    exact ⟨c, among, alone, agrees.context.symm⟩

/-- Two workers at a new host, on a floor and in a session. -/
def pair : Floor := play ⟨.empty, []⟩ [.spawn ⟨"first", none⟩ none, .spawn ⟨"second", none⟩ none]

/-- The same in a session. -/
def pairSession : Session :=
  (Session.ofHost .empty).play [.spawn ⟨"first", none⟩ none, .spawn ⟨"second", none⟩ none]

/-- Both workers have a task of one id, the first one's task registers another one, and
they drain at the same time. -/
def crossing : List Event :=
  [.begins 0 (.act (.register ⟨"ping"⟩ [.register ⟨"pong"⟩ []])),
    .begins 1 (.act (.register ⟨"ping"⟩ [])), .turns 1, .turns 0, .begins 1 .drain, .turns 1,
    .begins 0 .drain] ++ (List.replicate 16 [.turns 0, .turns 1]).flatten

/-- The same tasks, of which the second worker drains its own first. -/
def crossingCommands : List Session.Command :=
  [.register 0 ⟨"ping"⟩ [.register ⟨"pong"⟩ []], .register 1 ⟨"ping"⟩ [], .drain 1]

theorem workers_isolated_pair :
    (∃ b, pairSession.workers[1]? = some b
      ∧ pairSession.Spares (pairSession.exec (.register 0 ⟨"ping"⟩ [])).1 1 b)
    ∧ (∃ d, pair.clerks[1]? = some d ∧ (pair.turn 0).clerks[1]? = some d)
    ∧ ((pairSession.play [.register 0 ⟨"ping"⟩ [.register ⟨"pong"⟩ []]]).exec (.drain 0)).2
      = ((pairSession.play crossingCommands).exec (.drain 0)).2
    ∧ ∃ c, (pair.play crossing).clerks[0]? = some c
      ∧ (pair.play (crossing.filter fun e => e.clerk? = some 0)).clerks[0]? = some c
      ∧ c.desk.loops = [⟨.drained, ⟨[⟨"ping"⟩, ⟨"pong"⟩], [], []⟩⟩] := by
  refine ⟨?_, ?_, ?_, ?_⟩
  · exact ⟨_, rfl, workers_isolated.1 pairSession 0 1 _ _ (.register 0 ⟨"ping"⟩ []) rfl (by decide)
      rfl rfl (by decide)⟩
  · exact ⟨_, rfl, (workers_isolated.2.1 pair 0 1 _ _ rfl rfl (by decide) (by decide)).1⟩
  · have secluded : pairSession.Secluded .start := by
      refine ⟨⟨rfl, rfl, rfl⟩, fun i w member => ?_, fun i j a b ne first second same => ?_⟩
      · rcases i with _ | _ | i <;> cases member <;> exact ⟨rfl, fun c member => by cases member⟩
      · rcases i with _ | _ | i <;> rcases j with _ | _ | j <;> cases first <;> cases second
        · exact ne rfl
        · exact absurd same (by decide)
        · exact absurd same (by decide)
        · exact ne rfl
    have quiet : ∀ c ∈ crossingCommands, c.Secluded id := by
      simp [crossingCommands, Session.Command.Secluded, Body.Secluded, Action.Secluded]
    obtain ⟨-, same⟩ :=
      workers_isolated.2.2.1 pairSession .start id 0 crossingCommands secluded quiet (by decide)
    exact same (.drain 0) trivial rfl
  · have new (handle : ContextHandle) : (Clerk.new handle none).Secluded :=
      ⟨⟨rfl, fun c member => by cases member⟩, fun c member => by cases member⟩
    have secluded : pair.Secluded .start := by
      refine ⟨⟨rfl, rfl, rfl⟩, fun c member => ?_, by decide⟩
      rcases List.mem_cons.mp member with rfl | last
      · exact new _
      · obtain rfl := List.mem_singleton.mp last
        exact new _
    have quiet : ∀ e ∈ crossing, e.Secluded := by
      intro e member
      rcases List.mem_append.mp member with begun | turned
      · simp only [List.mem_cons, List.not_mem_nil, or_false] at begun
        rcases begun with rfl | rfl | rfl | rfl | rfl | rfl | rfl <;>
          simp [Event.Secluded, Operation.Secluded, Action.Secluded, Body.Secluded]
      · obtain ⟨both, listed, inside⟩ := List.mem_flatten.mp turned
        obtain rfl := List.eq_of_mem_replicate listed
        simp only [List.mem_cons, List.not_mem_nil, or_false] at inside
        rcases inside with rfl | rfl <;> trivial
    obtain ⟨c, among, alone, -⟩ :=
      workers_isolated.2.2.2 pair .start 0 crossing secluded quiet (by decide)
    have drained : ((pair.play crossing).clerks[0]?.map fun c => c.desk.loops)
        = some [⟨.drained, ⟨[⟨"ping"⟩, ⟨"pong"⟩], [], []⟩⟩] := by decide +kernel
    rw [among] at drained
    exact ⟨c, among, alone, Option.some.inj drained⟩

end Floor
end TaskHost
