/-
# The history of a worker in a session

The view of a worker in a session consists of the host, the worker, the loops that
belong to it and what the journal tells about it (`Session.view`). If each loop is
stepped at one worker only, and nobody adopts the worker's context, then from the
worker's beginning on every command moves its view along a path: the worker's own
commands by moves, those of others because they leave its context alone
(`Session.path_change`). At its beginning the worker has nothing, its queue is
empty and its loops have not begun (`View.Fresh`). So what holds of fresh views and
is preserved by every step holds throughout every session (`Session.path_play`).

Key definitions: `loopsOf`, `journalOf`, `Session.view`, `View.Fresh`,
`Session.Alone`, `Session.Reaches`.
Key theorems: `Session.path_change`, `Session.path_play`, `Session.Reaches.path`.
-/
import TaskHost.Proofs.Sessions

namespace TaskHost

/-! ### Loops and journals of one worker -/

/-- The loops that belong to a worker, of those from the `i`-th on. -/
def loopsOf (owner : Nat → Nat) (w : Nat) : Nat → List (Option DispatchLoop) → List DispatchLoop
  | _, [] => []
  | i, l :: rest => (if owner i = w then l.toList else []) ++ loopsOf owner w (i + 1) rest

/-- What the journal of a session tells about a worker. -/
def journalOf (w : Nat) (journal : List (Nat × Occurrence)) : List Occurrence :=
  journal.filterMap fun p => if p.1 = w then some p.2 else none

section

variable {owner : Nat → Nat} {w : Nat}

theorem loopsOf_append (i : Nat) (a b : List (Option DispatchLoop)) :
    loopsOf owner w i (a ++ b) = loopsOf owner w i a ++ loopsOf owner w (i + a.length) b := by
  induction a generalizing i with
  | nil => rfl
  | cons l rest ih =>
    simp only [List.cons_append, loopsOf, ih, List.append_assoc, List.length_cons]
    rw [Nat.add_assoc, Nat.add_comm 1]

/-- The place of a loop among those of its worker. -/
theorem loopsOf_set {loops : List (Option DispatchLoop)} {l : Nat} {x : Option DispatchLoop}
    (place : loops[l]? = some x) (own : owner l = w) :
    ∃ pre post, loopsOf owner w 0 loops = pre ++ (x.toList ++ post)
      ∧ ∀ y, loopsOf owner w 0 (loops.set l y) = pre ++ (y.toList ++ post) := by
  obtain ⟨bound, rfl⟩ := List.getElem?_eq_some_iff.mp place
  have length : (loops.take l).length = l := List.length_take_of_le (Nat.le_of_lt bound)
  have split : ∀ y, loopsOf owner w 0 (loops.take l ++ y :: loops.drop (l + 1))
      = loopsOf owner w 0 (loops.take l)
        ++ (y.toList ++ loopsOf owner w (l + 1) (loops.drop (l + 1))) := by
    intro y
    rw [loopsOf_append, length, Nat.zero_add, loopsOf, if_pos own]
  refine ⟨loopsOf owner w 0 (loops.take l), loopsOf owner w (l + 1) (loops.drop (l + 1)), ?_, ?_⟩
  · rw [← split, ← List.drop_eq_getElem_cons bound, List.take_append_drop]
  · intro y
    rw [List.set_eq_take_append_cons_drop, if_pos bound]
    exact split y

theorem loopsOf_set_other {loops : List (Option DispatchLoop)} {l : Nat} (x : Option DispatchLoop)
    (other : owner l ≠ w) : loopsOf owner w 0 (loops.set l x) = loopsOf owner w 0 loops := by
  by_cases bound : l < loops.length
  · have length : (loops.take l).length = l := List.length_take_of_le (Nat.le_of_lt bound)
    have split : ∀ y, loopsOf owner w 0 (loops.take l ++ y :: loops.drop (l + 1))
        = loopsOf owner w 0 (loops.take l) ++ loopsOf owner w (l + 1) (loops.drop (l + 1)) := by
      intro y
      rw [loopsOf_append, length, Nat.zero_add, loopsOf, if_neg other, List.nil_append]
    have whole : loops.take l ++ loops[l] :: loops.drop (l + 1) = loops := by
      rw [← List.drop_eq_getElem_cons bound, List.take_append_drop]
    rw [List.set_eq_take_append_cons_drop, if_pos bound, split, ← split loops[l], whole]
  · rw [List.set_eq_of_length_le (Nat.le_of_not_lt bound)]

theorem loopsOf_concat (loops : List (Option DispatchLoop)) (x : Option DispatchLoop) :
    loopsOf owner w 0 (loops ++ [x])
      = loopsOf owner w 0 loops ++ if owner loops.length = w then x.toList else [] := by
  rw [loopsOf_append, Nat.zero_add, loopsOf, loopsOf, List.append_nil]

theorem mem_loopsOf {loops : List (Option DispatchLoop)} {l : DispatchLoop} {i : Nat}
    (h : l ∈ loopsOf owner w i loops) : ∃ k, loops[k]? = some (some l) ∧ owner (i + k) = w := by
  induction loops generalizing i with
  | nil => cases h
  | cons x rest ih =>
    rw [loopsOf] at h
    rcases List.mem_append.mp h with first | later
    · split at first
      · next own => exact ⟨0, congrArg some (Option.mem_toList.mp first), own⟩
      · cases first
    · obtain ⟨k, hk, own⟩ := ih later
      exact ⟨k + 1, hk, by rw [← own]; congr 1; omega⟩

theorem journalOf_append (a b : List (Nat × Occurrence)) :
    journalOf w (a ++ b) = journalOf w a ++ journalOf w b := List.filterMap_append

theorem journalOf_own (os : List Occurrence) : journalOf w (os.map fun o => (w, o)) = os := by
  induction os with
  | nil => rfl
  | cons o rest ih => simp_all [journalOf]

theorem journalOf_other {i : Nat} (h : i ≠ w) (os : List Occurrence) :
    journalOf w (os.map fun o => (i, o)) = [] := by
  simp [journalOf, h]

end

/-- A view whose worker has done nothing yet: nothing is registered, set, queued
or noted, and no loop has begun. -/
structure View.Fresh (v : View) : Prop where
  registry : v.station.worker.registry = .empty
  timers : v.station.worker.bridge.timers = .empty
  known : (v.station.host.context? v.station.context).isSome
  queue : v.station.queue = []
  journal : v.station.journal = []
  loops : ∀ l ∈ v.loops, l = .start

namespace Session

variable {L : Law} {owner : Nat → Nat} {w : Nat} {id : ContextId} {s t : Session}
  {worker : Worker}

/-- A session as one of its workers sees it. -/
def view (owner : Nat → Nat) (w : Nat) (s : Session) (worker : Worker) : View :=
  ⟨loopsOf owner w 0 s.loops, ⟨s.host, worker, journalOf w s.journal⟩⟩

/-- A worker that has its context to itself. -/
structure Alone (w : Nat) (id : ContextId) (s : Session) (worker : Worker) : Prop where
  member : s.workers[w]? = some worker
  context : worker.bridge.context = id
  known : (s.host.context? id).isSome
  others : ∀ i other, i ≠ w → s.workers[i]? = some other → other.bridge.context ≠ id

theorem path_host (later : s.host.Later t.host) (alone : Alone w id s worker)
    (same : t.host.context? id = s.host.context? id)
    (loops : loopsOf owner w 0 t.loops = loopsOf owner w 0 s.loops)
    (journal : journalOf w t.journal = journalOf w s.journal) :
    View.Path (L.calls w) (s.view owner w worker) (t.view owner w worker) := by
  have same' : t.host.context? worker.bridge.context = s.host.context? worker.bridge.context := by
    rw [alone.context]
    exact same
  unfold view
  rw [loops, journal]
  exact .single (.elsewhere _ ⟨s.host, worker, journalOf w s.journal⟩ t.host later same')

theorem known_later {h k : Host} (known : (h.context? id).isSome) (later : h.Later k) :
    (k.context? id).isSome := by
  obtain ⟨c, hc⟩ := Option.isSome_iff_exists.mp known
  obtain ⟨d, hd, -⟩ := later.known id c hc
  rw [hd]
  rfl

theorem ne_next {h : Host} (known : (h.context? id).isSome) :
    id ≠ .spawned h.contexts.length := by
  rintro rfl
  simp [Host.context?] at known

theorem context?_makeContext {h k : Host} {c : Context} (known : (h.context? id).isSome)
    (contexts : k.contexts = h.contexts ++ [c]) : k.context? id = h.context? id := by
  cases id with
  | foreign u => rfl
  | spawned i =>
    obtain ⟨d, hd⟩ := Option.isSome_iff_exists.mp known
    have bound := (List.getElem?_eq_some_iff.mp hd).1
    simp only [Host.context?, contexts]
    exact List.getElem?_append_left bound

/-- A new worker is none of the others' concern. -/
theorem alone_append (alone : Alone w id s worker) {handle : ContextHandle} {new : Worker}
    (isNew : IsNew new handle) (other : handle.context ≠ id) (later : s.host.Later t.host)
    (workers : t.workers = s.workers ++ [new]) : Alone w id t worker where
  member := by
    have bound := (List.getElem?_eq_some_iff.mp alone.member).1
    rw [workers, List.getElem?_append_left bound]
    exact alone.member
  context := alone.context
  known := known_later alone.known later
  others i k hi hk := by
    rw [workers] at hk
    rcases getElem?_concat_cases hk with old | ⟨-, rfl⟩
    · exact alone.others i k hi old
    · rw [isNew.bridge]
      exact other

theorem alone_same (alone : Alone w id s worker) (later : s.host.Later t.host)
    (workers : t.workers = s.workers) : Alone w id t worker where
  member := workers ▸ alone.member
  context := alone.context
  known := known_later alone.known later
  others i k hi hk := alone.others i k hi (workers ▸ hk)

/-- A worker that acts keeps its context. -/
theorem alone_set (alone : Alone w id s worker) {i : Nat} {actor : Worker} {u : Station}
    (member : s.workers[i]? = some actor) (keeps : Station.Keeps ⟨s.host, actor, []⟩ u)
    (host : t.host = u.host) (workers : t.workers = s.workers.set i u.worker) :
    Alone w id t (if i = w then u.worker else worker) := by
  have context : u.worker.bridge.context = actor.bridge.context := keeps.context
  have bound := (List.getElem?_eq_some_iff.mp member).1
  constructor
  · rw [workers]
    split
    · next e =>
      subst e
      exact List.getElem?_set_self bound
    · next e => rw [List.getElem?_set_ne e]; exact alone.member
  · split
    · next e =>
      subst e
      rw [context, ← alone.context, Option.some.inj (member.symm.trans alone.member)]
    · exact alone.context
  · rw [host]
    exact known_later alone.known keeps.host.toLater
  · intro k other hk hother
    rw [workers] at hother
    by_cases e : i = k
    · subst e
      rw [List.getElem?_set_self bound] at hother
      rw [← Option.some.inj hother, context]
      exact alone.others i actor hk member
    · rw [List.getElem?_set_ne e] at hother
      exact alone.others k other hk hother

theorem path_others (alone : Alone w id s worker) {i : Nat} (hi : i ≠ w) {actor : Worker}
    {u : Station} (member : s.workers[i]? = some actor)
    (keeps : Station.Keeps ⟨s.host, actor, []⟩ u) (host : t.host = u.host)
    (loops : loopsOf owner w 0 t.loops = loopsOf owner w 0 s.loops)
    (journal : t.journal = s.journal ++ u.journal.map fun o => (i, o)) :
    View.Path (L.calls w) (s.view owner w worker) (t.view owner w worker) := by
  have elsewhere : id ≠ actor.bridge.context := fun e => alone.others i actor hi member e.symm
  refine path_host (host ▸ keeps.host.toLater) alone ?_ loops ?_
  · rw [host]
    exact keeps.host.others id elsewhere
  · rw [journal, journalOf_append, journalOf_other hi, List.append_nil]

theorem path_own {loops loops' : List DispatchLoop} {u : Station}
    (moves : View.Moves (L.calls w) ⟨loops, ⟨s.host, worker, []⟩⟩ ⟨loops', u⟩)
    (host : t.host = u.host) (before : loopsOf owner w 0 s.loops = loops)
    (after : loopsOf owner w 0 t.loops = loops')
    (journal : t.journal = s.journal ++ u.journal.map fun o => (w, o)) :
    View.Path (L.calls w) (s.view owner w worker) (t.view owner w u.worker) := by
  have resumed := View.moves_after (journalOf w s.journal) moves
  unfold view
  rw [host, before, after, journal, journalOf_append, journalOf_own]
  simp only [View.after, Station.after, List.append_nil] at resumed
  exact View.path_of_moves resumed

/-- Every command moves the view of a worker that is alone in its context. -/
theorem path_change (owns : ∀ l i, L.steps l i → owner l = i)
    (apart : ∀ handle, L.adopts handle → handle.context ≠ id) (alone : Alone w id s worker)
    (h : Change L s t) : ∃ worker', Alone w id t worker'
      ∧ View.Path (L.calls w) (s.view owner w worker) (t.view owner w worker') := by
  cases h with
  | idle host contexts workers loops journal =>
    exact ⟨worker, alone_same alone host workers,
      path_host host alone (Host.context?_congr contexts id) (by rw [loops]) (by rw [journal])⟩
  | spawned handle new isNew serial host contexts workers loops journal =>
    have other : handle.context ≠ id := fun e => ne_next alone.known (e.symm.trans serial)
    exact ⟨worker, alone_append alone isNew other host workers,
      path_host host alone (context?_makeContext alone.known contexts) (by rw [loops])
        (by rw [journal])⟩
  | adopted handle new isNew allowed host workers loops journal =>
    have later : s.host.Later t.host := host ▸ .refl s.host
    exact ⟨worker, alone_append alone isNew (apart handle allowed) later workers,
      path_host later alone (by rw [host]) (by rw [loops]) (by rw [journal])⟩
  | looped host workers loops journal =>
    have later : s.host.Later t.host := host ▸ .refl s.host
    refine ⟨worker, alone_same alone later workers, ?_⟩
    unfold view
    rw [host, loops, journal, loopsOf_concat]
    split
    · have entered : View.Move (L.calls w) ⟨loopsOf owner w 0 s.loops ++ [], _⟩ _ :=
        .enter (loopsOf owner w 0 s.loops) [] ⟨s.host, worker, journalOf w s.journal⟩
      rw [List.append_nil] at entered
      exact .single (.move entered)
    · rw [List.append_nil]
  | worked i actor u member moves rests host workers loops journal =>
    have keeps := View.keeps_moves (moves [])
    refine ⟨_, alone_set alone member keeps host workers, ?_⟩
    by_cases hi : i = w
    · subst hi
      obtain rfl := Option.some.inj (member.symm.trans alone.member)
      rw [if_pos rfl]
      exact path_own (moves _) host rfl (by rw [loops]) journal
    · rw [if_neg hi]
      exact path_others alone hi member keeps host (by rw [loops]) journal
  | turned i l actor loop next u member place allowed moves rests host workers loops journal =>
    have keeps := View.keeps_moves (moves [] [])
    refine ⟨_, alone_set alone member keeps host workers, ?_⟩
    by_cases hi : i = w
    · subst hi
      obtain rfl := Option.some.inj (member.symm.trans alone.member)
      obtain ⟨pre, post, before, after⟩ := loopsOf_set place (owns l i allowed)
      rw [if_pos rfl]
      exact path_own (moves pre post) host before (by rw [loops, after]) journal
    · have other : owner l ≠ w := fun e => hi ((owns l i allowed).symm.trans e)
      rw [if_neg hi]
      exact path_others alone hi member keeps host (by rw [loops, loopsOf_set_other _ other]) journal

/-! ### From the beginning -/

/-- What holds of a session before a worker has come: its journal tells nothing
about the worker, its loops have not begun, and no other worker has a context that
the host has still to make. -/
structure Sound (L : Law) (owner : Nat → Nat) (s : Session) : Prop where
  lawful : Lawful L s
  noted : ∀ p ∈ s.journal, p.1 < s.workers.length
  unbegun : ∀ l loop, s.loops[l]? = some (some loop) → s.workers.length ≤ owner l → loop = .start
  placed : ∀ (i : Nat) (worker : Worker), s.workers[i]? = some worker →
    (s.host.context? worker.bridge.context).isSome
      ∨ ∃ handle, L.adopts handle ∧ handle.context = worker.bridge.context

theorem sound_ofHost (h : Host) : Sound L owner (ofHost h) where
  lawful i worker hw := by cases hw
  noted p hp := by cases hp
  unbegun l loop hl := by cases hl
  placed i worker hw := by cases hw

/-- What a command changes about the workers: nothing, or one comes, or one acts. -/
inductive Crew (L : Law) (s t : Session) : Prop
  | same (workers : t.workers = s.workers) (journal : t.journal = s.journal)
  | hired (handle : ContextHandle) (new : Worker) (isNew : IsNew new handle)
      (placed : (t.host.context? handle.context).isSome ∨ L.adopts handle)
      (workers : t.workers = s.workers ++ [new]) (journal : t.journal = s.journal)
  | acted (i : Nat) (actor : Worker) (u : Station) (acting : s.workers[i]? = some actor)
      (keeps : Station.Keeps ⟨s.host, actor, []⟩ u) (workers : t.workers = s.workers.set i u.worker)
      (journal : t.journal = s.journal ++ u.journal.map fun o => (i, o))

theorem crew_change (h : Change L s t) : s.host.Later t.host ∧ Crew L s t := by
  cases h with
  | idle host contexts workers loops journal => exact ⟨host, .same workers journal⟩
  | spawned handle new isNew serial host contexts workers loops journal =>
    have known : (t.host.context? handle.context).isSome := by
      simp [serial, Host.context?, contexts]
    exact ⟨host, .hired handle new isNew (Or.inl known) workers journal⟩
  | adopted handle new isNew allowed host workers loops journal =>
    exact ⟨host ▸ .refl s.host, .hired handle new isNew (Or.inr allowed) workers journal⟩
  | looped host workers loops journal => exact ⟨host ▸ .refl s.host, .same workers journal⟩
  | worked i actor u acting moves rests host workers loops journal =>
    have keeps := View.keeps_moves (moves [])
    exact ⟨host ▸ keeps.host.toLater, .acted i actor u acting keeps workers journal⟩
  | turned i l actor loop next u acting place allowed moves rests host workers loops journal =>
    have keeps := View.keeps_moves (moves [] [])
    exact ⟨host ▸ keeps.host.toLater, .acted i actor u acting keeps workers journal⟩

theorem length_crew (h : Crew L s t) : s.workers.length ≤ t.workers.length := by
  cases h with
  | same workers journal => exact Nat.le_of_eq (congrArg List.length workers.symm)
  | hired handle new isNew placed workers journal =>
    rw [workers, List.length_append]
    exact Nat.le_add_right _ _
  | acted i actor u acting keeps workers journal =>
    have same : t.workers.length = s.workers.length := by rw [workers, List.length_set]
    exact Nat.le_of_eq same.symm

/-- A worker's handle and context are what they were. -/
theorem member_crew (h : Crew L s t) (member : s.workers[w]? = some worker) :
    ∃ worker', t.workers[w]? = some worker' ∧ worker'.handle = worker.handle
      ∧ worker'.bridge.context = worker.bridge.context := by
  have bound := (List.getElem?_eq_some_iff.mp member).1
  cases h with
  | same workers journal => exact ⟨worker, workers ▸ member, rfl, rfl⟩
  | hired handle new isNew placed workers journal =>
    exact ⟨worker, by rw [workers, List.getElem?_append_left bound]; exact member, rfl, rfl⟩
  | acted i actor u acting keeps workers journal =>
    rw [workers]
    by_cases e : i = w
    · subst e
      obtain rfl := Option.some.inj (acting.symm.trans member)
      exact ⟨u.worker, List.getElem?_set_self bound, keeps.handle, keeps.context⟩
    · exact ⟨worker, by rw [List.getElem?_set_ne e]; exact member, rfl, rfl⟩

/-- Only workers that are there write into the journal. -/
theorem noted_crew (noted : ∀ p ∈ s.journal, p.1 < s.workers.length) (h : Crew L s t) :
    ∀ p ∈ t.journal, p.1 < t.workers.length := by
  have grows := length_crew h
  have old : ∀ p ∈ s.journal, p.1 < t.workers.length :=
    fun p hp => Nat.lt_of_lt_of_le (noted p hp) grows
  cases h with
  | same workers journal => exact journal ▸ old
  | hired handle new isNew placed workers journal => exact journal ▸ old
  | acted i actor u acting keeps workers journal =>
    intro p hp
    rw [journal] at hp
    rcases List.mem_append.mp hp with before | new
    · exact old p before
    · obtain ⟨o, -, rfl⟩ := List.mem_map.mp new
      exact Nat.lt_of_lt_of_le (List.getElem?_eq_some_iff.mp acting).1 grows

/-- Every worker's context is known to the host, or was adopted. -/
theorem placed_crew (hs : Sound L owner s) (later : s.host.Later t.host) (h : Crew L s t) :
    ∀ (i : Nat) (worker : Worker), t.workers[i]? = some worker →
      (t.host.context? worker.bridge.context).isSome
        ∨ ∃ handle, L.adopts handle ∧ handle.context = worker.bridge.context := by
  have old : ∀ (i : Nat) (worker : Worker) (context : ContextId), s.workers[i]? = some worker →
      context = worker.bridge.context → (t.host.context? context).isSome
        ∨ ∃ handle, L.adopts handle ∧ handle.context = context := by
    rintro i worker context hw rfl
    exact (hs.placed i worker hw).imp_left fun known => known_later known later
  intro i worker hw
  cases h with
  | same workers journal => exact old i worker _ (workers ▸ hw) rfl
  | hired handle new isNew placed workers journal =>
    rw [workers] at hw
    rcases getElem?_concat_cases hw with before | ⟨-, rfl⟩
    · exact old i worker _ before rfl
    · rw [isNew.bridge]
      exact placed.imp_right fun adopted => ⟨handle, adopted, rfl⟩
  | acted k actor u acting keeps workers journal =>
    rw [workers] at hw
    by_cases e : k = i
    · subst e
      rw [List.getElem?_set_self (List.getElem?_eq_some_iff.mp acting).1] at hw
      obtain rfl := Option.some.inj hw
      exact old k actor _ acting keeps.context
    · rw [List.getElem?_set_ne e] at hw
      exact old i worker _ hw rfl

/-- Loops of workers that are still to come are not moved. -/
theorem unbegun_change (owns : ∀ l i, L.steps l i → owner l = i) (hs : Sound L owner s)
    (h : Change L s t) : ∀ (l : Nat) (loop : DispatchLoop), t.loops[l]? = some (some loop) →
      t.workers.length ≤ owner l → loop = .start := by
  have grows := length_crew (crew_change h).2
  have old : t.loops = s.loops → ∀ (l : Nat) (loop : DispatchLoop),
      t.loops[l]? = some (some loop) → t.workers.length ≤ owner l → loop = .start :=
    fun loops l loop hl later =>
      hs.unbegun l loop (loops ▸ hl) (Nat.le_trans grows later)
  cases h with
  | idle host contexts workers loops journal => exact old loops
  | spawned handle new isNew serial host contexts workers loops journal => exact old loops
  | adopted handle new isNew allowed host workers loops journal => exact old loops
  | looped host workers loops journal =>
    intro l loop hl later
    rw [loops] at hl
    rcases getElem?_concat_cases hl with before | ⟨-, new⟩
    · exact hs.unbegun l loop before (Nat.le_trans grows later)
    · exact Option.some.inj new
  | worked i actor u acting moves rests host workers loops journal => exact old loops
  | turned i l actor loop next u acting place allowed moves rests host workers loops journal =>
    intro k other hk later
    have here := (List.getElem?_eq_some_iff.mp acting).1
    have hne : l ≠ k := by
      rintro rfl
      have := owns l i allowed
      omega
    rw [loops, List.getElem?_set_ne hne] at hk
    exact hs.unbegun k other hk (Nat.le_trans grows later)

theorem sound_change (owns : ∀ l i, L.steps l i → owner l = i) (hs : Sound L owner s)
    (h : Change L s t) : Sound L owner t := by
  obtain ⟨later, crew⟩ := crew_change h
  exact ⟨lawful_change hs.lawful h, noted_crew hs.noted crew, unbegun_change owns hs h,
    placed_crew hs later crew⟩

/-- A worker begins with nothing, alone in its context. -/
theorem fresh_spawned (hs : Sound L owner s) {handle : ContextHandle} {new : Worker}
    (isNew : IsNew new handle) (serial : handle.context = .spawned s.host.contexts.length)
    (apart : ∀ other, L.adopts other → other.context ≠ handle.context)
    (contexts : t.host.contexts = s.host.contexts ++ [⟨handle, .empty, 0⟩])
    (workers : t.workers = s.workers ++ [new]) (loops : t.loops = s.loops)
    (journal : t.journal = s.journal) :
    (t.view owner s.workers.length new).Fresh
      ∧ Alone s.workers.length handle.context t new := by
  have context : new.bridge.context = handle.context := by rw [isNew.bridge]; rfl
  have made : t.host.context? handle.context = some ⟨handle, .empty, 0⟩ := by
    simp [serial, Host.context?, contexts]
  refine ⟨⟨isNew.registry, ?_, ?_, ?_, ?_, ?_⟩, ⟨?_, context, by rw [made]; rfl, ?_⟩⟩
  · show new.bridge.timers = .empty
    rw [isNew.bridge]
    rfl
  · show (t.host.context? new.bridge.context).isSome
    rw [context, made]
    rfl
  · show t.host.queuedIds new.bridge.context = []
    rw [context, Host.queuedIds_of_context? made]
    rfl
  · -- the worker has not written anything yet
    show journalOf s.workers.length t.journal = []
    rw [journal, journalOf, List.filterMap_eq_nil_iff]
    intro p hp
    exact if_neg (Nat.ne_of_lt (hs.noted p hp))
  · intro l hl
    obtain ⟨k, place, own⟩ := mem_loopsOf hl
    rw [loops] at place
    rw [Nat.zero_add] at own
    exact hs.unbegun k l place (Nat.le_of_eq own.symm)
  · rw [workers]
    exact List.getElem?_concat_length
  · intro i other hi hother
    rw [workers] at hother
    rcases getElem?_concat_cases hother with before | ⟨last, -⟩
    · rcases hs.placed i other before with known | ⟨adoptee, allowed, e⟩
      · rw [serial]
        exact ne_next known
      · exact e ▸ apart adoptee allowed
    · exact absurd last hi

theorem sound_play (owns : ∀ l i, L.steps l i → owner l = i) (h : Host) {commands : List Command}
    (obeys : ∀ c ∈ commands, c.Obeys L) :
    Sound L owner ((ofHost h).play commands) ∧ h.Later ((ofHost h).play commands).host := by
  induction commands using List.reverseRecOn with
  | nil => exact ⟨sound_ofHost h, .refl h⟩
  | append_singleton commands c ih =>
    obtain ⟨sound, later⟩ := ih fun d hd => obeys d (List.mem_append_left _ hd)
    have change := change_exec sound.lawful (obeys c (List.mem_append_right _ List.mem_cons_self))
    rw [play_concat]
    exact ⟨sound_change owns sound change, later.trans (crew_change change).1⟩

/-- A worker that was not there before the change has just been made. -/
theorem fresh_change (hs : Sound L owner s) (h : Change L s t)
    (absent : s.workers.length ≤ w) (member : t.workers[w]? = some worker)
    (apart : ∀ handle, L.adopts handle → handle.context ≠ worker.bridge.context) :
    (t.view owner w worker).Fresh ∧ Alone w worker.bridge.context t worker := by
  have bound := (List.getElem?_eq_some_iff.mp member).1
  have last : ∀ new, t.workers = s.workers ++ [new] → w = s.workers.length ∧ worker = new := by
    intro new workers
    rw [workers] at member
    rcases getElem?_concat_cases member with before | here
    · have := (List.getElem?_eq_some_iff.mp before).1
      omega
    · exact here
  cases h with
  | spawned handle new isNew serial host contexts workers loops journal =>
    obtain ⟨rfl, rfl⟩ := last new workers
    have context : worker.bridge.context = handle.context := by rw [isNew.bridge]; rfl
    rw [context] at apart ⊢
    exact fresh_spawned hs isNew serial apart contexts workers loops journal
  | adopted handle new isNew allowed host workers loops journal =>
    obtain ⟨-, rfl⟩ := last new workers
    exact absurd (by rw [isNew.bridge]; rfl) (apart handle allowed)
  | idle host contexts workers loops journal => rw [workers] at bound; omega
  | looped host workers loops journal => rw [workers] at bound; omega
  | worked i actor u acting moves rests host workers loops journal =>
    rw [workers, List.length_set] at bound
    omega
  | turned i l actor loop next u acting place allowed moves rests host workers loops journal =>
    rw [workers, List.length_set] at bound
    omega

/-- From its beginning on, a worker that nobody shares a context with moves along a
path, whatever the session does. -/
theorem path_play (owns : ∀ l i, L.steps l i → owner l = i) {h : Host} {commands : List Command}
    (obeys : ∀ c ∈ commands, c.Obeys L)
    (member : ((ofHost h).play commands).workers[w]? = some worker)
    (apart : ∀ handle, L.adopts handle → handle.context ≠ worker.bridge.context) :
    ∃ v, v.Fresh ∧ h.Later v.station.host ∧ v.station.context = worker.bridge.context
      ∧ View.Path (L.calls w) v (((ofHost h).play commands).view owner w worker)
      ∧ Alone w worker.bridge.context ((ofHost h).play commands) worker := by
  induction commands using List.reverseRecOn generalizing worker with
  | nil => cases member
  | append_singleton commands c ih =>
    have before : ∀ d ∈ commands, d.Obeys L := fun d hd => obeys d (List.mem_append_left _ hd)
    obtain ⟨sound, later⟩ := sound_play owns h before
    have change := change_exec sound.lawful (obeys c (List.mem_append_right _ List.mem_cons_self))
    rw [play_concat] at member ⊢
    obtain ⟨later', crew⟩ := crew_change change
    by_cases present : w < ((ofHost h).play commands).workers.length
    · obtain ⟨worker', member', -, context⟩ :=
        member_crew crew (List.getElem?_eq_getElem present)
      obtain rfl := Option.some.inj (member'.symm.trans member)
      rw [context] at apart ⊢
      obtain ⟨v, fresh, hv, same, path, alone⟩ :=
        ih before (List.getElem?_eq_getElem present) apart
      obtain ⟨worker'', alone', step⟩ := path_change owns apart alone change
      obtain rfl := Option.some.inj (alone'.member.symm.trans member)
      exact ⟨v, fresh, hv, same, path.trans step, alone'⟩
    · obtain ⟨fresh, alone⟩ :=
        fresh_change sound change (Nat.le_of_not_lt present) member apart
      exact ⟨_, fresh, later.trans later', rfl, .refl, alone⟩

/-- The views of a worker that sessions on a host reach: the worker's view after any
commands that obey the law, and every view that steps lead to from there, such as
those while its next callbacks run. No other worker has the worker's context. -/
inductive Reaches (L : Law) (owner : Nat → Nat) (h : Host) (w : Nat) (v : View) : Prop
  | intro (commands : List Command) (worker : Worker) (obeys : ∀ c ∈ commands, c.Obeys L)
      (member : ((ofHost h).play commands).workers[w]? = some worker)
      (apart : ∀ handle, L.adopts handle → handle.context ≠ worker.bridge.context)
      (path : View.Path (L.calls w) (((ofHost h).play commands).view owner w worker) v)

/-- Every view that is reached comes from a fresh one. -/
theorem Reaches.path {h : Host} {v : View} (owns : ∀ l i, L.steps l i → owner l = i)
    (reached : Reaches L owner h w v) :
    ∃ u, u.Fresh ∧ h.Later u.station.host ∧ View.Path (L.calls w) u v := by
  obtain ⟨commands, worker, obeys, member, apart, path⟩ := reached
  obtain ⟨u, fresh, later, -, before, -⟩ := path_play owns obeys member apart
  exact ⟨u, fresh, later, before.trans path⟩

end Session
end TaskHost
