/-
# Waiting never deadlocks

Any number of callers share one host. A caller that is free asks the host for
something; a caller that waits for a result or for its timers looks whether they are
there, drives the host if they are not, and blocks if the drive fires nothing. The
calls of different callers follow one another in any order (`Crowd.Step`), so the
host may change between a look and the drive that follows it.

A caller whose drive fired nothing found no timer pending, so everything that it
holds has its outcome, and keeps it (`Caller.Sound`). Each call preserves this
(`Caller.sound_ask`, `Caller.sound_turn`), hence no caller is ever stuck
(`Crowd.never_deadlocks`). A caller whose wait nobody disturbs comes to the same end
as `Host.await` or `Bridge.poll` (`Caller.alone_waits`, `Caller.alone_polls`).

Key definitions: `Phase`, `Caller`, `Caller.ask`, `Caller.turn?`, `Caller.Alone`,
`Crowd`, `Crowd.Step`, `Caller.Sound`.
Key theorems: `Caller.sound_ask`, `Caller.sound_turn`, `Caller.alone_waits`,
`Caller.alone_polls`, `Crowd.never_deadlocks`.
-/
import Mathlib.Logic.Relation
import TaskHost.Session
import TaskHost.Proofs.Ownership

namespace TaskHost

variable {φ : Type}

/-! ### Deferred results -/

/-- Takes the result out of a slot, if it is there by now. -/
def Slot.take (slot : Slot) (h : Host) : Option (Except HostError Answer) × Slot :=
  let slot := slot.refresh h
  let (r, cell) := slot.cell.tryTake
  (r, { slot with cell := cell })

/-- The host after starting an operation, and the slot for its result. -/
def Session.Operation.serve (h : Host) : Session.Operation → Host × Slot
  | .timer delay =>
    let (h, signal) := h.setTimeout delay
    (h, .ofSignal signal)
  | .read path =>
    let (h, c) := h.loadFile path
    (h, .ofCompletion ⟨c.seq, c.result.map .bytes⟩)
  | .write path contents =>
    let (h, c) := h.storeFile path contents
    (h, .ofCompletion ⟨c.seq, c.result.map fun () => .done⟩)
  | .fetch url =>
    let (h, c) := h.fetch url
    (h, .ofCompletion ⟨c.seq, c.result.map .response⟩)

theorem Session.begin_eq (s : Session) (op : Session.Operation) :
    s.begin op = { s with host := (op.serve s.host).1 }.addSlot (op.serve s.host).2 := by
  cases op <;> rfl

/-! ### Callers -/

/-- What a caller waits for: the result in one of its slots, or its timers. -/
inductive Goal where
  | slot (i : Nat)
  | timers

/-- Where a caller stands. It is free to ask the host for something, or it waits: it
is about to look, or has found nothing and is about to drive the host, or is blocked
because a drive fired nothing. -/
inductive Phase where
  | free
  | looking (g : Goal)
  | driving (g : Goal)
  | blocked (g : Goal)

/-- The drives that the next turn in a phase makes. -/
def Phase.drives : Phase → Nat
  | .driving _ => 1
  | _ => 0

/-- Whether a caller in a phase is free or about to look. -/
def Phase.Calm : Phase → Prop
  | .free => True
  | .looking _ => True
  | _ => False

/-- What a caller is handed. -/
inductive Handed (φ : Type) where
  | result (r : Except HostError Answer)
  | timers (ready : List (ReadyTimer φ))

/-- One of those who call a host: its bridge with the timers it has set, its deferred
results, where it stands and what it was handed last. -/
structure Caller (φ : Type) where
  bridge : Bridge φ
  slots : List Slot
  phase : Phase
  handed : Option (Handed φ)

/-- What a caller that is free can ask for. -/
inductive Ask (φ : Type) where
  | request (r : Host.Request)
  | start (op : Session.Operation)
  | setTimeout (delay : Duration) (callback : φ)
  | take (i : Nat)
  | takeReady
  | wait (i : Nat)
  | poll

/-- The signal that the host gives out when it is asked. -/
def Ask.signal? (h : Host) : Ask φ → Option Signal
  | .start (.timer delay) => some (h.setTimeout delay).2
  | .setTimeout delay _ => some (h.setTimeout delay).2
  | _ => none

namespace Caller

/-- A caller with nothing, for a context. -/
def new (context : ContextId) : Caller φ := ⟨.ofContext context, [], .free, none⟩

/-- The signals that a caller holds. -/
def signals (c : Caller φ) : List Signal :=
  c.bridge.timers.waiting.map WaitingTimer.signal ++ c.slots.filterMap Slot.signal

/-- The caller in another phase. -/
def withPhase (c : Caller φ) (phase : Phase) : Caller φ := { c with phase := phase }

/-- Takes the result out of a slot; none if it is not there. -/
def takeSlot? (h : Host) (c : Caller φ) (i : Nat) : Option (Caller φ) :=
  match c.slots[i]? with
  | none => some c
  | some slot =>
    match slot.take h with
    | (some r, slot) => some { c with slots := c.slots.set i slot, handed := some (.result r) }
    | (none, _) => none

/-- Host and caller after the caller has asked for something. -/
def ask (h : Host) (c : Caller φ) : Ask φ → Host × Caller φ
  | .request r => (r.serve h, c)
  | .start op =>
    let (h, slot) := op.serve h
    (h, { c with slots := c.slots ++ [slot] })
  | .setTimeout delay callback =>
    let (bridge, h, _) := c.bridge.setTimeout h delay callback
    (h, { c with bridge := bridge })
  | .take i => (h, (c.takeSlot? h i).getD c)
  | .takeReady =>
    let (ready, bridge) := c.bridge.takeReady h
    (h, { c with bridge := bridge, handed := some (.timers ready) })
  | .wait i => (h, c.withPhase (.looking (.slot i)))
  | .poll => (h, c.withPhase (.looking .timers))

/-- Looks whether what the caller waits for is there. -/
def look (h : Host) (c : Caller φ) : Goal → Caller φ
  | .slot i =>
    match c.takeSlot? h i with
    | some d => d.withPhase .free
    | none => c.withPhase (.driving (.slot i))
  | .timers =>
    if c.bridge.timers.waiting.isEmpty then { c with phase := .free, handed := some (.timers []) }
    else
      match c.bridge.takeReady h with
      | (r :: rest, bridge) =>
        { c with bridge := bridge, phase := .free, handed := some (.timers (r :: rest)) }
      | ([], bridge) => { c with bridge := bridge, phase := .driving .timers }

/-- Ends the blocking, if what the caller is blocked on is there: the result in its
slot, or an outcome of the first of its timers. -/
def wake? (h : Host) (c : Caller φ) : Goal → Option (Caller φ)
  | .slot i => (c.takeSlot? h i).map fun d => d.withPhase .free
  | .timers =>
    match c.bridge.timers.waiting with
    | [] => some (c.withPhase (.looking .timers))
    | w :: _ =>
      if (h.completion? w.signal).isSome then some (c.withPhase (.looking .timers)) else none

/-- The next turn of a caller that waits; none while it has to stay blocked. -/
def turn? (h : Host) (c : Caller φ) : Option (Host × Caller φ) :=
  match c.phase with
  | .free => none
  | .looking g => some (h, c.look h g)
  | .driving g => some (h.drive.1, c.withPhase (if h.drive.2 then .looking g else .blocked g))
  | .blocked g => (c.wake? h g).map fun d => (h, d)

/-- Turns of a caller that nobody else disturbs, up to its being free, with the
number of drives in them. -/
inductive Alone : Nat → Host → Caller φ → Host → Caller φ → Prop
  | free {h : Host} {c : Caller φ} (free : c.phase = .free) : Alone 0 h c h c
  | turn {n : Nat} {h k l : Host} {c d e : Caller φ} (turned : c.turn? h = some (k, d))
      (rest : Alone n k d l e) : Alone (n + c.phase.drives) h c l e

end Caller

/-! ### Crowds -/

/-- A host, those who call it, and all signals that it has given out. -/
structure Crowd (φ : Type) where
  host : Host
  callers : List (Caller φ)
  issued : List Signal

namespace Crowd

/-- A call by one of the callers; a new one may join at any time. -/
inductive Step (s : Crowd φ) : Crowd φ → Prop
  | joined (context : ContextId) : Step s { s with callers := s.callers ++ [.new context] }
  | asked (i : Nat) (c : Caller φ) (a : Ask φ) (member : s.callers[i]? = some c)
      (free : c.phase = .free) :
      Step s ⟨(c.ask s.host a).1, s.callers.set i (c.ask s.host a).2,
        s.issued ++ (a.signal? s.host).toList⟩
  | turned (i : Nat) (c d : Caller φ) (h : Host) (member : s.callers[i]? = some c)
      (turned : c.turn? s.host = some (h, d)) : Step s ⟨h, s.callers.set i d, s.issued⟩

/-- Any number of calls, by any callers. -/
abbrev Reaches : Crowd φ → Crowd φ → Prop := Relation.ReflTransGen Step

end Crowd

/-! ### What the host has given out -/

/-- Whether a host has given a signal out for a timer. -/
def Host.Issued (h : Host) (σ : Signal) : Prop :=
  ∃ order < h.timers.nextOrder, σ = .scheduled order

/-- Whether a signal has its outcome, which is good. -/
def Host.Fired (h : Host) (σ : Signal) : Prop := ∃ seq, h.completion? σ = some ⟨seq, .ok ()⟩

namespace Host

variable {h k : Host} {σ : Signal}

theorem Issued.onward (issued : h.Issued σ) (onward : h.Onward k) : k.Issued σ := by
  obtain ⟨order, given, rfl⟩ := issued
  exact ⟨order, Nat.lt_of_lt_of_le given onward.orders, rfl⟩

theorem Fired.onward (fired : h.Fired σ) (onward : h.Onward k) : k.Fired σ := by
  obtain ⟨seq, found⟩ := fired
  exact ⟨seq, onward.completion? found⟩

theorem Issued.answers (issued : h.Issued σ) (owned : h.Owned) : h.Answers σ := by
  obtain ⟨order, given, rfl⟩ := issued
  rcases owned.scheduled given with ⟨pending, -⟩ | ⟨-, seq, found⟩
  · exact Or.inl pending
  · obtain ⟨seq, hs, -⟩ := Option.map_eq_some_iff.mp found
    exact Or.inr (by rw [hs]; rfl)

theorem Issued.fired (issued : h.Issued σ) (owned : h.Owned) (idle : h.drive.2 = false) :
    h.Fired σ := by
  obtain ⟨order, given, rfl⟩ := issued
  rcases owned.scheduled given with ⟨⟨t, pending, -⟩, -⟩ | ⟨-, found⟩
  · have driven := (drive_eq_true_iff h).mpr (List.ne_nil_of_mem pending)
    rw [idle] at driven
    cases driven
  · exact found

theorem issued_setTimeout (outages : h.outages.timers = 0) (delay : Duration) :
    (h.setTimeout delay).1.Issued (h.setTimeout delay).2 := by
  rw [setTimeout_eq_schedule outages]
  exact ⟨h.timers.nextOrder, Nat.lt_succ_self _, rfl⟩

end Host

theorem Session.Operation.onward_serve (h : Host) (op : Session.Operation) :
    h.Onward (op.serve h).1 := by
  cases op with
  | timer delay => exact Host.onward_setTimeout h delay
  | read path => exact .of_same rfl rfl rfl
  | write path contents => exact .of_same rfl rfl rfl
  | fetch url => exact .of_same rfl rfl rfl

namespace Caller

variable {h k l : Host} {c d : Caller φ} {i n : Nat}

/-! ### What keeps a caller from being stuck -/

/-- What holds of a caller at every time: the host has given out its signals for
timers; results that have no signal are there; it goes on to drive, and blocks, only
for a result that was not there; and while it is blocked everything that it holds has
its outcome. -/
structure Sound (h : Host) (c : Caller φ) : Prop where
  issued : ∀ σ ∈ c.signals, h.Issued σ
  there : ∀ slot ∈ c.slots, slot.signal = none → slot.cell ≠ .pending
  missing : ∀ i, c.phase = .driving (.slot i) ∨ c.phase = .blocked (.slot i) →
    ∃ σ, c.slots[i]? = some ⟨.pending, some σ⟩
  blocked : ∀ g, c.phase = .blocked g → ∀ σ ∈ c.signals, h.Fired σ

theorem Sound.onward (hc : c.Sound h) (onward : h.Onward k) : c.Sound k :=
  ⟨fun σ hσ => (hc.issued σ hσ).onward onward, hc.there, hc.missing,
    fun g hg σ hσ => (hc.blocked g hg σ hσ).onward onward⟩

theorem sound_calm (issued : ∀ σ ∈ d.signals, h.Issued σ)
    (there : ∀ slot ∈ d.slots, slot.signal = none → slot.cell ≠ .pending) (calm : d.phase.Calm) :
    d.Sound h := by
  refine ⟨issued, there, fun i hi => ?_, fun g hg => ?_⟩
  · rcases hi with hi | hi <;> rw [hi] at calm <;> exact calm.elim
  · rw [hg] at calm
    exact calm.elim

theorem sound_new (context : ContextId) : (new context : Caller φ).Sound h :=
  sound_calm (fun _ h => by cases h) (fun _ h => by cases h) trivial

/-! ### Taking results and timers -/

theorem take_cases (slot : Slot) (h : Host) :
    (slot.take h).2.signal = slot.signal
      ∧ ((slot.cell = .pending ∧ slot.signal.bind h.completion? = none
          ∧ (slot.take h).1 = none)
        ∨ (slot.take h).1.isSome ∧ (slot.take h).2.cell = .taken) := by
  obtain ⟨cell, signal⟩ := slot
  simp only [Slot.take, Slot.refresh]
  cases hf : signal.bind h.completion? with
  | none => cases cell <;> simp [Deferred.tryTake]
  | some c => cases cell <;> simp [Deferred.tryTake, Deferred.fill]

/-- Taking a result changes no signal, and leaves no slot empty. -/
theorem takeSlot?_facts (there : ∀ slot ∈ c.slots, slot.signal = none → slot.cell ≠ .pending)
    (taken : c.takeSlot? h i = some d) :
    d.phase = c.phase ∧ (∀ σ ∈ d.signals, σ ∈ c.signals)
      ∧ ∀ slot ∈ d.slots, slot.signal = none → slot.cell ≠ .pending := by
  unfold takeSlot? at taken
  cases hs : c.slots[i]? with
  | none =>
    rw [hs] at taken
    obtain rfl := Option.some.inj taken
    exact ⟨rfl, fun _ hσ => hσ, there⟩
  | some slot =>
    obtain ⟨signal, outcome⟩ := take_cases slot h
    rw [hs] at taken
    simp only at taken
    split at taken
    · next r left ht =>
      obtain rfl := Option.some.inj taken
      rw [ht] at signal outcome
      have emptied : left.cell = .taken := by
        rcases outcome with ⟨-, -, none⟩ | ⟨-, cell⟩
        · cases none
        · exact cell
      refine ⟨rfl, fun σ hσ => ?_, fun other ho => ?_⟩
      · rcases List.mem_append.mp hσ with timer | deferred
        · exact List.mem_append_left _ timer
        · obtain ⟨other, ho, same⟩ := List.mem_filterMap.mp deferred
          refine List.mem_append_right _ (List.mem_filterMap.mpr ?_)
          rcases List.mem_or_eq_of_mem_set ho with old | rfl
          · exact ⟨other, old, same⟩
          · exact ⟨slot, List.mem_of_getElem? hs, signal.symm.trans same⟩
      · rcases List.mem_or_eq_of_mem_set ho with old | rfl
        · exact there other old
        · rw [emptied]
          exact fun _ h => by cases h
    · cases taken

/-- A result is missing only in a slot whose timer has not fired. -/
theorem missing_of_takeSlot? (there : ∀ slot ∈ c.slots, slot.signal = none → slot.cell ≠ .pending)
    (missing : c.takeSlot? h i = none) :
    ∃ σ, c.slots[i]? = some ⟨.pending, some σ⟩ ∧ h.completion? σ = none := by
  unfold takeSlot? at missing
  cases hs : c.slots[i]? with
  | none => rw [hs] at missing; cases missing
  | some slot =>
    obtain ⟨-, outcome⟩ := take_cases slot h
    rw [hs] at missing
    simp only at missing
    split at missing
    · cases missing
    · next left ht =>
      rw [ht] at outcome
      rcases outcome with ⟨pending, unfired, -⟩ | ⟨found, -⟩
      · obtain ⟨cell, signal⟩ := slot
        obtain rfl : cell = .pending := pending
        cases signal with
        | none => exact absurd rfl (there _ (List.mem_of_getElem? hs) rfl)
        | some σ => exact ⟨σ, rfl, unfired⟩
      · cases found

theorem takeSlot?_of_completion {σ : Signal} (place : c.slots[i]? = some ⟨.pending, some σ⟩) :
    c.takeSlot? h i = (h.completion? σ).map fun o =>
      { c with slots := c.slots.set i ⟨.taken, some σ⟩,
               handed := some (.result (o.result.map fun () => .done)) } := by
  unfold takeSlot?
  rw [place]
  cases found : h.completion? σ <;>
    simp [Slot.take, Slot.refresh, found, Deferred.fill, Deferred.tryTake]

theorem signals_takeReady {ready : List (ReadyTimer φ)} {bridge : Bridge φ}
    (taken : c.bridge.takeReady h = (ready, bridge)) :
    ∀ σ ∈ ({ c with bridge := bridge } : Caller φ).signals, σ ∈ c.signals := by
  intro σ hσ
  rcases List.mem_append.mp hσ with timer | deferred
  · obtain ⟨w, hw, rfl⟩ := List.mem_map.mp timer
    rw [← congrArg (fun p => p.2.timers.waiting) taken] at hw
    exact List.mem_append_left _ (List.mem_map_of_mem (List.mem_filter.mp hw).1)
  · exact List.mem_append_right _ deferred

/-! ### Every call preserves it -/

/-- A free caller gets a slot. -/
theorem sound_addSlot (hc : c.Sound h) (free : c.phase = .free) (onward : h.Onward k) {slot : Slot}
    (issued : ∀ σ ∈ slot.signal, k.Issued σ) (there : slot.signal = none → slot.cell ≠ .pending) :
    ({ c with slots := c.slots ++ [slot] } : Caller φ).Sound k := by
  refine sound_calm (fun σ hσ => ?_) (fun other ho => ?_) (free ▸ trivial)
  · rcases List.mem_append.mp hσ with timer | deferred
    · exact (hc.issued σ (List.mem_append_left _ timer)).onward onward
    · obtain ⟨other, ho, same⟩ := List.mem_filterMap.mp deferred
      rcases List.mem_append.mp ho with old | new
      · have held : σ ∈ c.signals :=
          List.mem_append_right _ (List.mem_filterMap.mpr ⟨other, old, same⟩)
        exact (hc.issued σ held).onward onward
      · obtain rfl := List.mem_singleton.mp new
        exact issued σ same
  · rcases List.mem_append.mp ho with old | new
    · exact hc.there other old
    · obtain rfl := List.mem_singleton.mp new
      exact there

theorem sound_setTimeout (outages : h.outages.timers = 0) (hc : c.Sound h) (free : c.phase = .free)
    (delay : Duration) (callback : φ) :
    (c.ask h (.setTimeout delay callback)).2.Sound (h.setTimeout delay).1 := by
  refine sound_calm (fun σ hσ => ?_) hc.there (free ▸ trivial)
  rcases List.mem_append.mp hσ with timer | deferred
  · obtain ⟨w, hw, rfl⟩ := List.mem_map.mp timer
    rcases List.mem_append.mp hw with old | new
    · have held : w.signal ∈ c.signals := List.mem_append_left _ (List.mem_map_of_mem old)
      exact (hc.issued _ held).onward (Host.onward_setTimeout h delay)
    · obtain rfl := List.mem_singleton.mp new
      exact Host.issued_setTimeout outages delay
  · exact (hc.issued σ (List.mem_append_right _ deferred)).onward (Host.onward_setTimeout h delay)

/-- A caller that asks stays sound, and the host goes on. -/
theorem sound_ask (outages : h.outages.timers = 0) (hc : c.Sound h) (free : c.phase = .free)
    (a : Ask φ) : h.Onward (c.ask h a).1 ∧ (c.ask h a).2.Sound (c.ask h a).1 := by
  cases a with
  | request r =>
    have onward := Host.Request.onward_serve h r
    exact ⟨onward, hc.onward onward⟩
  | start op =>
    have onward := Session.Operation.onward_serve h op
    refine ⟨onward, sound_addSlot hc free onward ?_ ?_⟩
    · cases op with
      | timer delay =>
        intro σ hσ
        obtain rfl := Option.some.inj hσ
        exact Host.issued_setTimeout outages delay
      | _ => exact fun σ hσ => by cases hσ
    · cases op with
      | timer delay => exact fun e => by cases e
      | _ => exact fun _ e => by cases e
  | setTimeout delay callback =>
    exact ⟨Host.onward_setTimeout h delay, sound_setTimeout outages hc free delay callback⟩
  | take i =>
    refine ⟨.refl h, ?_⟩
    show ((c.takeSlot? h i).getD c).Sound h
    cases taken : c.takeSlot? h i with
    | none => exact hc
    | some d =>
      obtain ⟨phase, signals, there⟩ := takeSlot?_facts hc.there taken
      exact sound_calm (fun σ hσ => hc.issued σ (signals σ hσ)) there (phase ▸ free ▸ trivial)
  | takeReady =>
    have fewer := signals_takeReady (c := c) (h := h) rfl
    exact ⟨.refl h, sound_calm (fun σ hσ => hc.issued σ (fewer σ hσ)) hc.there (free ▸ trivial)⟩
  | wait i => exact ⟨.refl h, sound_calm hc.issued hc.there trivial⟩
  | poll => exact ⟨.refl h, sound_calm hc.issued hc.there trivial⟩

/-- A caller that looks stays sound. -/
theorem sound_look (hc : c.Sound h) (g : Goal) : (c.look h g).Sound h := by
  cases g with
  | slot i =>
    cases taken : c.takeSlot? h i with
    | some d =>
      simp only [look, taken]
      obtain ⟨-, signals, there⟩ := takeSlot?_facts hc.there taken
      exact sound_calm (fun σ hσ => hc.issued σ (signals σ hσ)) there trivial
    | none =>
      simp only [look, taken]
      obtain ⟨σ, place, -⟩ := missing_of_takeSlot? hc.there taken
      refine ⟨hc.issued, hc.there, fun k hk => ?_, fun g hg => by cases hg⟩
      rcases hk with e | e
      · obtain rfl := Goal.slot.inj (Phase.driving.inj e)
        exact ⟨σ, place⟩
      · cases e
  | timers =>
    simp only [look]
    split
    · exact sound_calm hc.issued hc.there trivial
    · split
      · next r rest bridge ht =>
        have fewer := signals_takeReady ht
        exact sound_calm (fun σ hσ => hc.issued σ (fewer σ hσ)) hc.there trivial
      · next bridge ht =>
        have fewer := signals_takeReady ht
        refine ⟨fun σ hσ => hc.issued σ (fewer σ hσ), hc.there, fun k hk => ?_,
          fun g hg => by cases hg⟩
        rcases hk with e | e <;> cases e

/-- A caller that drives stays sound: if nothing fires, no timer is pending, and the
caller is blocked with everything there. -/
theorem sound_drive (owned : h.Owned) (hc : c.Sound h) {g : Goal} (drives : c.phase = .driving g) :
    (c.withPhase (if h.drive.2 then .looking g else .blocked g)).Sound h.drive.1 := by
  have onward := Host.onward_drive h
  cases driven : h.drive.2 with
  | true => exact sound_calm (hc.onward onward).issued hc.there trivial
  | false =>
    refine ⟨(hc.onward onward).issued, hc.there, fun i hi => ?_, fun g hg σ hσ => ?_⟩
    · rcases hi with e | e
      · cases e
      · obtain rfl := Phase.blocked.inj e
        exact hc.missing i (Or.inl drives)
    · exact ((hc.issued σ hσ).fired owned driven).onward onward

/-- The caller after the result of a timer has been taken out of one of its slots. -/
def received (c : Caller φ) (i : Nat) (σ : Signal) (r : Except HostError Unit) : Caller φ :=
  { c with slots := c.slots.set i ⟨.taken, some σ⟩, phase := .free,
           handed := some (.result (r.map fun () => .done)) }

theorem wake?_slot (hc : c.Sound h) (blocked : c.phase = .blocked (.slot i)) :
    ∃ σ, c.wake? h (.slot i) = some (c.received i σ (.ok ())) := by
  obtain ⟨σ, place⟩ := hc.missing i (Or.inr blocked)
  have held : σ ∈ c.signals :=
    List.mem_append_right _ (List.mem_filterMap.mpr ⟨_, List.mem_of_getElem? place, rfl⟩)
  obtain ⟨seq, found⟩ := hc.blocked _ blocked σ held
  refine ⟨σ, ?_⟩
  rw [wake?, takeSlot?_of_completion place, found]
  rfl

theorem wake?_timers (hc : c.Sound h) (blocked : c.phase = .blocked .timers) :
    c.wake? h .timers = some (c.withPhase (.looking .timers)) := by
  unfold wake?
  cases hw : c.bridge.timers.waiting with
  | nil => rfl
  | cons w rest =>
    have held : w.signal ∈ c.signals := by
      refine List.mem_append_left _ (List.mem_map_of_mem ?_)
      rw [hw]
      exact List.mem_cons_self
    obtain ⟨seq, found⟩ := hc.blocked _ blocked _ held
    simp only [found, Option.isSome_some, if_true]

/-- A caller that waits has a turn: it is never stuck. -/
theorem Sound.isSome_turn? (hc : c.Sound h) (waiting : c.phase ≠ .free) : (c.turn? h).isSome := by
  unfold turn?
  cases hp : c.phase with
  | free => exact absurd hp waiting
  | looking g => rfl
  | driving g => rfl
  | blocked g =>
    cases g with
    | slot i =>
      obtain ⟨σ, woken⟩ := wake?_slot hc hp
      simp only [woken, Option.map_some, Option.isSome_some]
    | timers => simp only [wake?_timers hc hp, Option.map_some, Option.isSome_some]

/-- A caller that takes its turn stays sound, and the host goes on. -/
theorem sound_turn (owned : h.Owned) (hc : c.Sound h) (turned : c.turn? h = some (k, d)) :
    h.Onward k ∧ d.Sound k := by
  unfold turn? at turned
  cases hp : c.phase with
  | free => rw [hp] at turned; cases turned
  | looking g =>
    rw [hp] at turned
    obtain ⟨rfl, rfl⟩ := Prod.mk.inj (Option.some.inj turned)
    exact ⟨.refl h, sound_look hc g⟩
  | driving g =>
    rw [hp] at turned
    obtain ⟨rfl, rfl⟩ := Prod.mk.inj (Option.some.inj turned)
    exact ⟨Host.onward_drive h, sound_drive owned hc hp⟩
  | blocked g =>
    rw [hp] at turned
    obtain ⟨e, woken, pair⟩ := Option.map_eq_some_iff.mp turned
    obtain ⟨rfl, rfl⟩ := Prod.mk.inj pair
    refine ⟨.refl h, ?_⟩
    cases g with
    | slot i =>
      obtain ⟨taker, taken, rfl⟩ := Option.map_eq_some_iff.mp woken
      obtain ⟨-, signals, there⟩ := takeSlot?_facts hc.there taken
      exact sound_calm (fun σ hσ => hc.issued σ (signals σ hσ)) there trivial
    | timers =>
      rw [wake?_timers hc hp] at woken
      obtain rfl := Option.some.inj woken
      exact sound_calm hc.issued hc.there trivial

/-! ### Waiting alone -/

section

variable {σ : Signal} {o : Completion Unit}

theorem turn?_looking (place : c.slots[i]? = some ⟨.pending, some σ⟩)
    (found : h.completion? σ = some o) :
    (c.withPhase (.looking (.slot i))).turn? h = some (h, c.received i σ o.result) := by
  have taken := takeSlot?_of_completion (c := c.withPhase (.looking (.slot i))) (h := h) place
  rw [found] at taken
  show some (h, (c.withPhase (.looking (.slot i))).look h (.slot i)) = _
  rw [look, taken]
  rfl

theorem turn?_looking_missed (place : c.slots[i]? = some ⟨.pending, some σ⟩)
    (missed : h.completion? σ = none) :
    (c.withPhase (.looking (.slot i))).turn? h = some (h, c.withPhase (.driving (.slot i))) := by
  have taken := takeSlot?_of_completion (c := c.withPhase (.looking (.slot i))) (h := h) place
  rw [missed] at taken
  show some (h, (c.withPhase (.looking (.slot i))).look h (.slot i)) = _
  rw [look, taken]
  rfl

theorem turn?_blocked (place : c.slots[i]? = some ⟨.pending, some σ⟩)
    (found : h.completion? σ = some o) :
    (c.withPhase (.blocked (.slot i))).turn? h = some (h, c.received i σ o.result) := by
  have taken := takeSlot?_of_completion (c := c.withPhase (.blocked (.slot i))) (h := h) place
  rw [found] at taken
  show ((c.withPhase (.blocked (.slot i))).wake? h (.slot i)).map (fun d => (h, d)) = _
  rw [wake?, taken]
  rfl

theorem turn?_driving {fires : Bool} {g : Goal} (driven : h.drive = (k, fires)) :
    (c.withPhase (.driving g)).turn? h
      = some (k, c.withPhase (if fires then .looking g else .blocked g)) := by
  show some (h.drive.1, c.withPhase (if h.drive.2 then .looking g else .blocked g)) = _
  rw [driven]

/-- A caller that waits for a timer, undisturbed, drives as often as the wait does and
gets its result. -/
theorem alone_waits {r : Except HostError Unit} (waits : h.Waits σ n k r)
    (place : c.slots[i]? = some ⟨.pending, some σ⟩) :
    Alone n h (c.withPhase (.looking (.slot i))) k (c.received i σ r) := by
  induction waits with
  | done found => exact .turn (turn?_looking place found) (.free rfl)
  | drove missed fired rest ih =>
    exact .turn (turn?_looking_missed place missed) (.turn (turn?_driving fired) ih)
  | blocked missed idle found =>
    have woken : Alone 0 _ (c.withPhase (.blocked (.slot i))) _ _ :=
      .turn (turn?_blocked place found) (.free rfl)
    exact .turn (turn?_looking_missed place missed) (.turn (turn?_driving idle) woken)

end

/-- The caller after it has polled. -/
def polled (c : Caller φ) (ready : List (ReadyTimer φ)) (bridge : Bridge φ) : Caller φ :=
  { c with bridge := bridge, phase := .free, handed := some (.timers ready) }

/-- A caller with another bridge. -/
def withBridge (c : Caller φ) (bridge : Bridge φ) : Caller φ := { c with bridge := bridge }

section

variable {a b : Bridge φ} {ready : List (ReadyTimer φ)}

theorem turn?_polling_none (none : a.timers.waiting = []) :
    ((c.withBridge a).withPhase (.looking .timers)).turn? h = some (h, c.polled [] a) := by
  simp only [turn?, look, withBridge, withPhase, none, List.isEmpty_nil, if_true]
  rfl

/-- Looking for timers that are ready. -/
theorem turn?_polling {r : ReadyTimer φ} {rest : List (ReadyTimer φ)}
    (taken : a.takeReady h = (r :: rest, b)) :
    ((c.withBridge a).withPhase (.looking .timers)).turn? h
      = some (h, c.polled (r :: rest) b) := by
  have some' : a.timers.waiting.isEmpty = false := by
    have handed : r ∈ (a.timers.takeReady h.completion?).1 := by
      have ready : (a.takeReady h).1 = r :: rest := by rw [taken]
      exact ready ▸ List.mem_cons_self
    obtain ⟨w, waits, -⟩ := TimerTable.mem_takeReady handed
    cases hw : a.timers.waiting with
    | nil => rw [hw] at waits; cases waits
    | cons w rest => rfl
  simp only [turn?, look, withBridge, withPhase, some', Bool.false_eq_true, if_false, taken]
  rfl

theorem turn?_polling_missed (some' : a.timers.waiting ≠ []) (taken : a.takeReady h = ([], b)) :
    ((c.withBridge a).withPhase (.looking .timers)).turn? h
      = some (h, (c.withBridge b).withPhase (.driving .timers)) := by
  have waits : a.timers.waiting.isEmpty = false := by simpa using some'
  simp only [turn?, look, withBridge, withPhase, waits, Bool.false_eq_true, if_false, taken]

theorem turn?_blocked_timers {w : WaitingTimer Signal φ} (first : a.timers.waiting.head? = some w)
    (found : (h.completion? w.signal).isSome) :
    ((c.withBridge a).withPhase (.blocked .timers)).turn? h
      = some (h, (c.withBridge a).withPhase (.looking .timers)) := by
  obtain ⟨rest, waiting⟩ := List.head?_eq_some_iff.mp first
  simp only [turn?, wake?, withBridge, withPhase, waiting, found, if_true, Option.map_some]

/-- A caller that polls, undisturbed, drives as often as the poll does and gets the same
timers. -/
theorem alone_polls (polls : a.Polls n h ready b k) :
    Alone n h ((c.withBridge a).withPhase (.looking .timers)) k (c.polled ready b) := by
  induction polls with
  | idle none => exact .turn (turn?_polling_none none) (.free rfl)
  | found taken => exact .turn (turn?_polling taken) (.free rfl)
  | drove some' missed fired rest ih =>
    exact .turn (turn?_polling_missed some' missed) (.turn (turn?_driving fired) ih)
  | blocked missed idle first found rest ih =>
    obtain rfl := Bridge.takeReady_eq_self missed
    have some' := List.ne_nil_of_mem (List.mem_of_mem_head? first)
    exact .turn (turn?_polling_missed some' missed) (.turn (turn?_driving idle)
      (.turn (turn?_blocked_timers first found) ih))

end

/-- How a wait that nobody disturbs ends: with what `Host.await` gives, if it is for the
result of a timer, or with what `Bridge.poll` gives. -/
def Returns (h : Host) (c : Caller φ) (k : Host) (d : Caller φ) : Goal → Prop
  | .slot i => ∀ σ, c.slots[i]? = some ⟨.pending, some σ⟩ →
      k = (h.await σ).1 ∧ d = c.received i σ (h.await σ).2
  | .timers => k = (c.bridge.poll h).2.2 ∧ d = c.polled (c.bridge.poll h).1 (c.bridge.poll h).2.1

/-- A wait that nobody disturbs ends after at most as many drives as timers are
pending. -/
theorem alone_of_looking (owned : h.Owned) (hc : c.Sound h) {g : Goal}
    (looks : c.phase = .looking g) :
    ∃ n ≤ h.timers.size, ∃ k d, Alone n h c k d ∧ c.Returns h k d g := by
  have here : c.withPhase (.looking g) = c := by rw [← looks]; rfl
  cases g with
  | slot i =>
    by_cases timer : ∃ σ, c.slots[i]? = some ⟨.pending, some σ⟩
    · obtain ⟨σ, place⟩ := timer
      have held : σ ∈ c.signals :=
        List.mem_append_right _ (List.mem_filterMap.mpr ⟨_, List.mem_of_getElem? place, rfl⟩)
      obtain ⟨n, few, waits⟩ := Host.waits_await ((hc.issued σ held).answers owned)
      have alone := alone_waits waits place
      rw [here] at alone
      refine ⟨n, few, _, _, alone, fun τ place' => ?_⟩
      obtain rfl : σ = τ := by
        rw [place] at place'
        exact Option.some.inj (Slot.mk.inj (Option.some.inj place')).2
      exact ⟨rfl, rfl⟩
    · -- the result is there already, or the caller has no such slot
      cases taken : c.takeSlot? h i with
      | none =>
        obtain ⟨σ, place, -⟩ := missing_of_takeSlot? hc.there taken
        exact absurd ⟨σ, place⟩ timer
      | some d =>
        have turned : c.turn? h = some (h, d.withPhase .free) := by
          simp only [turn?, looks, look, taken]
        have alone : Alone (0 + c.phase.drives) h c h (d.withPhase .free) :=
          .turn turned (.free rfl)
        rw [looks] at alone
        exact ⟨0, Nat.zero_le _, _, _, alone, fun σ place => absurd ⟨σ, place⟩ timer⟩
  | timers =>
    have answered : ∀ w ∈ c.bridge.timers.waiting, h.Answers w.signal := fun w hw =>
      (hc.issued _ (List.mem_append_left _ (List.mem_map_of_mem hw))).answers owned
    obtain ⟨n, few, polls⟩ := Bridge.polls_poll answered
    have alone : Alone n h (c.withPhase (.looking .timers)) _ _ := alone_polls polls
    rw [here] at alone
    exact ⟨n, few, _, _, alone, rfl, rfl⟩

end Caller

/-! ### Every crowd that is reached -/

namespace Crowd

variable {s t : Crowd φ}

/-- What holds of a crowd at every time: the numbers of timers are owned, the signals
given out are those of scheduled timers, and no caller is stuck. -/
structure Sound (s : Crowd φ) : Prop where
  owned : s.host.Owned
  outages : s.host.outages.timers = 0
  issued : ∀ σ ∈ s.issued, s.host.Issued σ
  callers : ∀ c ∈ s.callers, c.Sound s.host

/-- One caller changes with the host, the others stay as they are. -/
theorem Sound.set (hs : s.Sound) {h : Host} (onward : s.host.Onward h) {d : Caller φ}
    (hd : d.Sound h) (i : Nat) {signals : List Signal} (issued : ∀ σ ∈ signals, h.Issued σ) :
    (⟨h, s.callers.set i d, s.issued ++ signals⟩ : Crowd φ).Sound where
  owned := onward.owned hs.owned
  outages := Nat.le_zero.mp (hs.outages ▸ onward.outages)
  issued σ hσ := by
    rcases List.mem_append.mp hσ with old | new
    · exact (hs.issued σ old).onward onward
    · exact issued σ new
  callers c hc := by
    rcases List.mem_or_eq_of_mem_set hc with old | rfl
    · exact (hs.callers c old).onward onward
    · exact hd

/-- The signal that the host gives out is that of a scheduled timer. -/
theorem issued_signal? {h : Host} (outages : h.outages.timers = 0) (c : Caller φ) (a : Ask φ) :
    ∀ σ ∈ (a.signal? h).toList, (c.ask h a).1.Issued σ := by
  intro σ hσ
  rw [Option.mem_toList] at hσ
  cases a with
  | start op =>
    cases op with
    | timer delay =>
      obtain rfl := Option.some.inj hσ
      exact Host.issued_setTimeout outages delay
    | _ => cases hσ
  | setTimeout delay callback =>
    obtain rfl := Option.some.inj hσ
    exact Host.issued_setTimeout outages delay
  | _ => cases hσ

/-- Every call keeps a crowd sound. -/
theorem sound_step (hs : s.Sound) (h : Step s t) : t.Sound := by
  cases h with
  | joined context =>
    refine ⟨hs.owned, hs.outages, hs.issued, fun c hc => ?_⟩
    rcases List.mem_append.mp hc with old | new
    · exact hs.callers c old
    · obtain rfl := List.mem_singleton.mp new
      exact Caller.sound_new context
  | asked i c a member free =>
    obtain ⟨onward, sound⟩ :=
      Caller.sound_ask hs.outages (hs.callers c (List.mem_of_getElem? member)) free a
    exact hs.set onward sound i (issued_signal? hs.outages c a)
  | turned i c d h member turned =>
    obtain ⟨onward, sound⟩ :=
      Caller.sound_turn hs.owned (hs.callers c (List.mem_of_getElem? member)) turned
    have none : ∀ σ ∈ ([] : List Signal), h.Issued σ := fun _ hσ => by cases hσ
    have set := hs.set onward sound i none
    rw [List.append_nil] at set
    exact set

theorem sound_reaches (hs : s.Sound) (h : Reaches s t) : t.Sound := by
  induction h with
  | refl => exact hs
  | tail _ step ih => exact sound_step ih step

/-- Waiting on a host never deadlocks, whoever calls the host in whatever order. Every
signal that the host has given out belongs to a pending timer, or has its outcome, which
is good. A drive fires something exactly if a timer is pending. So if a drive fires
nothing, everything that a caller holds has its outcome; a caller that waits always has
a turn, and one that is blocked on a result gets it, or looks again for its timers. A
wait that nobody disturbs makes at most as many drives as timers are pending and ends as
`Host.await` and `Bridge.poll` do. -/
theorem never_deadlocks {h : Host} (timers : h.timers = .empty) (fired : h.fired = [])
    (outages : h.outages.timers = 0) (reached : Reaches ⟨h, [], []⟩ s) :
    (∀ σ ∈ s.issued, ∃ order, σ = .scheduled order
      ∧ (((∃ t ∈ s.host.timers.pending, t.order = order) ∧ s.host.completion? σ = none)
        ∨ ((∀ t ∈ s.host.timers.pending, t.order ≠ order)
          ∧ ∃ seq, s.host.completion? σ = some ⟨seq, .ok ()⟩)))
    ∧ (s.host.drive.2 = true ↔ s.host.timers.pending ≠ [])
    ∧ ∀ c ∈ s.callers,
      (s.host.drive.2 = false →
        ∀ σ ∈ c.signals, ∃ seq, s.host.completion? σ = some ⟨seq, .ok ()⟩)
      ∧ (c.phase ≠ .free → (c.turn? s.host).isSome)
      ∧ (∀ i, c.phase = .blocked (.slot i) →
        ∃ σ, c.turn? s.host = some (s.host, c.received i σ (.ok ())))
      ∧ (c.phase = .blocked .timers →
        c.turn? s.host = some (s.host, c.withPhase (.looking .timers)))
      ∧ ∀ g, c.phase = .looking g → ∃ n ≤ s.host.timers.size, ∃ k d,
        Caller.Alone n s.host c k d ∧ c.Returns s.host k d g := by
  have begins : (⟨h, [], []⟩ : Crowd φ).Sound :=
    ⟨Host.owned_new timers fired, outages, (fun _ h => by cases h), fun _ h => by cases h⟩
  have sound := sound_reaches begins reached
  refine ⟨fun σ hσ => ?_, Host.drive_eq_true_iff s.host, fun c hc => ?_⟩
  · obtain ⟨order, given, rfl⟩ := sound.issued σ hσ
    exact ⟨order, rfl, sound.owned.scheduled given⟩
  · have hc := sound.callers c hc
    refine ⟨fun idle σ hσ => (hc.issued σ hσ).fired sound.owned idle, hc.isSome_turn?, ?_, ?_,
      fun g looks => Caller.alone_of_looking sound.owned hc looks⟩
    · intro i blocked
      obtain ⟨σ, woken⟩ := Caller.wake?_slot hc blocked
      exact ⟨σ, by simp only [Caller.turn?, blocked, woken, Option.map_some]⟩
    · intro blocked
      simp only [Caller.turn?, blocked, Caller.wake?_timers hc blocked, Option.map_some]

/-- A caller finds its timer pending; before it drives the host, another caller lets the
time pass and so fires the timer. The drive fires nothing, and the caller is blocked, but
gets its result. -/
theorem never_deadlocks_overtaken :
    let c : Caller Unit :=
      ⟨.ofContext (.spawned 0), [.ofSignal (.scheduled 0)], .blocked (.slot 0), none⟩
    ∃ s : Crowd Unit, Reaches ⟨.empty, [], []⟩ s ∧ c ∈ s.callers ∧ s.host.drive.2 = false
      ∧ ∃ σ, c.turn? s.host = some (s.host, c.received 0 σ (.ok ())) := by
  intro c
  let other : Caller Unit := .new (.spawned 1)
  let begun : Host := (Host.empty.setTimeout (.ofNanos 5)).1
  let passed : Host := begun.advance (.ofNanos 5)
  have idle : passed.drive.2 = false := by decide +kernel
  have stays : passed.drive.1.drive.2 = false := by decide +kernel
  have joined : Reaches ⟨.empty, [], []⟩ ⟨.empty, [.new (.spawned 0), other], []⟩ :=
    .tail (.single (.joined (.spawned 0))) (.joined (.spawned 1))
  have set : Reaches ⟨.empty, [], []⟩
      ⟨begun, [c.withPhase .free, other], [.scheduled 0]⟩ :=
    joined.tail (.asked 0 (.new (.spawned 0)) (.start (.timer (.ofNanos 5))) rfl rfl)
  have waits : Reaches ⟨.empty, [], []⟩
      ⟨begun, [c.withPhase (.looking (.slot 0)), other], [.scheduled 0]⟩ :=
    set.tail (.asked 0 (c.withPhase .free) (.wait 0) rfl rfl)
  have looked : Reaches ⟨.empty, [], []⟩
      ⟨begun, [c.withPhase (.driving (.slot 0)), other], [.scheduled 0]⟩ :=
    waits.tail (.turned 0 (c.withPhase (.looking (.slot 0))) _ _ rfl rfl)
  have overtaken : Reaches ⟨.empty, [], []⟩
      ⟨passed, [c.withPhase (.driving (.slot 0)), other], [.scheduled 0]⟩ :=
    looked.tail (.asked 1 other (.request (.advance (.ofNanos 5))) rfl rfl)
  have driven : (c.withPhase (.driving (.slot 0))).turn? passed = some (passed.drive.1, c) :=
    Caller.turn?_driving (Prod.ext rfl idle : passed.drive = (passed.drive.1, false))
  have blocked : Reaches ⟨.empty, [], []⟩ ⟨passed.drive.1, [c, other], [.scheduled 0]⟩ :=
    overtaken.tail (.turned 0 (c.withPhase (.driving (.slot 0))) _ _ rfl driven)
  obtain ⟨-, -, callers⟩ := never_deadlocks rfl rfl rfl blocked
  obtain ⟨-, -, slots, -, -⟩ := callers c List.mem_cons_self
  exact ⟨_, blocked, List.mem_cons_self, stays, slots 0 rfl⟩

end Crowd
end TaskHost
