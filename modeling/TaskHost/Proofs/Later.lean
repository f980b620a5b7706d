/-
# How a host goes on

Whatever is asked of a host, the host only goes forward (`Host.Later`): planned
faults and outages are used up and do not come back, a signal that will be
answered stays so, and a context that is known stays known under its handle. An
operation on behalf of a context leaves all other contexts as they are
(`Host.Evolves`).

Key definitions: `Host.Answers`, `Host.Later`, `Host.Evolves`.
Key theorems: `Host.evolves_registerTask`, `Host.evolves_pull`, `Host.later_drive`,
`Host.later_sleep`, `Bridge.evolves_call`.
-/
import Mathlib.Tactic.Common
import TaskHost.Host.Pullable
import TaskHost.Proofs.Timers

namespace TaskHost
namespace Host

/-- Whether a signal has an outcome, or gets one when its timer fires. -/
def Answers (h : Host) : Signal → Prop
  | .cancelled => True
  | .scheduled order =>
    (∃ t ∈ h.timers.pending, t.order = order) ∨ (h.fired.lookup order).isSome

/-- A host at some time and at a later time. -/
structure Later (h k : Host) : Prop where
  repeats : k.faults.repeatPulls ≤ h.faults.repeatPulls
  drops : k.faults.droppedRegistrations ≤ h.faults.droppedRegistrations
  refusedTimers : k.outages.timers ≤ h.outages.timers
  refusedPulls : k.outages.pulls ≤ h.outages.pulls
  refusedRegistrations : k.outages.registrations ≤ h.outages.registrations
  answers : ∀ s, h.Answers s → k.Answers s
  known : ∀ id c, h.context? id = some c → ∃ d, k.context? id = some d ∧ d.handle = c.handle

/-- A later time, with nothing but operations on behalf of one context between. -/
structure Evolves (id : ContextId) (h k : Host) : Prop extends Later h k where
  others : ∀ key, key ≠ id → k.context? key = h.context? key

theorem Later.refl (h : Host) : Later h h where
  repeats := Nat.le_refl _
  drops := Nat.le_refl _
  refusedTimers := Nat.le_refl _
  refusedPulls := Nat.le_refl _
  refusedRegistrations := Nat.le_refl _
  answers _ hs := hs
  known _ c hc := ⟨c, hc, rfl⟩

theorem Later.trans {h k l : Host} (a : Later h k) (b : Later k l) : Later h l where
  repeats := Nat.le_trans b.repeats a.repeats
  drops := Nat.le_trans b.drops a.drops
  refusedTimers := Nat.le_trans b.refusedTimers a.refusedTimers
  refusedPulls := Nat.le_trans b.refusedPulls a.refusedPulls
  refusedRegistrations := Nat.le_trans b.refusedRegistrations a.refusedRegistrations
  answers s hs := b.answers s (a.answers s hs)
  known id c hc := by
    obtain ⟨d, hd, same⟩ := a.known id c hc
    obtain ⟨e, he, same'⟩ := b.known id d hd
    exact ⟨e, he, same'.trans same⟩

theorem Evolves.refl (id : ContextId) (h : Host) : Evolves id h h :=
  ⟨Later.refl h, fun _ _ => rfl⟩

theorem Evolves.trans {id : ContextId} {h k l : Host} (a : Evolves id h k) (b : Evolves id k l) :
    Evolves id h l :=
  ⟨a.toLater.trans b.toLater, fun key hne => (b.others key hne).trans (a.others key hne)⟩

/-! ### Changes that concern neither contexts nor timers -/

theorem context?_congr {h k : Host} (hc : k.contexts = h.contexts) (id : ContextId) :
    k.context? id = h.context? id := by
  cases id <;> simp only [context?, hc]

theorem answers_congr {h k : Host} (ht : k.timers = h.timers) (hf : k.fired = h.fired)
    (s : Signal) : k.Answers s ↔ h.Answers s := by
  cases s <;> simp only [Answers, ht, hf]

theorem Later.of_contexts {h k : Host} (hc : k.contexts = h.contexts)
    (repeats : k.faults.repeatPulls ≤ h.faults.repeatPulls)
    (drops : k.faults.droppedRegistrations ≤ h.faults.droppedRegistrations)
    (ho : k.outages = h.outages) (answers : ∀ s, h.Answers s → k.Answers s) : Later h k where
  repeats := repeats
  drops := drops
  refusedTimers := ho ▸ Nat.le_refl _
  refusedPulls := ho ▸ Nat.le_refl _
  refusedRegistrations := ho ▸ Nat.le_refl _
  answers := answers
  known id c h := ⟨c, (context?_congr hc id).trans h, rfl⟩

/-- Files, routes, the transcript, the clock and the count of completions do not
matter. -/
theorem Later.of_same {h k : Host} (hc : k.contexts = h.contexts) (hf : k.faults = h.faults)
    (ho : k.outages = h.outages) (ht : k.timers = h.timers) (hr : k.fired = h.fired) : Later h k :=
  .of_contexts hc (hf ▸ Nat.le_refl _) (hf ▸ Nat.le_refl _) ho
    fun s => (answers_congr ht hr s).mpr

theorem Evolves.of_contexts {h k : Host} (id : ContextId) (hc : k.contexts = h.contexts)
    (later : Later h k) : Evolves id h k :=
  ⟨later, fun key _ => context?_congr hc key⟩

theorem later_print (h : Host) (line : String) (isError : Bool) : Later h (h.print line isError) :=
  .of_same rfl rfl rfl rfl rfl

theorem later_loadFile (h : Host) (path : String) : Later h (h.loadFile path).1 :=
  .of_contexts rfl (Nat.le_refl _) (Nat.le_refl _) rfl fun _ hs => hs

theorem later_storeFile (h : Host) (path : String) (contents : Bytes) :
    Later h (h.storeFile path contents).1 :=
  .of_same rfl rfl rfl rfl rfl

theorem later_removeFile (h : Host) (path : String) : Later h (h.removeFile path).1 :=
  .of_same rfl rfl rfl rfl rfl

theorem later_fetch (h : Host) (url : String) : Later h (h.fetch url).1 :=
  .of_contexts rfl (Nat.le_refl _) (Nat.le_refl _) rfl fun _ hs => hs

/-! ### Making contexts -/

theorem later_passSpawn (h : Host) : Later h h.passSpawn := { Later.refl h with }

theorem later_makeContext (h : Host) (d : ContextDescriptor) : Later h (h.makeContext d).1 where
  repeats := Nat.le_refl _
  drops := Nat.le_refl _
  refusedTimers := Nat.le_refl _
  refusedPulls := Nat.le_refl _
  refusedRegistrations := Nat.le_refl _
  answers _ hs := hs
  known id c hc := by
    cases id with
    | foreign u => cases hc
    | spawned i =>
      have bound := (List.getElem?_eq_some_iff.mp hc).1
      exact ⟨c, (List.getElem?_append_left bound).trans hc, rfl⟩

/-! ### Changes of one context -/

theorem context?_modifyContext (h : Host) (id : ContextId) (f : Context → Context) :
    (h.modifyContext id f).context? id = (h.context? id).map f := by
  cases id with
  | foreign u => rfl
  | spawned i => simp [modifyContext, context?]

theorem context?_modifyContext_of_ne (h : Host) {id key : ContextId} (f : Context → Context)
    (hne : key ≠ id) : (h.modifyContext id f).context? key = h.context? key := by
  cases id with
  | foreign u => rfl
  | spawned i =>
    cases key with
    | foreign u => rfl
    | spawned j =>
      have : i ≠ j := fun e => hne (by rw [e])
      simp [modifyContext, context?, this]

theorem evolves_modifyContext (h : Host) (id : ContextId) {f : Context → Context}
    (hf : ∀ c, (f c).handle = c.handle) : Evolves id h (h.modifyContext id f) where
  repeats := by cases id <;> exact Nat.le_refl _
  drops := by cases id <;> exact Nat.le_refl _
  refusedTimers := by cases id <;> exact Nat.le_refl _
  refusedPulls := by cases id <;> exact Nat.le_refl _
  refusedRegistrations := by cases id <;> exact Nat.le_refl _
  answers s hs := by cases id <;> exact hs
  known key c hc := by
    by_cases e : key = id
    · subst e
      exact ⟨f c, by rw [context?_modifyContext, hc]; rfl, hf c⟩
    · exact ⟨c, by rw [context?_modifyContext_of_ne h f e, hc], rfl⟩
  others _ hne := context?_modifyContext_of_ne h f hne

theorem evolves_signal (h : Host) (id : ContextId) : Evolves id h (h.signal id) := by
  have counted := evolves_modifyContext h id (f := fun c => { c with signals := c.signals + 1 })
    fun _ => rfl
  exact counted.trans (.of_contexts id rfl (later_print _ _ _))

theorem later_withFaults (h : Host) (faults : FaultCounts)
    (repeats : faults.repeatPulls ≤ h.faults.repeatPulls)
    (drops : faults.droppedRegistrations ≤ h.faults.droppedRegistrations) :
    Later h (h.withFaults faults) :=
  .of_contexts rfl repeats drops rfl fun _ hs => hs

theorem evolves_enqueue (h : Host) (lost : Bool) (id : ContextId) (task : TaskId) :
    Evolves id h (h.enqueue lost id task).1 := by
  unfold enqueue
  split
  · exact .refl id h
  · split
    · exact .refl id h
    · split
      · exact .refl id h
      · exact evolves_modifyContext h id fun _ => rfl

theorem evolves_registerTask (h : Host) (id : ContextId) (task : TaskId) :
    Evolves id h (h.registerTask id task).1 := by
  have passed : Later h h.passRegistration :=
    { Later.refl h with refusedRegistrations := Nat.sub_le _ _ }
  unfold registerTask
  split
  · exact .of_contexts id rfl passed
  · have asked := later_withFaults h.passRegistration
      h.passRegistration.faults.takeDroppedRegistration.2 (Nat.le_refl _) (Nat.sub_le _ _)
    have reached : Evolves id h (h.passRegistration.withFaults _) :=
      .of_contexts id rfl (passed.trans asked)
    exact reached.trans (evolves_enqueue _ _ id task)

theorem evolves_dequeue (h : Host) (repeated : Bool) (id : ContextId) :
    Evolves id h (h.dequeue repeated id).1 := by
  unfold dequeue
  split
  · exact .refl id h
  · split
    · exact .refl id h
    · exact evolves_modifyContext h id fun _ => rfl

theorem evolves_pull (h : Host) (id : ContextId) : Evolves id h (h.pull id).1 := by
  have passed : Later h h.passPull :=
    { Later.refl h with refusedPulls := Nat.sub_le _ _ }
  unfold pull
  split
  · exact .of_contexts id rfl passed
  · rw [unqueueTask_eq]
    have asked := later_withFaults h.passPull h.passPull.faults.takeRepeatPull.2
      (Nat.sub_le _ _) (Nat.le_refl _)
    have reached : Evolves id h (h.passPull.withFaults _) :=
      .of_contexts id rfl (passed.trans asked)
    exact reached.trans (evolves_dequeue _ _ id)

/-! ### Time -/

theorem lookup_numberFired {t : PendingTimer} : ∀ {due : List PendingTimer} (seq : Nat),
    t ∈ due → ((numberFired seq due).lookup t.order).isSome
  | u :: rest, seq, ht => by
    simp only [numberFired, List.lookup_cons]
    split
    · rfl
    · rcases List.mem_cons.mp ht with rfl | ht
      · simp_all
      · exact lookup_numberFired (seq + 1) ht

theorem answers_fireDue (h : Host) {s : Signal} (hs : h.Answers s) : h.fireDue.Answers s := by
  cases s with
  | cancelled => trivial
  | scheduled order =>
    simp only [Answers, fireDue, List.lookup_append, Option.isSome_or, Bool.or_eq_true] at hs ⊢
    rcases hs with ⟨t, ht, rfl⟩ | hs
    · rcases TimerQueue.mem_takeDue ht h.clock with due | kept
      · exact Or.inr (Or.inr (lookup_numberFired _ due))
      · exact Or.inl ⟨t, kept, rfl⟩
    · exact Or.inr (Or.inl hs)

theorem later_fireDue (h : Host) : Later h h.fireDue :=
  .of_contexts rfl (Nat.le_refl _) (Nat.le_refl _) rfl fun _ => answers_fireDue h

theorem later_withClock (h : Host) (t : Instant) : Later h { h with clock := t } :=
  .of_same rfl rfl rfl rfl rfl

theorem later_advance (h : Host) (d : Duration) : Later h (h.advance d) :=
  (later_withClock h _).trans (later_fireDue _)

theorem later_drive (h : Host) : Later h h.drive.1 := by
  unfold drive
  split
  · exact .refl h
  · exact (later_withClock h _).trans (later_fireDue _)

theorem contexts_drive (h : Host) : h.drive.1.contexts = h.contexts := by
  unfold drive
  split <;> rfl

theorem later_setTimeout (h : Host) (delay : Duration) : Later h (h.setTimeout delay).1 := by
  have passed : Later h h.passTimer :=
    { Later.refl h with refusedTimers := Nat.sub_le _ _ }
  unfold setTimeout
  split
  · exact passed
  · refine passed.trans (.of_contexts rfl (Nat.le_refl _) (Nat.le_refl _) rfl fun s hs => ?_)
    cases s with
    | cancelled => trivial
    | scheduled order =>
      rcases hs with ⟨t, ht, e⟩ | hs
      · exact Or.inl ⟨t, List.mem_append_left _ ht, e⟩
      · exact Or.inr hs

theorem contexts_setTimeout (h : Host) (delay : Duration) :
    (h.setTimeout delay).1.contexts = h.contexts := by
  unfold setTimeout
  split <;> rfl

theorem answers_setTimeout (h : Host) (delay : Duration) :
    (h.setTimeout delay).1.Answers (h.setTimeout delay).2 := by
  unfold setTimeout
  split
  · trivial
  · exact Or.inl ⟨_, List.mem_append_right _ List.mem_cons_self, rfl⟩

theorem later_awaitWithin (fuel : Nat) (h : Host) (s : Signal) :
    Later h (awaitWithin fuel h s).1 ∧ (awaitWithin fuel h s).1.contexts = h.contexts := by
  induction fuel generalizing h with
  | zero => unfold awaitWithin; split <;> exact ⟨.refl h, rfl⟩
  | succ fuel ih =>
    unfold awaitWithin
    have driven := later_drive h
    have same := contexts_drive h
    split
    · exact ⟨.refl h, rfl⟩
    · simp only
      split
      · next k hk =>
        rw [hk] at driven same
        exact ⟨driven.trans (ih k).1, (ih k).2.trans same⟩
      · next k hk =>
        rw [hk] at driven same
        exact ⟨driven, same⟩

theorem later_sleep (h : Host) (delay : Duration) : Later h (h.sleep delay).1 :=
  (later_setTimeout h delay).trans (later_awaitWithin _ _ _).1

theorem contexts_sleep (h : Host) (delay : Duration) : (h.sleep delay).1.contexts = h.contexts :=
  (later_awaitWithin _ _ _).2.trans (contexts_setTimeout h delay)

end Host

namespace Bridge

variable {φ : Type}

/-- A call through a bridge is an operation on behalf of its context. -/
theorem evolves_call (b : Bridge φ) (h : Host) (c : HostCall) :
    h.Evolves b.context (b.call h c).1 := by
  cases c with
  | read path => exact .of_contexts _ rfl (Host.later_loadFile h path)
  | readText path => exact .of_contexts _ rfl (Host.later_loadFile h path)
  | write path contents => exact .of_contexts _ rfl (Host.later_storeFile h path contents)
  | remove path => exact .of_contexts _ rfl (Host.later_removeFile h path)
  | fetch url => exact .of_contexts _ rfl (Host.later_fetch h url)
  | sleep delay => exact .of_contexts _ (Host.contexts_sleep h delay) (Host.later_sleep h delay)
  | push task => exact Host.evolves_registerTask h b.context task
  | pull => exact Host.evolves_pull h b.context
  | signal => exact Host.evolves_signal h b.context
  | pending => exact .refl _ h
  | now => exact .refl _ h

end Bridge
end TaskHost
