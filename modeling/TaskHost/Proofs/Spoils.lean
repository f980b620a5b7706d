/-
# Spoiled callbacks

A callback is spoiled when it does what it did and then fails, instead of ending well.
Here any number of callbacks are spoiled, among them such as other callbacks leave
behind (`Action.Spoiled`, `Body.Spoiled`). What a worker whose callbacks are spoiled has
in its registry and in its timers is the same but for the callbacks. The lines and the
log entries of failures come on top, and a drain that has ended counts them
(`Lines.Spoiled`, `Entries.Spoiled`). None of this is seen by an action: it
does the same, with the same result (`Station.Spoiled.act`).

Key definitions: `Body.Spoiled`, `Failure`, `Lines.Spoiled`, `Host.Spoiled`,
`Worker.Spoiled`, `Journal.Spoiled`, `Station.Spoiled`.
Key theorems: `Host.Spoiled.mute`, `Station.Spoiled.act`.
-/
import Mathlib.Data.List.Forall2
import TaskHost.Worker.Dispatch
import TaskHost.Proofs.Timers

namespace TaskHost

/-! ### Lists that are related place by place -/

/-- Two lists of one length with related elements at each place. -/
def Placewise {α β : Type} (R : Nat → α → β → Prop) (l : List α) (l' : List β) : Prop :=
  ∀ i, Option.Rel (R i) l[i]? l'[i]?

namespace Placewise

variable {α β : Type} {R S : Nat → α → β → Prop} {l : List α} {l' : List β} {i : Nat} {a : α}
  {b : β}

theorem get (related : Placewise R l l') (member : l[i]? = some a) :
    ∃ b, l'[i]? = some b ∧ R i a b := by
  have place := related i
  rw [member] at place
  generalize l'[i]? = o at place
  cases place with
  | some holds => exact ⟨_, rfl, holds⟩

theorem absent (related : Placewise R l l') (beyond : l[i]? = none) : l'[i]? = none := by
  have place := related i
  rw [beyond] at place
  generalize l'[i]? = o at place
  cases place
  rfl

theorem length_eq (related : Placewise R l l') : l'.length = l.length := by
  have all : l'[l.length]? = none := related.absent (List.getElem?_eq_none (Nat.le_refl _))
  refine Nat.le_antisymm (List.getElem?_eq_none_iff.mp all) ?_
  by_contra shorter
  obtain ⟨b, member, -⟩ := related.get (List.getElem?_eq_getElem (Nat.lt_of_not_le shorter))
  exact Nat.lt_irrefl _ (List.getElem?_eq_some_iff.mp member).1

theorem imp (related : Placewise R l l') (weaker : ∀ j a b, R j a b → S j a b) :
    Placewise S l l' := by
  intro j
  have place := related j
  generalize l[j]? = o at place
  generalize l'[j]? = o' at place
  cases place with
  | none => exact .none
  | some holds => exact .some (weaker j _ _ holds)

theorem nil : Placewise R [] [] := fun _ => .none

theorem concat (related : Placewise R l l') (last : R l.length a b) :
    Placewise R (l ++ [a]) (l' ++ [b]) := by
  intro j
  have size := related.length_eq
  rcases Nat.lt_trichotomy j l.length with early | rfl | late
  · rw [List.getElem?_append_left early, List.getElem?_append_left (size ▸ early)]
    exact related j
  · rw [List.getElem?_concat_length, ← size, List.getElem?_concat_length]
    exact .some (size.symm ▸ last)
  · rw [List.getElem?_eq_none, List.getElem?_eq_none]
    · exact .none
    · simp only [List.length_append, List.length_singleton]
      omega
    · simp only [List.length_append, List.length_singleton]
      omega

/-- One place is changed alike. -/
theorem modify (related : Placewise R l l') {f : α → α} {f' : β → β}
    (others : ∀ j a b, j ≠ i → R j a b → S j a b)
    (same : ∀ a b, l[i]? = some a → R i a b → S i (f a) (f' b)) :
    Placewise S (l.modify i f) (l'.modify i f') := by
  intro j
  rw [List.getElem?_modify, List.getElem?_modify]
  cases here : l[j]? with
  | none =>
    rw [related.absent here]
    exact .none
  | some a =>
    obtain ⟨b, there, holds⟩ := related.get here
    rw [there]
    by_cases place : i = j
    · subst place
      simp only [if_true]
      exact .some (same a b here holds)
    · simp only [place, if_false]
      exact .some (others j a b (Ne.symm place) holds)

theorem set (related : Placewise R l l') (others : ∀ j a b, j ≠ i → R j a b → S j a b)
    (new : S i a b) : Placewise S (l.set i a) (l'.set i b) := by
  rw [List.set_eq_modify, List.set_eq_modify]
  exact related.modify others fun _ _ _ _ => new

end Placewise

/-! ### Callbacks -/

mutual

/-- The same action, with callbacks left behind that may be spoiled. -/
inductive Action.Spoiled : Action → Action → Prop
  | call (c : HostCall) : Action.Spoiled (.call c) (.call c)
  | mark (note : Json) : Action.Spoiled (.mark note) (.mark note)
  | who : Action.Spoiled .who .who
  | register (task : TaskId) {change : Option String} {b b' : List Action}
      (body : Body.Spoiled change b b') : Action.Spoiled (.register task b) (.register task b')
  | setTimeout (delay : Duration) {change : Option String} {b b' : List Action}
      (body : Body.Spoiled change b b') :
      Action.Spoiled (.setTimeout delay b) (.setTimeout delay b')
  | console (stream : ConsoleStream) (args : List Json) :
      Action.Spoiled (.console stream args) (.console stream args)
  | log (entry : LogEntry) : Action.Spoiled (.log entry) (.log entry)
  | pause (delay : Duration) : Action.Spoiled (.pause delay) (.pause delay)
  | fail (text : String) : Action.Spoiled (.fail text) (.fail text)
  | attempt {a a' : Action} (h : Action.Spoiled a a') : Action.Spoiled (.attempt a) (.attempt a')

/-- The same actions, and after them a failure if the callback itself is spoiled. -/
inductive Body.Spoiled : Option String → List Action → List Action → Prop
  | whole : Body.Spoiled none [] []
  | broken (text : String) : Body.Spoiled (some text) [] [.fail text]
  | cons {change : Option String} {a a' : Action} {b b' : List Action}
      (action : Action.Spoiled a a') (rest : Body.Spoiled change b b') :
      Body.Spoiled change (a :: b) (a' :: b')

end

mutual

theorem Action.spoiled_refl (a : Action) : Action.Spoiled a a := by
  cases a with
  | call c => exact .call c
  | mark note => exact .mark note
  | who => exact .who
  | register task body => exact .register task (Body.spoiled_refl body)
  | setTimeout delay body => exact .setTimeout delay (Body.spoiled_refl body)
  | console stream args => exact .console stream args
  | log entry => exact .log entry
  | pause delay => exact .pause delay
  | fail text => exact .fail text
  | attempt a => exact .attempt (Action.spoiled_refl a)

theorem Body.spoiled_refl : ∀ body : List Action, Body.Spoiled none body body
  | [] => .whole
  | a :: rest => .cons (Action.spoiled_refl a) (Body.spoiled_refl rest)

end

theorem Body.spoiled_fail (text : String) : ∀ body : List Action,
    Body.Spoiled (some text) body (body ++ [.fail text])
  | [] => .broken text
  | a :: rest => .cons (Action.spoiled_refl a) (Body.spoiled_fail text rest)

theorem Action.Spoiled.isAttempt {a a' : Action} (spoiled : a.Spoiled a') :
    a'.isAttempt = a.isAttempt := by
  cases spoiled <;> rfl

/-- A callback that may be spoiled. -/
def Body.MayBreak (b b' : Body) : Prop := ∃ change, Body.Spoiled change b b'

/-! ### Failures -/

/-- A callback that would have ended well and fails, with what made it run, its scope and
the text of its error. -/
structure Failure where
  trigger : Trigger
  scope : Option TaskId
  text : String
  deriving DecidableEq

namespace Failure

/-- What is logged. -/
def entry (f : Failure) : LogEntry :=
  match f.trigger with
  | .task key => .taskFailed key (.failed f.text)
  | .timer key => .timerFailed key (.failed f.text) f.scope

/-- The task that failed, as a report has it. -/
def task? (f : Failure) : Option (TaskId × String) :=
  match f.trigger with
  | .task key => some (key, f.text)
  | .timer _ => none

/-- Whether a timer failed. -/
def isTimer (f : Failure) : Bool :=
  match f.trigger with
  | .task _ => false
  | .timer _ => true

theorem task?_timer {f : Failure} (timer : f.isTimer) : f.task? = none := by
  obtain ⟨trigger, scope, text⟩ := f
  cases trigger with
  | task key => cases timer
  | timer key => rfl

end Failure

/-- A report in which some tasks have moved from those that were executed to those that
failed, each list in the order of the pulls. -/
inductive DrainReport.Spoiled : List (TaskId × String) → DrainReport → DrainReport → Prop
  | start : Spoiled [] .empty .empty
  | skip {moved : List (TaskId × String)} {r r' : DrainReport} (h : Spoiled moved r r')
      (task : TaskId) : Spoiled moved (r.skip task) (r'.skip task)
  | execute {moved : List (TaskId × String)} {r r' : DrainReport} (h : Spoiled moved r r')
      (task : TaskId) : Spoiled moved (r.execute task) (r'.execute task)
  | fail {moved : List (TaskId × String)} {r r' : DrainReport} (h : Spoiled moved r r')
      (task : TaskId) (e : TaskError) : Spoiled moved (r.fail task e) (r'.fail task e)
  | move {moved : List (TaskId × String)} {r r' : DrainReport} (h : Spoiled moved r r')
      (task : TaskId) (text : String) :
      Spoiled (moved ++ [(task, text)]) (r.execute task) (r'.fail task (.failed text))

/-- A loop in the same state, with such a report. -/
structure DispatchLoop.Spoiled (moved : List (TaskId × String)) (l l' : DispatchLoop) : Prop where
  state : l'.state = l.state
  report : l.report.Spoiled moved l'.report

namespace DrainReport

variable {moved : List (TaskId × String)} {r r' : DrainReport}

/-- What the two reports have in common. -/
theorem Spoiled.facts (spoiled : r.Spoiled moved r') :
    r'.executed.Sublist r.executed ∧ r.failed.Sublist r'.failed ∧ r'.skipped = r.skipped
      ∧ r.executed.Perm (r'.executed ++ moved.map Prod.fst)
      ∧ r'.failed.Perm (r.failed ++ moved) := by
  induction spoiled with
  | start => exact ⟨.refl _, .refl _, rfl, .refl _, .refl _⟩
  | skip h task ih =>
    obtain ⟨executed, failed, skipped, left, more⟩ := ih
    exact ⟨executed, failed, congrArg (· ++ [task]) skipped, left, more⟩
  | @execute moved r r' h task ih =>
    obtain ⟨executed, failed, skipped, left, more⟩ := ih
    refine ⟨executed.append (.refl _), failed, skipped, ?_, more⟩
    calc (r.executed ++ [task]).Perm (r'.executed ++ moved.map Prod.fst ++ [task]) :=
          left.append_right _
      List.Perm _ (r'.executed ++ ([task] ++ moved.map Prod.fst)) := by
          rw [List.append_assoc]
          exact List.perm_append_comm.append_left _
      _ = r'.executed ++ [task] ++ moved.map Prod.fst := (List.append_assoc _ _ _).symm
  | @fail moved r r' h task e ih =>
    obtain ⟨executed, failed, skipped, left, more⟩ := ih
    refine ⟨executed, failed.append (.refl _), skipped, left, ?_⟩
    calc (r'.failed ++ [(task, e.message)]).Perm (r.failed ++ moved ++ [(task, e.message)]) :=
          more.append_right _
      List.Perm _ (r.failed ++ ([(task, e.message)] ++ moved)) := by
          rw [List.append_assoc]
          exact List.perm_append_comm.append_left _
      _ = r.failed ++ [(task, e.message)] ++ moved := (List.append_assoc _ _ _).symm
  | @move moved r r' h task text ih =>
    obtain ⟨executed, failed, skipped, left, more⟩ := ih
    refine ⟨executed.trans (List.sublist_append_left _ _),
      failed.trans (List.sublist_append_left _ _), skipped, ?_, ?_⟩
    · show (r.executed ++ [task]).Perm (r'.executed ++ (moved ++ [(task, text)]).map Prod.fst)
      rw [List.map_append, ← List.append_assoc]
      exact left.append_right _
    · show (r'.failed ++ [(task, text)]).Perm (r.failed ++ (moved ++ [(task, text)]))
      rw [← List.append_assoc]
      exact more.append_right _

end DrainReport

/-! ### Lines and log entries -/

/-- An entry as the log of a worker records it. -/
def LogEntry.ofSource (source : Option WorkerId) (e : LogEntry) : LogEntry :=
  { e with source := e.source <|> source }

/-- The same lines, and among them those of failures; the line of a drain that has ended
counts these. -/
inductive Lines.Spoiled : List LogEntry → List PrintedLine → List PrintedLine → Prop
  | start (o : List PrintedLine) : Lines.Spoiled [] o o
  | same {failures : List LogEntry} {o o' : List PrintedLine} (h : Lines.Spoiled failures o o')
      (l : PrintedLine) : Lines.Spoiled failures (o ++ [l]) (o' ++ [l])
  | added {failures : List LogEntry} {o o' : List PrintedLine} (h : Lines.Spoiled failures o o')
      (e : LogEntry) : Lines.Spoiled (failures ++ [e]) o (o' ++ [⟨e.render, true⟩])
  | counted {failures : List LogEntry} {o o' : List PrintedLine} (h : Lines.Spoiled failures o o')
      (source : Option WorkerId) {moved : List (TaskId × String)} {r r' : DrainReport}
      (report : r.Spoiled moved r') :
      Lines.Spoiled failures (o ++ [⟨((LogEntry.drainFinished r).ofSource source).render, false⟩])
        (o' ++ [⟨((LogEntry.drainFinished r').ofSource source).render, false⟩])

/-- The same log entries, and among them those of failures. -/
inductive Entries.Spoiled (source : Option WorkerId) :
    List Failure → List LogEntry → List LogEntry → Prop
  | start : Entries.Spoiled source [] [] []
  | same {failures : List Failure} {es es' : List LogEntry}
      (h : Entries.Spoiled source failures es es') (e : LogEntry) :
      Entries.Spoiled source failures (es ++ [e]) (es' ++ [e])
  | added {failures : List Failure} {es es' : List LogEntry}
      (h : Entries.Spoiled source failures es es') (f : Failure) :
      Entries.Spoiled source (failures ++ [f]) es (es' ++ [f.entry.ofSource source])
  | counted {failures : List Failure} {es es' : List LogEntry}
      (h : Entries.Spoiled source failures es es') {moved : List (TaskId × String)}
      {r r' : DrainReport} (report : r.Spoiled moved r') :
      Entries.Spoiled source failures (es ++ [(LogEntry.drainFinished r).ofSource source])
        (es' ++ [(LogEntry.drainFinished r').ofSource source])

/-! ### Hosts with other lines -/

namespace Host

variable {h k : Host} {o : List PrintedLine} {failures : List LogEntry}

/-- A host with other lines. -/
def withOutput (h : Host) (o : List PrintedLine) : Host := { h with output := o }

/-- Whether an operation neither prints nor sees what is printed. -/
def Mute {α : Type} (f : Host → Host × α) : Prop :=
  ∀ h o, f (h.withOutput o) = ((f h).1.withOutput o, (f h).2)

theorem modifyContext_withOutput (h : Host) (o : List PrintedLine) (id : ContextId)
    (f : Context → Context) :
    (h.withOutput o).modifyContext id f = (h.modifyContext id f).withOutput o := by
  cases id <;> rfl

theorem context?_withOutput (h : Host) (o : List PrintedLine) (id : ContextId) :
    (h.withOutput o).context? id = h.context? id := by
  cases id <;> rfl

theorem Mute.ite {α : Type} {p : Host → Prop} [DecidablePred p] {f g : Host → Host × α}
    (blind : ∀ h o, p (h.withOutput o) ↔ p h) (first : Mute f) (second : Mute g) :
    Mute fun h => if p h then f h else g h := by
  intro h o
  by_cases holds : p h
  · simp only [if_pos holds, if_pos ((blind h o).mpr holds), first h o]
  · simp only [if_neg holds, if_neg (mt (blind h o).mp holds), second h o]

theorem mute_enqueue (lost : Bool) (id : ContextId) (task : TaskId) :
    Mute fun h => h.enqueue lost id task := by
  intro h o
  dsimp only [enqueue]
  rw [context?_withOutput]
  cases h.context? id with
  | none => rfl
  | some c =>
    cases lost with
    | true => rfl
    | false =>
      simp only [Bool.false_eq_true, if_false]
      cases c.queue.push? task with
      | none => rfl
      | some queue => exact congrArg (·, _) (modifyContext_withOutput h o id _)

theorem mute_registerTask (id : ContextId) (task : TaskId) :
    Mute fun h => h.registerTask id task :=
  .ite (fun _ _ => .rfl) (fun _ _ => rfl) fun h o =>
    mute_enqueue _ id task (h.passRegistration.withFaults _) o

theorem mute_dequeue (repeated : Bool) (id : ContextId) : Mute fun h => h.dequeue repeated id := by
  intro h o
  dsimp only [dequeue]
  rw [context?_withOutput]
  cases h.context? id with
  | none => rfl
  | some c =>
    cases repeated with
    | true => rfl
    | false => exact congrArg (·, _) (modifyContext_withOutput h o id _)

theorem mute_pull (id : ContextId) : Mute fun h => h.pull id :=
  .ite (fun _ _ => .rfl) (fun _ _ => rfl) fun h o => mute_dequeue _ id (h.passPull.withFaults _) o

theorem mute_spawn (d : ContextDescriptor) : Mute fun h => h.spawn d :=
  .ite (fun _ _ => .rfl) (fun _ _ => rfl) fun _ _ => rfl

theorem mute_setTimeout (delay : Duration) : Mute fun h => h.setTimeout delay :=
  .ite (fun _ _ => .rfl) (fun _ _ => rfl) fun _ _ => rfl

theorem mute_drive : Mute drive := by
  intro h o
  unfold drive
  rw [show (h.withOutput o).timers.nextDeadline? = h.timers.nextDeadline? from rfl]
  cases h.timers.nextDeadline? <;> rfl

theorem mute_awaitWithin (fuel : Nat) (σ : Signal) : Mute fun h => awaitWithin fuel h σ := by
  intro h o
  have same : ∀ h : Host, (h.withOutput o).completion? σ = h.completion? σ := fun _ => rfl
  dsimp only
  induction fuel generalizing h with
  | zero =>
    unfold awaitWithin
    rw [same]
    cases h.completion? σ <;> rfl
  | succ fuel ih =>
    unfold awaitWithin
    rw [same, mute_drive h o]
    cases h.completion? σ with
    | some c => rfl
    | none =>
      cases h.drive with
      | mk k fired =>
        cases fired with
        | true => exact ih k
        | false => rfl

theorem mute_sleep (delay : Duration) : Mute fun h => h.sleep delay := by
  intro h o
  have set := mute_setTimeout delay h o
  dsimp only [sleep, await] at set ⊢
  rw [set]
  exact mute_awaitWithin _ _ _ o

/-- The same host with lines of failures added. -/
structure Spoiled (failures : List LogEntry) (h k : Host) : Prop where
  same : k = h.withOutput k.output
  lines : Lines.Spoiled failures h.output k.output

theorem spoiled_withOutput (lines : Lines.Spoiled failures h.output o) :
    h.Spoiled failures (h.withOutput o) := ⟨rfl, lines⟩

theorem Mute.output {α : Type} {f : Host → Host × α} (mute : Mute f) (h : Host) :
    (f h).1.output = h.output := congrArg (fun p => p.1.output) (mute h h.output)

/-- A mute operation does the same. -/
theorem Spoiled.mute {α : Type} {f : Host → Host × α} (spoiled : h.Spoiled failures k)
    (mute : Mute f) : (f h).1.Spoiled failures (f k).1 ∧ (f k).2 = (f h).2 := by
  have done := mute h k.output
  rw [← spoiled.same] at done
  rw [done]
  refine ⟨spoiled_withOutput ?_, rfl⟩
  rw [mute.output]
  exact spoiled.lines

theorem Spoiled.print (spoiled : h.Spoiled failures k) (line : String) (isError : Bool) :
    (h.print line isError).Spoiled failures (k.print line isError) := by
  refine ⟨?_, spoiled.lines.same _⟩
  rw [spoiled.same]
  rfl

theorem Spoiled.clock (spoiled : h.Spoiled failures k) : k.clock = h.clock := by
  rw [spoiled.same]
  rfl

theorem Spoiled.faults (spoiled : h.Spoiled failures k) : k.faults = h.faults := by
  rw [spoiled.same]
  rfl

theorem Spoiled.completion? (spoiled : h.Spoiled failures k) : k.completion? = h.completion? := by
  rw [spoiled.same]
  rfl

theorem Spoiled.signal (spoiled : h.Spoiled failures k) (id : ContextId) :
    (h.signal id).Spoiled failures (k.signal id) := by
  have counted :
      Mute fun h => (h.modifyContext id fun c => { c with signals := c.signals + 1 }, ()) :=
    fun h o => congrArg (·, ()) (modifyContext_withOutput h o id _)
  exact (spoiled.mute counted).1.print "woof\n" false

end Host

/-- What a call answers does not depend on lines. -/
theorem Bridge.spoiled_call {φ ψ : Type} {b : Bridge φ} {b' : Bridge ψ}
    (context : b'.context = b.context) (size : b'.timers.size = b.timers.size)
    {failures : List LogEntry} {h k : Host} (spoiled : h.Spoiled failures k) (c : HostCall) :
    (b.call h c).1.Spoiled failures (b'.call k c).1 ∧ (b'.call k c).2 = (b.call h c).2 := by
  cases c with
  | read path =>
    obtain ⟨after, result⟩ := spoiled.mute (f := fun h => h.loadFile path) fun _ _ => rfl
    exact ⟨after, congrArg (fun c => c.result.map Answer.bytes) result⟩
  | readText path =>
    obtain ⟨after, result⟩ := spoiled.mute (f := fun h => h.loadFile path) fun _ _ => rfl
    refine ⟨after, ?_⟩
    simp only [call, result]
  | write path contents =>
    obtain ⟨after, result⟩ := spoiled.mute (f := fun h => h.storeFile path contents) fun _ _ => rfl
    exact ⟨after, congrArg (fun c => c.result.map fun () => Answer.done) result⟩
  | remove path =>
    obtain ⟨after, result⟩ := spoiled.mute (f := fun h => h.removeFile path) fun _ _ => rfl
    exact ⟨after, congrArg (Except.map fun _ => Answer.done) result⟩
  | fetch url =>
    obtain ⟨after, result⟩ := spoiled.mute (f := fun h => h.fetch url) fun _ _ => rfl
    exact ⟨after, congrArg (fun c => c.result.map Answer.response) result⟩
  | sleep delay =>
    obtain ⟨after, result⟩ := spoiled.mute (Host.mute_sleep delay)
    exact ⟨after, congrArg (Except.map fun _ => Answer.done) result⟩
  | push task =>
    obtain ⟨after, result⟩ := spoiled.mute (Host.mute_registerTask b.context task)
    simp only [call, context]
    exact ⟨after, congrArg (Except.map fun () => Answer.done) result⟩
  | pull =>
    obtain ⟨after, result⟩ := spoiled.mute (Host.mute_pull b.context)
    simp only [call, context]
    exact ⟨after, congrArg (Except.map Answer.task) result⟩
  | signal =>
    simp only [call, context]
    exact ⟨spoiled.signal b.context, trivial⟩
  | pending =>
    simp only [call, size]
    exact ⟨spoiled, trivial⟩
  | now =>
    simp only [call, spoiled.clock]
    exact ⟨spoiled, trivial⟩

/-! ### Registries -/

/-- The same tasks, with callbacks that may be spoiled. -/
structure Registry.Spoiled (r r' : Registry Body) : Prop where
  callbacks :
    List.Forall₂ (fun p p' => p'.1 = p.1 ∧ Body.MayBreak p.2 p'.2) r.callbacks r'.callbacks
  running : r'.running = r.running

namespace Registry

variable {r r' : Registry Body}

theorem Spoiled.callback? (spoiled : r.Spoiled r') (task : TaskId) :
    Option.Rel Body.MayBreak (r.callback? task) (r'.callback? task) := by
  obtain ⟨callbacks, running⟩ := r
  obtain ⟨callbacks', running'⟩ := r'
  obtain ⟨pairs, -⟩ := spoiled
  simp only [Registry.callback?] at pairs ⊢
  induction pairs with
  | nil => exact .none
  | @cons p p' rest rest' pair pairs ih =>
    obtain ⟨key, body⟩ := p
    obtain ⟨key', body'⟩ := p'
    obtain ⟨rfl, breaks⟩ := pair
    simp only [List.lookup_cons]
    cases task == key' with
    | true => exact .some breaks
    | false => exact ih

theorem Spoiled.contains (spoiled : r.Spoiled r') (task : TaskId) :
    r'.contains task = r.contains task := by
  have found := spoiled.callback? task
  unfold Registry.contains
  generalize r.callback? task = a at found
  generalize r'.callback? task = b at found
  cases found <;> rfl

theorem Spoiled.refusal? (spoiled : r.Spoiled r') (task : TaskId) :
    r'.refusal? task = r.refusal? task := by
  unfold Registry.refusal?
  rw [spoiled.contains, spoiled.running]

theorem Spoiled.add (spoiled : r.Spoiled r') (task : TaskId) {b b' : Body}
    (breaks : Body.MayBreak b b') : (r.add task b).Spoiled (r'.add task b') :=
  ⟨List.rel_append spoiled.callbacks (.cons ⟨rfl, breaks⟩ .nil), spoiled.running⟩

theorem Spoiled.take (spoiled : r.Spoiled r') (task : TaskId) :
    (r.take task).2.Spoiled (r'.take task).2 := by
  refine ⟨?_, spoiled.running⟩
  refine List.rel_filter (fun p p' pair => ?_) spoiled.callbacks
  dsimp only
  rw [pair.1]

end Registry

/-! ### Timers -/

/-- The same timer, with a callback that may be spoiled. -/
structure WaitingTimer.Spoiled (w w' : WaitingTimer Signal Body) : Prop where
  id : w'.id = w.id
  signal : w'.signal = w.signal
  callback : Body.MayBreak w.callback w'.callback

/-- The same timer with the same outcome. -/
structure ReadyTimer.Spoiled (r r' : ReadyTimer Body) : Prop where
  id : r'.id = r.id
  result : r'.result = r.result
  callback : Body.MayBreak r.callback r'.callback

/-- A bridge with the same timers. -/
structure Bridge.Spoiled (b b' : Bridge Body) : Prop where
  context : b'.context = b.context
  waiting : List.Forall₂ WaitingTimer.Spoiled b.timers.waiting b'.timers.waiting
  nextId : b'.timers.nextId = b.timers.nextId

theorem forall₂_insertByKey {α : Type} {R : α → α → Prop} {key : α → Nat × Nat}
    (keys : ∀ a a', R a a' → key a' = key a) {a a' : α} (first : R a a') {l l' : List α}
    (rest : List.Forall₂ R l l') :
    List.Forall₂ R (insertByKey key a l) (insertByKey key a' l') := by
  induction rest with
  | nil => exact .cons first .nil
  | @cons b b' l l' second rest ih =>
    unfold insertByKey
    rw [keys a a' first, keys b b' second]
    split
    · exact .cons first (.cons second rest)
    · exact .cons second ih

theorem forall₂_sortByKey {α : Type} {R : α → α → Prop} {key : α → Nat × Nat}
    (keys : ∀ a a', R a a' → key a' = key a) {l l' : List α} (items : List.Forall₂ R l l') :
    List.Forall₂ R (sortByKey key l) (sortByKey key l') := by
  induction items with
  | nil => exact .nil
  | cons first rest ih => exact forall₂_insertByKey keys first ih

namespace Bridge

variable {b b' : Bridge Body}

theorem Spoiled.size (spoiled : b.Spoiled b') : b'.timers.size = b.timers.size :=
  spoiled.waiting.length_eq.symm

theorem Spoiled.insert (spoiled : b.Spoiled b') (σ : Signal) {body body' : Body}
    (breaks : Body.MayBreak body body') :
    Spoiled { b with timers := b.timers.insert σ body }
      { b' with timers := b'.timers.insert σ body' } where
  context := spoiled.context
  waiting := List.rel_append spoiled.waiting
    (.cons ⟨congrArg TimerId.mk spoiled.nextId, rfl, breaks⟩ .nil)
  nextId := congrArg (· + 1) spoiled.nextId

/-- The same timers are ready, with the same places in their order. -/
theorem Spoiled.ready (spoiled : b.Spoiled b') (outcome : Signal → Option (Completion Unit)) :
    List.Forall₂ (fun p p' => p'.1 = p.1 ∧ ReadyTimer.Spoiled p.2 p'.2) (b.timers.ready outcome)
      (b'.timers.ready outcome) := by
  have pairs := spoiled.waiting
  unfold TimerTable.ready
  generalize b.timers.waiting = l at pairs ⊢
  generalize b'.timers.waiting = l' at pairs ⊢
  induction pairs with
  | nil => exact .nil
  | @cons w w' l l' timer rest ih =>
    simp only [List.filterMap_cons, timer.signal]
    cases outcome w.signal with
    | none => exact ih
    | some c => exact .cons ⟨rfl, timer.id, rfl, timer.callback⟩ ih

/-- The same timers are handed out, in the same order. -/
theorem Spoiled.takeReady (spoiled : b.Spoiled b') (h : Host) :
    List.Forall₂ ReadyTimer.Spoiled (b.takeReady h).1 (b'.takeReady h).1
      ∧ (b.takeReady h).2.Spoiled (b'.takeReady h).2 := by
  constructor
  · have keys (p p' : Nat × ReadyTimer Body) (pair : p'.1 = p.1 ∧ ReadyTimer.Spoiled p.2 p'.2) :
        TimerTable.readyKey p' = TimerTable.readyKey p := by
      simp only [TimerTable.readyKey, pair.1, pair.2.id]
    have sorted := forall₂_sortByKey keys (spoiled.ready h.completion?)
    exact List.rel_map (fun p p' pair => pair.2) sorted
  · refine ⟨spoiled.context, ?_, spoiled.nextId⟩
    refine List.rel_filter (fun w w' timer => ?_) spoiled.waiting
    dsimp only
    rw [timer.signal]

end Bridge

/-! ### Journals -/

/-- The same occurrence, with callbacks that may be spoiled. -/
inductive Occurrence.Spoiled : Occurrence → Occurrence → Prop
  | registered (task : TaskId) (lost : Bool) {b b' : Body} (breaks : Body.MayBreak b b') :
      Spoiled (.registered task b lost) (.registered task b' lost)
  | pulled (task : Option TaskId) : Spoiled (.pulled task) (.pulled task)
  | acted (scope : Option TaskId) (clock : Instant) {a a' : Action} (action : a.Spoiled a')
      (r : Except TaskError Answer) : Spoiled (.acted scope clock a r) (.acted scope clock a' r)

/-- A callback that has begun and not ended, with the failure at its end if it is
spoiled. -/
structure Active where
  trigger : Trigger
  scope : Option TaskId
  change : Option String

/-- The same occurrences in the same order. A callback that is spoiled and ends well in
one journal has in the other one a failure as its last action and ends with it; these
callbacks are listed, as they end. -/
inductive Journal.Spoiled :
    Option Active → List Failure → List Occurrence → List Occurrence → Prop
  | start : Journal.Spoiled none [] [] []
  | same {active : Option Active} {broke : List Failure} {j j' : List Occurrence}
      (h : Journal.Spoiled active broke j j') {o o' : Occurrence} (occurrence : o.Spoiled o') :
      Journal.Spoiled active broke (j ++ [o]) (j' ++ [o'])
  | began {broke : List Failure} {j j' : List Occurrence} (h : Journal.Spoiled none broke j j')
      (trigger : Trigger) (scope running : Option TaskId) {change : Option String} {b b' : Body}
      (body : Body.Spoiled change b b') :
      Journal.Spoiled (some ⟨trigger, scope, change⟩) broke (j ++ [.began trigger scope running b])
        (j' ++ [.began trigger scope running b'])
  | ended {broke : List Failure} {j j' : List Occurrence} {trigger : Trigger}
      {scope : Option TaskId} {change : Option String}
      (h : Journal.Spoiled (some ⟨trigger, scope, change⟩) broke j j')
      (outcome : Except TaskError Unit) (ends : outcome = .ok () → change = none) :
      Journal.Spoiled none broke (j ++ [.ended trigger outcome]) (j' ++ [.ended trigger outcome])
  | broke {broke : List Failure} {j j' : List Occurrence} {trigger : Trigger}
      {scope : Option TaskId} {text : String}
      (h : Journal.Spoiled (some ⟨trigger, scope, some text⟩) broke j j') (clock : Instant) :
      Journal.Spoiled none (broke ++ [⟨trigger, scope, text⟩]) (j ++ [.ended trigger (.ok ())])
        (j' ++ [.acted scope clock (.fail text) (.error (.failed text)),
          .ended trigger (.error (.failed text))])

/-! ### Workers and stations -/

/-- A worker whose callbacks may be spoiled, with the source of its log and the failures
that it has logged. -/
structure Worker.Spoiled (source : Option WorkerId) (failures : List Failure) (w w' : Worker) :
    Prop where
  handle : w'.handle = w.handle
  registry : w.registry.Spoiled w'.registry
  bridge : w.bridge.Spoiled w'.bridge
  logs : w.logger.source = source
  logs' : w'.logger.source = source
  threshold : w'.logger.threshold = w.logger.threshold
  entries : Entries.Spoiled source failures w.logger.entries w'.logger.entries

/-- What has become of spoiled callbacks: the entries of failures that were printed, the
source of the worker's log, the failures that are logged there, the callback that is
running, and those that have ended with their failure. -/
structure Ledger where
  printed : List LogEntry
  source : Option WorkerId
  logged : List Failure
  active : Option Active
  broke : List Failure

/-- The same station, except for what becomes of spoiled callbacks. -/
structure Station.Spoiled (L : Ledger) (s s' : Station) : Prop where
  host : s.host.Spoiled L.printed s'.host
  worker : s.worker.Spoiled L.source L.logged s'.worker
  journal : Journal.Spoiled L.active L.broke s.journal s'.journal

namespace Station

variable {L : Ledger} {s s' : Station}

theorem Spoiled.context (spoiled : s.Spoiled L s') : s'.context = s.context :=
  spoiled.worker.bridge.context

theorem Spoiled.note (spoiled : s.Spoiled L s') {o o' : Occurrence} (occurrence : o.Spoiled o') :
    (s.note o).Spoiled L (s'.note o') :=
  ⟨spoiled.host, spoiled.worker, spoiled.journal.same occurrence⟩

/-- Something is done at the host that neither prints nor sees lines. -/
theorem Spoiled.mute (spoiled : s.Spoiled L s') {α : Type} {f : Host → Host × α}
    (mute : Host.Mute f) :
    Spoiled L { s with host := (f s.host).1 } { s' with host := (f s'.host).1 }
      ∧ (f s'.host).2 = (f s.host).2 := by
  obtain ⟨after, result⟩ := spoiled.host.mute mute
  exact ⟨⟨after, spoiled.worker, spoiled.journal⟩, result⟩

theorem Spoiled.withRegistry (spoiled : s.Spoiled L s') {r r' : Registry Body}
    (registry : r.Spoiled r') :
    (s.withRegistry r s.host).Spoiled L (s'.withRegistry r' s'.host) :=
  ⟨spoiled.host, { spoiled.worker with registry := registry }, spoiled.journal⟩

theorem Spoiled.withBridge (spoiled : s.Spoiled L s') {b b' : Bridge Body} (bridge : b.Spoiled b') :
    Spoiled L { s with worker := { s.worker with bridge := b } }
      { s' with worker := { s'.worker with bridge := b' } } :=
  ⟨spoiled.host, { spoiled.worker with bridge := bridge }, spoiled.journal⟩

/-! ### Logging -/

theorem Spoiled.record (spoiled : s.Spoiled L s') {printed : List LogEntry}
    {logged : List Failure} {h h' : Host} (host : h.Spoiled printed h') {es es' : List LogEntry}
    (entries : Entries.Spoiled L.source logged es es') :
    Spoiled { L with printed := printed, logged := logged }
      { s with host := h,
               worker := { s.worker with logger := { s.worker.logger with entries := es } } }
      { s' with host := h',
                worker := { s'.worker with logger := { s'.worker.logger with entries := es' } } } :=
  ⟨host, { spoiled.worker with entries := entries }, spoiled.journal⟩

theorem Spoiled.attributed (spoiled : s.Spoiled L s') (e : LogEntry) :
    s.worker.logger.attributed e = e.ofSource L.source
      ∧ s'.worker.logger.attributed e = e.ofSource L.source := by
  unfold Logger.attributed LogEntry.ofSource
  rw [spoiled.worker.logs, spoiled.worker.logs']
  exact ⟨rfl, rfl⟩

/-- Two entries of one level are recorded, and are printed or not. -/
theorem Spoiled.logAlike (spoiled : s.Spoiled L s') {e e' : LogEntry} (level : e'.level = e.level)
    (host : (s.host.print (e.ofSource L.source).render (e.level.atLeast .warn)).Spoiled L.printed
      (s'.host.print (e'.ofSource L.source).render (e.level.atLeast .warn)))
    (entries : Entries.Spoiled L.source L.logged (s.worker.logger.entries ++ [e.ofSource L.source])
      (s'.worker.logger.entries ++ [e'.ofSource L.source])) :
    (s.log e).Spoiled L (s'.log e') := by
  have threshold := spoiled.worker.threshold
  have known : (e.ofSource L.source).level = e.level := rfl
  have known' : (e'.ofSource L.source).level = e.level := level
  unfold Station.log Logger.log
  simp only [(spoiled.attributed e).1, (spoiled.attributed e').2, known, known']
  by_cases shown : e.level.atLeast s.worker.logger.threshold
  · have shown' : e.level.atLeast s'.worker.logger.threshold := by rw [threshold]; exact shown
    simp only [if_pos shown, if_pos shown']
    exact spoiled.record host entries
  · have shown' : ¬ e.level.atLeast s'.worker.logger.threshold := by rw [threshold]; exact shown
    simp only [if_neg shown, if_neg shown']
    exact spoiled.record spoiled.host entries

theorem Spoiled.log (spoiled : s.Spoiled L s') (e : LogEntry) : (s.log e).Spoiled L (s'.log e) :=
  spoiled.logAlike rfl (spoiled.host.print _ _) (spoiled.worker.entries.same _)

/-- The end of a drain is logged, with other counts. -/
theorem Spoiled.logCounted (spoiled : s.Spoiled L s') {moved : List (TaskId × String)}
    {r r' : DrainReport} (report : r.Spoiled moved r') :
    (s.log (.drainFinished r)).Spoiled L (s'.log (.drainFinished r')) := by
  refine spoiled.logAlike rfl ⟨?_, ?_⟩ (spoiled.worker.entries.counted report)
  · rw [spoiled.host.same]
    rfl
  · exact spoiled.host.lines.counted L.source report

/-- A failure is logged, and printed. -/
theorem Spoiled.logFailure (spoiled : s.Spoiled L s') (f : Failure) :
    Spoiled
      { L with printed := L.printed ++ [f.entry.ofSource L.source], logged := L.logged ++ [f] }
      s (s'.log f.entry) := by
  have level : (f.entry.ofSource L.source).level = .error := by
    obtain ⟨trigger, scope, text⟩ := f
    cases trigger with
    | task key => rfl
    | timer key => cases scope <;> rfl
  have shown (t : LogLevel) : LogLevel.error.atLeast t = true := by cases t <;> rfl
  have host : s.host.Spoiled (L.printed ++ [f.entry.ofSource L.source])
      (s'.host.print (f.entry.ofSource L.source).render true) := by
    refine ⟨?_, spoiled.host.lines.added _⟩
    rw [spoiled.host.same]
    rfl
  unfold Station.log Logger.log
  simp only [(spoiled.attributed f.entry).2, level, shown, if_true]
  exact spoiled.record host (spoiled.worker.entries.added f)

/-! ### Actions -/

theorem Spoiled.register (spoiled : s.Spoiled L s') (task : TaskId) {b b' : Body}
    (breaks : Body.MayBreak b b') :
    (s.register task b).1.Spoiled L (s'.register task b').1
      ∧ (s'.register task b').2 = (s.register task b).2 := by
  have called := spoiled.mute (Host.mute_registerTask s.context task)
  have registry := spoiled.worker.registry
  unfold Station.register
  rw [Registry.register_eq, Registry.register_eq, registry.refusal?, spoiled.context, spoiled.host.faults]
  cases s.worker.registry.refusal? task with
  | some e => exact ⟨spoiled.withRegistry registry, rfl⟩
  | none =>
    simp only
    cases hr : s.host.registerTask s.context task with
    | mk h r =>
      cases kr : s'.host.registerTask s.context task with
      | mk k r' =>
        rw [hr, kr] at called
        obtain ⟨after, rfl⟩ := called
        cases r' with
        | error e => exact ⟨after.withRegistry registry, rfl⟩
        | ok u =>
          exact ⟨(after.withRegistry (registry.add task breaks)).note (.registered task _ breaks),
            rfl⟩

theorem Spoiled.setTimeout (spoiled : s.Spoiled L s') (delay : Duration) {b b' : Body}
    (breaks : Body.MayBreak b b') :
    (s.setTimeout delay b).1.Spoiled L (s'.setTimeout delay b').1
      ∧ (s'.setTimeout delay b').2 = (s.setTimeout delay b).2 := by
  obtain ⟨after, signal⟩ := spoiled.mute (Host.mute_setTimeout delay)
  unfold Station.setTimeout Bridge.setTimeout
  simp only [signal]
  exact ⟨after.withBridge (spoiled.worker.bridge.insert _ breaks),
    congrArg TimerId.mk spoiled.worker.bridge.nextId⟩

theorem Spoiled.call (spoiled : s.Spoiled L s') (c : HostCall) :
    (s.call c).1.Spoiled L (s'.call c).1 ∧ (s'.call c).2 = (s.call c).2 := by
  have bridge := spoiled.worker.bridge
  obtain ⟨after, result⟩ := Bridge.spoiled_call bridge.context bridge.size spoiled.host c
  exact ⟨⟨after, spoiled.worker, spoiled.journal⟩, result⟩

theorem Spoiled.pull (spoiled : s.Spoiled L s') :
    s.pull.1.Spoiled L s'.pull.1 ∧ s'.pull.2 = s.pull.2 := by
  have called := spoiled.mute (Host.mute_pull s.context)
  unfold Station.pull
  rw [spoiled.context]
  cases hr : s.host.pull s.context with
  | mk h r =>
    cases kr : s'.host.pull s.context with
    | mk k r' =>
      rw [hr, kr] at called
      obtain ⟨after, rfl⟩ := called
      cases r' with
      | error e => exact ⟨after, rfl⟩
      | ok task => exact ⟨after.note (.pulled task), rfl⟩

/-- An action does the same, with the same result. -/
theorem Spoiled.act (spoiled : s.Spoiled L s') {a a' : Action} (action : a.Spoiled a') :
    (s.act a).1.Spoiled L (s'.act a').1 ∧ (s'.act a').2 = (s.act a).2 := by
  cases action with
  | call c =>
    obtain ⟨after, result⟩ := spoiled.call c
    exact ⟨after, congrArg (Except.mapError TaskError.host) result⟩
  | mark note => exact ⟨spoiled, rfl⟩
  | who => exact ⟨spoiled, by simp only [Station.act, Worker.identity, spoiled.worker.handle]⟩
  | register task body =>
    obtain ⟨after, result⟩ := spoiled.register task ⟨_, body⟩
    refine ⟨after, ?_⟩
    simp only [Station.act, result]
  | setTimeout delay body =>
    obtain ⟨after, result⟩ := spoiled.setTimeout delay ⟨_, body⟩
    refine ⟨after, ?_⟩
    simp only [Station.act, result]
  | console stream args => exact ⟨⟨spoiled.host.print _ _, spoiled.worker, spoiled.journal⟩, rfl⟩
  | log e => exact ⟨spoiled.log e, rfl⟩
  | pause delay =>
    obtain ⟨after, result⟩ := spoiled.mute (Host.mute_sleep delay)
    refine ⟨after, ?_⟩
    simp only [Station.act, Station.sleep, result]
  | fail text => exact ⟨spoiled, rfl⟩
  | attempt tried =>
    have acted := Spoiled.act spoiled tried
    exact acted

theorem Spoiled.takeCallback (spoiled : s.Spoiled L s') (task : TaskId) :
    (s.takeCallback task).2.Spoiled L (s'.takeCallback task).2
      ∧ Option.Rel Body.MayBreak (s.takeCallback task).1 (s'.takeCallback task).1 :=
  ⟨spoiled.withRegistry (spoiled.worker.registry.take task),
    spoiled.worker.registry.callback? task⟩

end Station
end TaskHost
