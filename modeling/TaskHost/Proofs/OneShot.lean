/-
# Deferreds as one-shot cells

A run of a deferred is a sequence of calls on its two ends, each with its reply
(`DeferredPair.Runs`). What the cell holds can be read off the calls and replies
(`Deferred.Tells`): it is pending until the completer is used, then it has the result that the
completer was used for, and it is taken once a reply has brought this result. Each call keeps
that up (`DeferredPair.Follows.answer`), and each reply is given by it
(`DeferredPair.Follows.answer?_of_used`, `DeferredPair.Follows.answer?_of_unused`). So over every
run the results that are brought are the completed one first and cancellations after it
(`DeferredPair.one_shot`).

Key definitions: `DeferredPair.Call`, `DeferredPair.answer?`, `DeferredPair.Runs`,
`DeferredPair.used?`, `DeferredPair.results`, `Deferred.Tells`, `DeferredPair.OneShot`.
Key theorems: `Deferred.waitWith_result`, `DeferredPair.Runs.follows`, `DeferredPair.one_shot`.
-/
import TaskHost.Proofs.DrivenWaits

namespace TaskHost
namespace Deferred

variable {α : Type}

/-! ### What a cell brings -/

/-- What the drive calls of a wait use the completer for, if one of them does up to the first
that says to stop. When they are used up the driver gives up. -/
def usedBy : List (Drive α) → Option (Completion α)
  | [] => some .cancelled
  | v :: rest =>
    match v.completion with
    | some c => some c
    | none => if v.goOn then usedBy rest else none

/-- A wait for a pending cell brings what its drive calls use the completer for. -/
theorem waitWith_result (drives : List (Drive α)) :
    (pending.waitWith drives).result = (usedBy drives).map (·.result) := by
  induction drives with
  | nil => rfl
  | cons v rest ih =>
    cases on : v.goOn with
    | false =>
      rw [waitWith_stop on, apply_pending, usedBy]
      cases v.completion with
      | some c => rfl
      | none => simp [on, tryTake]
    | true =>
      rw [waitWith_on on, apply_pending, usedBy]
      cases v.completion with
      | some c =>
        have ready : (complete c).isReady = true := rfl
        exact congrArg Waited.result (waitWith_of_ready ready rest)
      | none =>
        simp only [on, if_true]
        exact ih

theorem tryTake_of_some {d : Deferred α} {r : Except HostError α} (there : d.tryTake.1 = some r) :
    d.tryTake = (some r, .taken) := by
  cases d with
  | pending => cases there
  | complete c => exact Prod.ext there rfl
  | taken => exact Prod.ext there rfl

/-- Whether a cell is as told by what its completer was used for and the results that it has
brought: none until then, and afterwards the result first and cancellations after it. -/
inductive Tells : Option (Completion α) → List (Except HostError α) → Deferred α → Prop
  | unused : Tells none [] .pending
  | filled (c : Completion α) : Tells (some c) [] (.complete c)
  | taken (c : Completion α) (n : Nat) :
      Tells (some c) (c.result :: List.replicate n (.error .cancelled)) .taken

/-- What a cell brings: the result that its completer was used for, and a cancellation once it
has brought that. -/
def offered (used : Option (Completion α)) (results : List (Except HostError α)) :
    Option (Except HostError α) :=
  used.map fun c => if results.isEmpty then c.result else .error .cancelled

theorem isSome_of_offered {used : Option (Completion α)} {results : List (Except HostError α)}
    {r : Except HostError α} (brought : offered used results = some r) : used.isSome = true := by
  cases used with
  | none => cases brought
  | some c => rfl

namespace Tells

variable {used : Option (Completion α)} {results : List (Except HostError α)} {d : Deferred α}

/-- The results are the one that the completer was used for, and cancellations after it. -/
theorem results_eq (tells : Tells used results d) : results = [] ∨ ∃ c n, used = some c
    ∧ results = c.result :: List.replicate n (.error .cancelled) := by
  cases tells with
  | unused => exact .inl rfl
  | filled c => exact .inl rfl
  | taken c n => exact .inr ⟨c, n, rfl, rfl⟩

theorem isReady_eq (tells : Tells used results d) : d.isReady = used.isSome := by
  cases tells <;> rfl

theorem seq?_eq (tells : Tells used results d) :
    d.seq? = if results.isEmpty then used.map (·.seq) else none := by
  cases tells <;> rfl

theorem tryTake_eq (tells : Tells used results d) : d.tryTake.1 = offered used results := by
  cases tells <;> rfl

theorem waitWith_eq (tells : Tells used results d) (drives : List (Drive α)) :
    (d.waitWith drives).result = offered (used.or (usedBy drives)) results := by
  cases tells with
  | unused => exact waitWith_result drives
  | filled c => rw [waitWith_of_ready rfl]; rfl
  | taken c n => rw [waitWith_of_ready rfl]; rfl

theorem fill (tells : Tells none results d) (c : Completion α) :
    Tells (some c) results (d.fill c) := by
  cases tells
  exact .filled c

/-- What is offered goes to the results when it is brought, and the cell is taken, also if the
completer was used only for that. -/
theorem bring (tells : Tells used results d) (more : Option (Completion α))
    {r : Except HostError α} (brought : offered (used.or more) results = some r) :
    Tells (used.or more) (results ++ [r]) .taken := by
  cases tells with
  | unused =>
    cases more with
    | none => cases brought
    | some c =>
      obtain rfl : c.result = r := Option.some.inj brought
      exact .taken c 0
  | filled c =>
    obtain rfl : c.result = r := Option.some.inj brought
    exact .taken c 0
  | taken c n =>
    obtain rfl : .error .cancelled = r := Option.some.inj brought
    rw [List.cons_append, ← List.replicate_succ']
    exact .taken c (n + 1)

theorem tryTake (tells : Tells used results d) :
    Tells used (results ++ d.tryTake.1.toList) d.tryTake.2 := by
  cases tells with
  | unused => exact .unused
  | filled c => exact (Tells.filled c).bring none rfl
  | taken c n => exact (Tells.taken c n).bring none rfl

end Tells
end Deferred

namespace DeferredPair

variable {α β : Type} {p q : DeferredPair α}

/-! ### Calls on the two ends -/

/-- A call on one of the two ends of a deferred. -/
inductive Call (α : Type) where
  | complete (completion : Completion α)
  | drop
  | isReady
  | seq
  | waitReady
  | tryTake
  | wait
  | waitWith (drives : List (Deferred.Drive α))

/-- What a call gives back. -/
inductive Reply (α : Type) where
  | done
  | ready (isReady : Bool)
  | seq (seq : Option Nat)
  | took (result : Option (Except HostError α))

/-- An answer that only a waiter that is still held gives. -/
def ifHeld (p : DeferredPair α) (answer : Option β) : Option β := if p.isHeld then answer else none

/-- The reply to a call and the deferred after it; none if the end that is called is used up or
if the call blocks. -/
def answer? (p : DeferredPair α) : Call α → Option (Reply α × DeferredPair α)
  | .complete c => (p.complete? c).map (.done, ·)
  | .drop => p.drop?.map (.done, ·)
  | .isReady => p.ifHeld (some (.ready p.cell.isReady, p))
  | .seq => p.ifHeld (some (.seq p.cell.seq?, p))
  | .waitReady => p.ifHeld (p.waitReady?.map fun () => (.done, p))
  | .tryTake => p.ifHeld (some (.took p.tryTake.1, p.tryTake.2))
  | .wait => p.ifHeld (p.wait?.1.map fun r => (.took (some r), p.wait?.2))
  | .waitWith drives =>
    p.ifHeld ((p.waitWith drives).1.result.map fun r => (.took (some r), (p.waitWith drives).2))

/-- What a call can use the completer for. -/
def Call.completion? : Call α → Option (Completion α)
  | .complete c => some c
  | .drop => some .cancelled
  | .waitWith drives => Deferred.usedBy drives
  | _ => none

/-- Whether a call gives the waiter up. -/
def Call.isLast : Call α → Bool
  | .wait => true
  | .waitWith _ => true
  | _ => false

/-- Whether a call uses the completer and does nothing else. -/
def Call.Uses : Call α → Prop
  | .complete _ => True
  | .drop => True
  | _ => False

theorem isLast_of_uses {call : Call α} (uses : call.Uses) : call.isLast = false := by
  cases call with
  | complete c => rfl
  | drop => rfl
  | _ => cases uses

/-- The result that a reply brings. -/
def Reply.result? : Reply α → Option (Except HostError α)
  | .took r => r
  | _ => none

theorem ifHeld_of_held (held : p.isHeld = true) (answer : Option β) : p.ifHeld answer = answer :=
  if_pos held

theorem ifHeld_eq_some {answer : Option β} {b : β} :
    p.ifHeld answer = some b ↔ p.isHeld = true ∧ answer = some b := by
  unfold ifHeld
  split <;> simp_all

/-- What a call does: it uses the completer, or asks for something and leaves the deferred as it
is, or takes the result. -/
inductive Acts (p : DeferredPair α) : Call α → Reply α → DeferredPair α → Prop
  | use {call : Call α} {c : Completion α} {q : DeferredPair α} (uses : call.Uses)
      (use : call.completion? = some c) (completed : p.complete? c = some q) :
      Acts p call .done q
  | ask {call : Call α} {reply : Reply α} (unused : call.completion? = none)
      (kept : call.isLast = false) (nothing : reply.result? = none) : Acts p call reply p
  | take : Acts p .tryTake (.took p.tryTake.1) p.tryTake.2
  | wait {r : Except HostError α} (ended : p.wait?.1 = some r) :
      Acts p .wait (.took (some r)) p.wait?.2
  | drive {drives : List (Deferred.Drive α)} {r : Except HostError α}
      (ended : (p.waitWith drives).1.result = some r) :
      Acts p (.waitWith drives) (.took (some r)) (p.waitWith drives).2

/-- A call that is answered does one of these. -/
theorem acts_of_answer {call : Call α} {reply : Reply α}
    (answered : p.answer? call = some (reply, q)) : p.Acts call reply q := by
  have held {answer : Option (Reply α × DeferredPair α)}
      (given : p.ifHeld answer = some (reply, q)) : answer = some (reply, q) :=
    (ifHeld_eq_some.mp given).2
  cases call with
  | complete c =>
    obtain ⟨_, completed, same⟩ := Option.map_eq_some_iff.mp answered
    cases same
    exact .use trivial rfl completed
  | drop =>
    obtain ⟨_, completed, same⟩ := Option.map_eq_some_iff.mp answered
    cases same
    exact .use trivial rfl completed
  | isReady =>
    cases held answered
    exact .ask rfl rfl rfl
  | seq =>
    cases held answered
    exact .ask rfl rfl rfl
  | waitReady =>
    obtain ⟨_, _, same⟩ := Option.map_eq_some_iff.mp (held answered)
    cases same
    exact .ask rfl rfl rfl
  | tryTake =>
    cases held answered
    exact .take
  | wait =>
    obtain ⟨r, ended, same⟩ := Option.map_eq_some_iff.mp (held answered)
    cases same
    exact .wait ended
  | waitWith drives =>
    obtain ⟨r, ended, same⟩ := Option.map_eq_some_iff.mp (held answered)
    cases same
    exact .drive ended

/-- The runs of a deferred: calls with their replies, and the deferred after them. A call stands
where it is answered, so one that blocks comes after the call that it waits for. -/
inductive Runs : List (Call α × Reply α) → DeferredPair α → Prop
  | new : Runs [] new
  | call {events : List (Call α × Reply α)} {p q : DeferredPair α} {call : Call α}
      {reply : Reply α} (earlier : Runs events p) (answered : p.answer? call = some (reply, q)) :
      Runs (events ++ [(call, reply)]) q

/-- What the completer was used for. -/
def used? (events : List (Call α × Reply α)) : Option (Completion α) :=
  events.findSome? (·.1.completion?)

/-- The results that were brought, in order. -/
def results (events : List (Call α × Reply α)) : List (Except HostError α) :=
  events.filterMap (·.2.result?)

/-- Whether the waiter was given up. -/
def gaveUp (events : List (Call α × Reply α)) : Bool := events.any (·.1.isLast)

section Concat

variable (events : List (Call α × Reply α)) (call : Call α) (reply : Reply α)

@[simp]
theorem used?_concat : used? (events ++ [(call, reply)]) = (used? events).or call.completion? := by
  simp [used?, List.findSome?_append]

@[simp]
theorem results_concat :
    results (events ++ [(call, reply)]) = results events ++ reply.result?.toList := by
  rw [results, results, List.filterMap_append, List.filterMap_cons]
  cases reply.result? <;> rfl

@[simp]
theorem gaveUp_concat : gaveUp (events ++ [(call, reply)]) = (gaveUp events || call.isLast) := by
  simp [gaveUp]

end Concat

/-! ### What a run tells -/

theorem tryTake_eq (p : DeferredPair α) :
    p.tryTake = (p.cell.tryTake.1, { p with cell := p.cell.tryTake.2 }) := rfl

/-- A wait that ends leaves the cell taken. -/
theorem wait?_of_some {r : Except HostError α} (ended : p.wait?.1 = some r) :
    p.cell.tryTake.1 = some r ∧ p.wait?.2 = ⟨.taken, p.isOpen, false⟩ := by
  obtain ⟨cell, isOpen, isHeld⟩ := p
  cases cell with
  | pending => cases ended
  | complete c => exact ⟨ended, rfl⟩
  | taken => exact ⟨ended, rfl⟩

/-- Whether a deferred is as a run has left it. -/
structure Follows (events : List (Call α × Reply α)) (p : DeferredPair α) : Prop where
  cell : Deferred.Tells (used? events) (results events) p.cell
  completer : p.isOpen = (used? events).isNone
  waiter : p.isHeld = !gaveUp events

namespace Follows

variable {events : List (Call α × Reply α)} {call : Call α} {reply : Reply α}

theorem used?_eq_none (follows : Follows events p) (opened : p.isOpen = true) :
    used? events = none := by
  rw [follows.completer] at opened
  exact Option.isNone_iff_eq_none.mp opened

theorem ask (follows : Follows events p) (unused : call.completion? = none)
    (kept : call.isLast = false) (nothing : reply.result? = none) :
    Follows (events ++ [(call, reply)]) p where
  cell := by simpa [unused, nothing] using follows.cell
  completer := by simpa [unused] using follows.completer
  waiter := by simpa [kept] using follows.waiter

/-- A call that uses the completer. -/
theorem complete (follows : Follows events p) {c : Completion α} (use : call.completion? = some c)
    (kept : call.isLast = false) (completed : p.complete? c = some q) :
    Follows (events ++ [(call, .done)]) q := by
  unfold complete? at completed
  split at completed
  · next opened =>
    cases completed
    have unused := follows.used?_eq_none opened
    have cell := follows.cell
    rw [unused] at cell
    exact
      { cell := by simpa [unused, use, Reply.result?] using cell.fill c
        completer := by simp [use]
        waiter := by simpa [kept] using follows.waiter }
  · cases completed

theorem tryTake (follows : Follows events p) :
    Follows (events ++ [(.tryTake, .took p.tryTake.1)]) p.tryTake.2 := by
  rw [tryTake_eq]
  exact
    { cell := by simpa [Call.completion?, Reply.result?] using follows.cell.tryTake
      completer := by simpa [Call.completion?] using follows.completer
      waiter := by simpa [Call.isLast] using follows.waiter }

theorem last (follows : Follows events p) (gone : call.isLast = true) {r : Except HostError α}
    (brought : Deferred.offered ((used? events).or call.completion?) (results events) = some r) :
    Follows (events ++ [(call, .took (some r))]) ⟨.taken, false, false⟩ where
  cell := by simpa [Reply.result?] using follows.cell.bring call.completion? brought
  completer := by
    rw [used?_concat]
    exact (Option.isNone_eq_false_iff.mpr (Deferred.isSome_of_offered brought)).symm
  waiter := by simp [gone]

theorem wait {r : Except HostError α} (follows : Follows events p) (ended : p.wait?.1 = some r) :
    Follows (events ++ [(.wait, .took (some r))]) p.wait?.2 := by
  obtain ⟨there, left⟩ := wait?_of_some ended
  have brought : Deferred.offered (used? events) (results events) = some r := by
    rw [← follows.cell.tryTake_eq, there]
  have closed : p.isOpen = false := by
    rw [follows.completer, Option.isNone_eq_false_iff]
    exact Deferred.isSome_of_offered brought
  rw [left, closed]
  exact follows.last rfl (by simpa [Call.completion?] using brought)

theorem waitWith {drives : List (Deferred.Drive α)} {r : Except HostError α}
    (follows : Follows events p) (ended : (p.waitWith drives).1.result = some r) :
    Follows (events ++ [(.waitWith drives, .took (some r))]) (p.waitWith drives).2 := by
  have closed : (p.waitWith drives).2 = ⟨.taken, false, false⟩ := by
    have open' : (p.waitWith drives).2.isOpen = (p.isOpen && (p.waitWith drives).1.result.isNone) :=
      rfl
    rw [ended, Option.isNone_some, Bool.and_false] at open'
    exact congrArg (DeferredPair.mk Deferred.taken · false) open'
  rw [closed]
  exact follows.last rfl ((follows.cell.waitWith_eq drives).symm.trans ended)

/-- A call keeps up what a run tells. -/
theorem answer (follows : Follows events p) (answered : p.answer? call = some (reply, q)) :
    Follows (events ++ [(call, reply)]) q := by
  cases acts_of_answer answered with
  | use uses use completed => exact follows.complete use (isLast_of_uses uses) completed
  | ask unused kept nothing => exact follows.ask unused kept nothing
  | take => exact follows.tryTake
  | wait ended => exact follows.wait ended
  | drive ended => exact follows.waitWith ended

end Follows

/-- What is there after a run follows from its calls and replies. -/
theorem Runs.follows {events : List (Call α × Reply α)} (runs : Runs events p) :
    Follows events p := by
  induction runs with
  | new => exact ⟨.unused, rfl, rfl⟩
  | call earlier answered ih => exact ih.answer answered

/-! ### What the replies are -/

/-- Whether a call takes the result. -/
def Call.Takes : Call α → Prop
  | .tryTake => True
  | .wait => True
  | .waitWith _ => True
  | _ => False

namespace Follows

variable {events : List (Call α × Reply α)} {call : Call α} {reply : Reply α}

/-- The completer is there to be used once. -/
theorem isSome_answer?_of_uses (follows : Follows events p) (uses : call.Uses) :
    (p.answer? call).isSome = true ↔ used? events = none := by
  have uncompleted (c : Completion α) :
      ((p.complete? c).map (Reply.done (α := α), ·)).isSome = true ↔ used? events = none := by
    rw [Option.isSome_map, complete?, ← Option.isNone_iff_eq_none, ← follows.completer]
    split <;> simp_all
  cases call with
  | complete c => exact uncompleted c
  | drop => exact uncompleted .cancelled
  | _ => cases uses

/-- The replies before the completer is used. -/
theorem answer?_of_unused (follows : Follows events p) (held : p.isHeld = true)
    (unused : used? events = none) :
    p.answer? .isReady = some (.ready false, p) ∧ p.answer? .seq = some (.seq none, p)
      ∧ p.answer? .tryTake = some (.took none, p)
      ∧ p.answer? .waitReady = none ∧ p.answer? .wait = none
      ∧ ∀ drives, p.answer? (.waitWith drives) = (Deferred.usedBy drives).map fun c =>
        (.took (some c.result), ⟨.taken, false, false⟩) := by
  obtain ⟨cell, isOpen, isHeld⟩ := p
  have tells := follows.cell
  have closed := follows.completer
  rw [unused] at tells closed
  generalize results events = brought at tells
  cases held
  cases closed
  cases tells
  refine ⟨rfl, rfl, rfl, rfl, rfl, fun drives => ?_⟩
  simp only [answer?, ifHeld, DeferredPair.waitWith, Deferred.waitWith_result]
  cases Deferred.usedBy drives <;> rfl

/-- A call that takes what is there brings it. -/
theorem answer?_of_takes (follows : Follows events p) (held : p.isHeld = true)
    {r : Except HostError α} (there : Deferred.offered (used? events) (results events) = some r)
    (takes : call.Takes) : ∃ q, q.cell = .taken ∧ p.answer? call = some (.took (some r), q) := by
  have found : p.cell.tryTake = (some r, .taken) := by
    refine Deferred.tryTake_of_some ?_
    rw [follows.cell.tryTake_eq, there]
  cases call with
  | tryTake =>
    refine ⟨p.tryTake.2, congrArg Prod.snd found, ?_⟩
    rw [answer?, ifHeld_of_held held, tryTake_eq, found]
  | wait =>
    have ended : p.wait? = (some r, { p with cell := .taken, isHeld := false }) := by
      unfold wait?
      rw [found]
    refine ⟨p.wait?.2, by rw [ended], ?_⟩
    rw [answer?, ifHeld_of_held held, ended]
    rfl
  | waitWith drives =>
    have ended : (p.waitWith drives).1.result = some r := by
      obtain ⟨c, used⟩ := Option.isSome_iff_exists.mp (Deferred.isSome_of_offered there)
      rw [used] at there
      exact (follows.cell.waitWith_eq drives).trans (by rw [used]; exact there)
    refine ⟨(p.waitWith drives).2, rfl, ?_⟩
    rw [answer?, ifHeld_of_held held, ended]
    rfl
  | _ => cases takes

/-- The replies once the completer has been used. -/
theorem answer?_of_used (follows : Follows events p) (held : p.isHeld = true) {c : Completion α}
    (used : used? events = some c) :
    p.answer? .isReady = some (.ready true, p)
      ∧ p.answer? .seq = some (.seq (if results events = [] then some c.seq else none), p)
      ∧ p.answer? .waitReady = some (.done, p)
      ∧ ∀ call : Call α, call.Takes → ∃ q, q.cell = .taken ∧ p.answer? call = some
        (.took (some (if results events = [] then c.result else .error .cancelled)), q) := by
  have ready : p.cell.isReady = true := by rw [follows.cell.isReady_eq, used]; rfl
  have seq : p.cell.seq? = if results events = [] then some c.seq else none := by
    rw [follows.cell.seq?_eq, used]
    simp
  have there : Deferred.offered (used? events) (results events)
      = some (if results events = [] then c.result else .error .cancelled) := by
    rw [used]
    simp [Deferred.offered]
  refine ⟨?_, ?_, ?_, fun call => follows.answer?_of_takes held there⟩
  · rw [answer?, ifHeld_of_held held, ready]
  · rw [answer?, ifHeld_of_held held, seq]
  · rw [answer?, ifHeld_of_held held, waitReady?, if_pos ready]
    rfl

/-- A call that neither uses the completer nor brings a result changes nothing. -/
theorem eq_of_asked (answered : p.answer? call = some (reply, q)) (asks : ¬ call.Uses)
    (nothing : reply.result? = none) : q = p := by
  cases acts_of_answer answered with
  | use uses use completed => exact absurd uses asks
  | ask unused kept nothing => rfl
  | take =>
    obtain ⟨cell, isOpen, isHeld⟩ := p
    cases cell with
    | pending => rfl
    | complete c => cases nothing
    | taken => cases nothing
  | wait ended => cases nothing
  | drive ended => cases nothing

end Follows

/-! ### One-shot cells -/

/-- How the next call on a deferred is answered after a run. Both ways to use the completer are
there until it is used, and the waiter until it is given up. Before the completer is used nothing
is ready, a try brings nothing and waits block, unless one drives until the completer is used.
Afterwards the cell is ready for ever; the result and its number are there until the result is
brought, and cancellations from then on. -/
structure OneShot (events : List (Call α × Reply α)) (p : DeferredPair α) : Prop where
  completer : ∀ call : Call α, call.Uses → ((p.answer? call).isSome = true ↔ used? events = none)
  waiter : p.isHeld = true ↔ ∀ e ∈ events, e.1.isLast = false
  unused : p.isHeld = true → used? events = none →
    p.answer? .isReady = some (.ready false, p) ∧ p.answer? .seq = some (.seq none, p)
    ∧ p.answer? .tryTake = some (.took none, p)
    ∧ p.answer? .waitReady = none ∧ p.answer? .wait = none
    ∧ ∀ drives, p.answer? (.waitWith drives) = (Deferred.usedBy drives).map fun c =>
      (.took (some c.result), ⟨.taken, false, false⟩)
  used : p.isHeld = true → ∀ c, used? events = some c →
    p.answer? .isReady = some (.ready true, p)
    ∧ p.answer? .seq = some (.seq (if results events = [] then some c.seq else none), p)
    ∧ p.answer? .waitReady = some (.done, p)
    ∧ ∀ call : Call α, call.Takes → ∃ q, q.cell = .taken ∧ p.answer? call = some
      (.took (some (if results events = [] then c.result else .error .cancelled)), q)
  brought : results events = [] ∨ ∃ c n, used? events = some c
    ∧ results events = c.result :: List.replicate n (.error .cancelled)
  asked : ∀ call reply q, p.answer? call = some (reply, q) → ¬ call.Uses →
    reply.result? = none → q = p

theorem Follows.oneShot {events : List (Call α × Reply α)} (follows : Follows events p) :
    OneShot events p where
  completer _ := follows.isSome_answer?_of_uses
  waiter := by
    rw [follows.waiter]
    simp [gaveUp]
  unused := follows.answer?_of_unused
  used held _ := follows.answer?_of_used held
  brought := follows.cell.results_eq
  asked _ _ _ := eq_of_asked

theorem used?_append {events : List (Call α × Reply α)} {c : Completion α}
    (used : used? events = some c) (more : List (Call α × Reply α)) :
    used? (events ++ more) = some c := by
  rw [used?, List.findSome?_append, ← used?, used]
  rfl

/-- **A deferred is a one-shot cell.** After every run the next call is answered as `OneShot` has
it, a cell that is ready stays ready however the run goes on, and to drop the completer is to
complete with a cancellation under the last of all numbers. -/
theorem one_shot {events : List (Call α × Reply α)} (runs : Runs events p) :
    OneShot events p
    ∧ (∀ c, used? events = some c → ∀ more q, Runs (events ++ more) q →
      used? (events ++ more) = some c ∧ q.cell.isReady = true)
    ∧ (Completion.cancelled : Completion α) = ⟨18446744073709551615, .error .cancelled⟩ := by
  refine ⟨runs.follows.oneShot, fun c used more q longer => ?_, rfl⟩
  have still := used?_append used more
  refine ⟨still, ?_⟩
  rw [longer.follows.cell.isReady_eq, still]
  rfl

/-- A try that finds nothing, a completion, a try that brings it, and a wait that comes too
late. -/
theorem one_shot_lateWait :
    let events : List (Call Int × Reply Int) :=
      [(.tryTake, .took none), (.complete ⟨3, .ok 5⟩, .done), (.tryTake, .took (some (.ok 5)))]
    Runs events ⟨.taken, false, true⟩ ∧ ∃ q, q.cell = .taken
      ∧ (⟨.taken, false, true⟩ : DeferredPair Int).answer? .wait
        = some (.took (some (.error .cancelled)), q) := by
  intro events
  have runs : Runs events ⟨.taken, false, true⟩ := ((Runs.new.call rfl).call rfl).call rfl
  exact ⟨runs, ((one_shot runs).1.used rfl ⟨3, .ok 5⟩ rfl).2.2.2 .wait trivial⟩

end DeferredPair
end TaskHost
