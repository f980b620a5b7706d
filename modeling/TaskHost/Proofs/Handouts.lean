/-
# Timers are handed out once, in the order of completion

The timers of a bridge on any host (`Delivery`): the host answers every timer that is set
with a deferred, which it fills when it likes, with any sequence number, or cancels; and
from time to time what is complete is handed out. `Delivery.callbacks` and
`Delivery.completion?` read off a history which timers were set, and how each of them was
completed first.

A take looks at the table place by place, and removes the timers that are complete while
it looks (`TimerTable.scan`); what it hands out and what it keeps is what
`TimerTable.takeReady` says. After every history the table holds, in the order in which
they were set, the timers that no take has found complete (`Delivery.Kept`). So a timer is
handed out by the first take after its completion, and by no other
(`Delivery.handed_out_once`). A host that gives its sequence numbers in order completes
its timers in this order (`Delivery.increasing_of_stamps`), and then all that is ever
handed out is in order too.

Key definitions: `TimerTable.scan`, `Delivery.run`, `Delivery.completion?`,
`Delivery.Unhanded`, `Delivery.Increasing`.
Key theorems: `TimerTable.scanReady_eq`, `Delivery.kept_run`, `Delivery.handed_sorted`,
`Delivery.handed_out_once`, `Delivery.increasing_of_stamps`.
-/
import Mathlib.Data.List.Induction
import TaskHost.Proofs.Polling

namespace TaskHost

variable {σ φ : Type}

/-- What a waiter finds in a cell: the result that it takes, and its sequence number. A
cell that was emptied before counts as cancelled. -/
def Deferred.outcome (d : Deferred Unit) : Option (Completion Unit) :=
  d.tryTake.1.map fun result => ⟨d.seq?.getD maxWord, result⟩

theorem Deferred.outcome_fill (d : Deferred Unit) (c : Completion Unit) :
    (d.fill c).outcome = d.outcome.or (some c) := by
  cases d <;> rfl

/-- A cell without an outcome stays as it is when it is looked at. -/
theorem Deferred.tryTake_of_outcome {d : Deferred Unit} (none : d.outcome = none) :
    d.tryTake.2 = d := by
  cases d with
  | pending => rfl
  | complete c => cases none
  | taken => cases none

namespace TimerTable

/-- Looks at the timers from a place on: one that is complete is removed, and the place
is looked at again. -/
def scan (outcome : σ → Option (Completion Unit)) (index : Nat) (ready : List (Nat × ReadyTimer φ))
    (waiting : List (WaitingTimer σ φ)) : List (Nat × ReadyTimer φ) × List (WaitingTimer σ φ) :=
  if found : index < waiting.length then
    let w := waiting[index]
    match outcome w.signal with
    | some c => scan outcome index (ready ++ [(c.seq, ⟨w.id, c.result, w.callback⟩)])
        (waiting.eraseIdx index)
    | none => scan outcome (index + 1) ready waiting
  else (ready, waiting)
termination_by waiting.length - index
decreasing_by
  · rw [List.length_eraseIdx_of_lt found]
    omega
  · omega

/-- A scan from the end of what it keeps collects the complete ones of the others. -/
theorem scan_append (outcome : σ → Option (Completion Unit)) (ready : List (Nat × ReadyTimer φ))
    (kept rest : List (WaitingTimer σ φ)) :
    scan outcome kept.length ready (kept ++ rest)
      = (ready ++ rest.filterMap fun w =>
          (outcome w.signal).map fun c => (c.seq, ⟨w.id, c.result, w.callback⟩),
        kept ++ rest.filter fun w => (outcome w.signal).isNone) := by
  induction rest generalizing ready kept with
  | nil =>
    rw [scan, dif_neg (by simp)]
    simp
  | cons w rest ih =>
    have found : kept.length < (kept ++ w :: rest).length := by simp
    have here : (kept ++ w :: rest)[kept.length] = w := by simp
    rw [scan, dif_pos found]
    simp only [here]
    cases complete : outcome w.signal with
    | some c =>
      have removed : (kept ++ w :: rest).eraseIdx kept.length = kept ++ rest := by
        rw [List.eraseIdx_append_of_length_le (Nat.le_refl _), Nat.sub_self, List.eraseIdx_cons_zero]
      simp only [removed, ih]
      simp [complete]
    | none =>
      have next := ih ready (kept ++ [w])
      rw [List.length_append, List.length_singleton, List.append_assoc, List.singleton_append] at next
      simp only [next]
      simp [complete]

/-- Hands out what a scan of the table finds complete. -/
def scanReady (t : TimerTable σ φ) (outcome : σ → Option (Completion Unit)) :
    List (ReadyTimer φ) × TimerTable σ φ :=
  let (ready, waiting) := scan outcome 0 [] t.waiting
  ((sortByKey readyKey ready).map Prod.snd, { t with waiting := waiting })

/-- Removing timers while the table is looked at misses none. -/
theorem scanReady_eq (t : TimerTable σ φ) (outcome : σ → Option (Completion Unit)) :
    t.scanReady outcome = t.takeReady outcome := by
  have scanned := scan_append outcome [] [] t.waiting
  rw [scanReady, show scan outcome 0 [] t.waiting = _ from scanned]
  rfl

end TimerTable

/-- The timers of a bridge on any host: the cell of every timer that was set, by number,
and what each take has handed out. -/
structure Delivery (φ : Type) where
  timers : TimerTable Nat φ
  cells : List (Deferred Unit)
  handed : List (List (ReadyTimer φ))

namespace Delivery

/-- What happens to timers: one is set, and the host answers with a deferred; the host
uses or drops the completer of a timer; what is complete is handed out. -/
inductive Event (φ : Type) where
  | set (signal : Deferred Unit) (callback : φ)
  | complete (timer : Nat) (completion : Completion Unit)
  | drop (timer : Nat)
  | take

/-- The outcome of a timer by now. -/
def outcome? (d : Delivery φ) (timer : Nat) : Option (Completion Unit) :=
  d.cells[timer]?.bind Deferred.outcome

/-- The timers after an event. A take empties the cells of the timers that it hands out;
all other cells that are filled have been emptied before. -/
def step (d : Delivery φ) : Event φ → Delivery φ
  | .set signal callback =>
    { d with timers := d.timers.insert d.cells.length callback, cells := d.cells ++ [signal] }
  | .complete timer completion => { d with cells := d.cells.modify timer (·.fill completion) }
  | .drop timer => { d with cells := d.cells.modify timer (·.drop) }
  | .take =>
    let (ready, timers) := d.timers.takeReady d.outcome?
    ⟨timers, d.cells.map fun cell => cell.tryTake.2, d.handed ++ [ready]⟩

/-- The timers after a history. -/
def run (events : List (Event φ)) : Delivery φ := events.foldl step ⟨.empty, [], []⟩

theorem run_concat (events : List (Event φ)) (e : Event φ) : run (events ++ [e]) = (run events).step e := by
  rw [run, List.foldl_append]
  rfl

/-! ### What a history says of a timer -/

/-- The callback of the timer that an event sets. -/
def Event.callback? : Event φ → Option φ
  | .set _ callback => some callback
  | _ => none

/-- How an event completes a timer. -/
def Event.completes (timer : Nat) : Event φ → Option (Completion Unit)
  | .complete other completion => if other = timer then some completion else none
  | .drop other => if other = timer then some .cancelled else none
  | _ => none

/-- The callbacks of the timers that were set, in order. -/
def callbacks (events : List (Event φ)) : List φ := events.filterMap Event.callback?

/-- The events from the one on that sets a timer. -/
def since : Nat → List (Event φ) → List (Event φ)
  | _, [] => []
  | 0, .set signal callback :: later => .set signal callback :: later
  | timer + 1, .set _ _ :: later => since timer later
  | timer, _ :: later => since timer later

/-- How a timer was completed: with its deferred, if that was complete from the
beginning, or by the first event that completes it. -/
def completion? (events : List (Event φ)) (timer : Nat) : Option (Completion Unit) :=
  match since timer events with
  | .set signal _ :: later => signal.outcome.or (later.findSome? (Event.completes timer))
  | _ => none

/-- No take has found a timer complete. -/
def Unhanded (events : List (Event φ)) (timer : Nat) : Prop :=
  ∀ before, before ++ [.take] <+: events → completion? before timer = none

/-- A timer that completes later does not have a smaller sequence number. -/
def Increasing (events : List (Event φ)) : Prop :=
  ∀ before, before <+: events → ∀ i j c d, completion? before i = some c →
    completion? before j = none → completion? events j = some d → c.seq ≤ d.seq

variable {events before more : List (Event φ)} {timer : Nat}

@[simp] theorem callbacks_append (events more : List (Event φ)) :
    callbacks (events ++ more) = callbacks events ++ callbacks more := List.filterMap_append

theorem callbacks_concat {e : Event φ} (unset : e.callback? = none) :
    callbacks (events ++ [e]) = callbacks events := by
  rw [callbacks_append, callbacks, callbacks, List.filterMap_cons, unset]
  exact List.append_nil _

/-- From the event on that sets a timer, later events are added at the end. -/
theorem exists_since (given : timer < (callbacks events).length) :
    ∃ signal callback later, ∀ more, since timer (events ++ more)
      = .set signal callback :: (later ++ more) := by
  induction events generalizing timer with
  | nil => cases given
  | cons e events ih =>
    cases e with
    | set signal callback =>
      cases timer with
      | zero => exact ⟨signal, callback, events, fun _ => rfl⟩
      | succ timer => exact ih (Nat.lt_of_succ_lt_succ given)
    | _ => cases timer <;> exact ih given

/-- A timer is not set before all those with smaller numbers are. -/
theorem since_append_of_le (ungiven : (callbacks events).length ≤ timer) (more : List (Event φ)) :
    since timer (events ++ more) = since (timer - (callbacks events).length) more := by
  induction events generalizing timer with
  | nil => rfl
  | cons e events ih =>
    cases e with
    | set signal callback =>
      cases timer with
      | zero => cases ungiven
      | succ timer =>
        have same := ih (Nat.le_of_succ_le_succ ungiven)
        rw [show (callbacks (.set signal callback :: events)).length = (callbacks events).length + 1
          from rfl, Nat.add_sub_add_right]
        exact same
    | _ => cases timer <;> exact ih ungiven

theorem completion?_of_le (ungiven : (callbacks events).length ≤ timer) :
    completion? events timer = none := by
  have nothing := since_append_of_le ungiven []
  rw [List.append_nil] at nothing
  rw [completion?, nothing]
  cases timer - (callbacks events).length <;> rfl

theorem completion?_append (given : timer < (callbacks events).length) (more : List (Event φ)) :
    completion? (events ++ more) timer
      = (completion? events timer).or (more.findSome? (Event.completes timer)) := by
  obtain ⟨signal, callback, later, same⟩ := exists_since given
  have now := same []
  rw [List.append_nil, List.append_nil] at now
  rw [completion?, completion?, same, now]
  simp only [List.findSome?_append, Option.or_assoc]

theorem completion?_set (events : List (Event φ)) (signal : Deferred Unit) (callback : φ) :
    completion? (events ++ [.set signal callback]) (callbacks events).length = signal.outcome := by
  rw [completion?, since_append_of_le (Nat.le_refl _), Nat.sub_self]
  exact Option.or_none

theorem given_of_completion? {c : Completion Unit} (complete : completion? events timer = some c) :
    timer < (callbacks events).length := by
  rw [← Nat.not_le]
  intro ungiven
  rw [completion?_of_le ungiven] at complete
  cases complete

theorem completion?_mono {c : Completion Unit} (earlier : before <+: events)
    (complete : completion? before timer = some c) : completion? events timer = some c := by
  obtain ⟨more, rfl⟩ := earlier
  rw [completion?_append (given_of_completion? complete), complete]
  rfl

theorem unhanded_concat {e : Event φ} :
    Unhanded (events ++ [e]) timer
      ↔ Unhanded events timer ∧ (e = .take → completion? events timer = none) := by
  constructor
  · refine fun unhanded => ⟨fun before earlier => ?_, ?_⟩
    · exact unhanded before (earlier.trans (List.prefix_append _ _))
    · rintro rfl
      exact unhanded events List.prefix_rfl
  · rintro ⟨unhanded, last⟩ before earlier
    rcases List.prefix_concat_iff.mp earlier with same | earlier
    · obtain ⟨rfl, rfl⟩ := List.append_singleton_inj.mp same
      exact last rfl
    · exact unhanded before earlier

theorem unhanded_of_le (ungiven : (callbacks events).length ≤ timer) : Unhanded events timer :=
  fun _ earlier => completion?_of_le (Nat.le_trans
    ((List.prefix_append _ _).trans earlier |>.filterMap _).length_le ungiven)

/-! ### The table after a history -/

/-- What holds of the timers after a history: those that no take has found complete wait
in the order in which they were set, and their cells are as the history says. -/
structure Kept (events : List (Event φ)) (d : Delivery φ) : Prop where
  numbered : d.timers.nextId = (callbacks events).length
  celled : d.cells.length = (callbacks events).length
  waiting : ∀ w, w ∈ d.timers.waiting ↔ w.id.number = w.signal
    ∧ (callbacks events)[w.signal]? = some w.callback ∧ Unhanded events w.signal
  ordered : d.timers.waiting.Pairwise fun v w => v.id.number < w.id.number
  outcomes : ∀ w ∈ d.timers.waiting, d.outcome? w.signal = completion? events w.signal

theorem kept_new : Kept ([] : List (Event φ)) ⟨.empty, [], []⟩ where
  numbered := rfl
  celled := rfl
  waiting w := ⟨fun hw => absurd hw List.not_mem_nil, fun ⟨_, given, _⟩ => by cases given⟩
  ordered := .nil
  outcomes w hw := absurd hw List.not_mem_nil

variable {d : Delivery φ}

theorem Kept.given (kept : Kept events d) {w : WaitingTimer Nat φ} (hw : w ∈ d.timers.waiting) :
    w.signal < (callbacks events).length := by
  obtain ⟨-, given, -⟩ := (kept.waiting w).mp hw
  exact (List.getElem?_eq_some_iff.mp given).1

theorem unhanded_concat_of_ne {e : Event φ} (other : e ≠ .take) :
    Unhanded (events ++ [e]) timer ↔ Unhanded events timer := by
  rw [unhanded_concat]
  exact and_iff_left fun take => absurd take other

theorem Kept.set (kept : Kept events d) (signal : Deferred Unit) (callback : φ) :
    Kept (events ++ [.set signal callback]) (d.step (.set signal callback)) := by
  have grows : callbacks (events ++ [.set signal callback]) = callbacks events ++ [callback] :=
    callbacks_append _ _
  have same : ∀ timer, Unhanded (events ++ [.set signal callback]) timer ↔ Unhanded events timer :=
    fun timer => unhanded_concat_of_ne (fun e => by cases e)
  have number : d.timers.nextId = d.cells.length := kept.numbered.trans kept.celled.symm
  refine ⟨?_, ?_, fun w => ⟨fun hw => ?_, ?_⟩, ?_, fun w hw => ?_⟩
  · rw [grows, List.length_append]
    exact congrArg (· + 1) kept.numbered
  · rw [grows, List.length_append, ← kept.celled]
    exact List.length_append
  · rw [grows, same]
    rcases List.mem_append.mp hw with old | new
    · rw [List.getElem?_append_left (kept.given old)]
      exact (kept.waiting w).mp old
    · obtain rfl := List.mem_singleton.mp new
      refine ⟨number, ?_, unhanded_of_le (Nat.le_of_eq kept.celled.symm)⟩
      rw [kept.celled]
      exact List.getElem?_concat_length
  · rintro ⟨id, given, unhanded⟩
    rw [same] at unhanded
    rcases Nat.lt_or_ge w.signal (callbacks events).length with old | late
    · rw [grows, List.getElem?_append_left old] at given
      exact List.mem_append_left _ ((kept.waiting w).mpr ⟨id, given, unhanded⟩)
    · obtain ⟨bound, last⟩ := List.getElem?_eq_some_iff.mp given
      rw [grows, List.length_append, List.length_singleton] at bound
      have new : w.signal = d.cells.length :=
        (Nat.le_antisymm (Nat.le_of_lt_succ bound) late).trans kept.celled.symm
      obtain ⟨⟨i⟩, j, c⟩ := w
      obtain rfl : i = j := id
      obtain rfl : i = d.cells.length := new
      rw [grows, kept.celled, List.getElem?_concat_length] at given
      obtain rfl := Option.some.inj given
      refine List.mem_append_right _ (List.mem_singleton.mpr ?_)
      rw [TimerTable.next, number]
  · refine List.pairwise_append.mpr ⟨kept.ordered, List.pairwise_singleton _ _, fun v hv w hw => ?_⟩
    obtain rfl := List.mem_singleton.mp hw
    have given := kept.given hv
    rw [← kept.numbered, ← ((kept.waiting v).mp hv).1] at given
    exact given
  · rcases List.mem_append.mp hw with old | new
    · have given := kept.given old
      have here : (d.cells ++ [signal])[w.signal]? = d.cells[w.signal]? :=
        List.getElem?_append_left (kept.celled ▸ given)
      rw [completion?_append given, ← kept.outcomes w old]
      exact (congrArg (·.bind Deferred.outcome) here).trans Option.or_none.symm
    · obtain rfl := List.mem_singleton.mp new
      have here : (d.cells ++ [signal])[d.cells.length]? = some signal := List.getElem?_concat_length
      have known := completion?_set events signal callback
      rw [← kept.celled] at known
      exact (congrArg (·.bind Deferred.outcome) here).trans known.symm

/-- The host fills the cell of a timer. -/
theorem Kept.fill (kept : Kept events d) {e : Event φ} {timer : Nat} {c : Completion Unit}
    (unset : e.callback? = none) (other : e ≠ .take)
    (completes : ∀ i, e.completes i = if timer = i then some c else none) :
    Kept (events ++ [e]) { d with cells := d.cells.modify timer (·.fill c) } := by
  have same : callbacks (events ++ [e]) = callbacks events := callbacks_concat unset
  refine ⟨?_, ?_, fun w => ?_, kept.ordered, fun w hw => ?_⟩
  · rw [same]
    exact kept.numbered
  · rw [same, List.length_modify]
    exact kept.celled
  · rw [same, unhanded_concat_of_ne other]
    exact kept.waiting w
  · have given := kept.given hw
    rw [completion?_append given, ← kept.outcomes w hw, List.findSome?_singleton, completes]
    show ((d.cells.modify timer (·.fill c))[w.signal]?).bind Deferred.outcome = _
    have bound : w.signal < d.cells.length := kept.celled ▸ given
    rw [List.getElem?_modify, outcome?, List.getElem?_eq_getElem bound]
    split
    · exact Deferred.outcome_fill _ c
    · exact Option.or_none.symm

/-- A take keeps what is not complete. -/
theorem Kept.take (kept : Kept events d) : Kept (events ++ [.take]) (d.step .take) := by
  have same : callbacks (events ++ [.take]) = callbacks events := callbacks_concat rfl
  have incomplete : ∀ w ∈ d.timers.waiting, (d.outcome? w.signal).isNone
      ↔ completion? events w.signal = none := by
    intro w hw
    rw [kept.outcomes w hw, Option.isNone_iff_eq_none]
  refine ⟨?_, ?_, fun w => ?_, kept.ordered.filter _, fun w hw => ?_⟩
  · rw [same]
    exact kept.numbered
  · rw [same]
    exact (List.length_map _).trans kept.celled
  · rw [same, unhanded_concat]
    constructor
    · intro hw
      obtain ⟨old, missed⟩ := List.mem_filter.mp hw
      obtain ⟨id, given, unhanded⟩ := (kept.waiting w).mp old
      exact ⟨id, given, unhanded, fun _ => (incomplete w old).mp missed⟩
    · rintro ⟨id, given, unhanded, missed⟩
      have old := (kept.waiting w).mpr ⟨id, given, unhanded⟩
      exact List.mem_filter.mpr ⟨old, (incomplete w old).mpr (missed rfl)⟩
  · obtain ⟨old, missed⟩ := List.mem_filter.mp hw
    have missing := (incomplete w old).mp missed
    have untouched := (kept.outcomes w old).trans missing
    rw [completion?_append (kept.given old), missing]
    show ((d.cells.map fun cell => cell.tryTake.2)[w.signal]?).bind Deferred.outcome = none
    rw [outcome?] at untouched
    rw [List.getElem?_map]
    cases found : d.cells[w.signal]? with
    | none => rfl
    | some cell =>
      rw [found, Option.bind_some] at untouched
      rw [Option.map_some, Option.bind_some, Deferred.tryTake_of_outcome untouched]
      exact untouched

/-- The invariant holds after every history. -/
theorem kept_run (events : List (Event φ)) : Kept events (run events) := by
  induction events using List.reverseRecOn with
  | nil => exact kept_new
  | append_singleton events e ih =>
    rw [run_concat]
    cases e with
    | set signal callback => exact ih.set signal callback
    | complete timer c => exact ih.fill rfl (fun e => by cases e) fun _ => rfl
    | drop timer => exact ih.fill rfl (fun e => by cases e) fun _ => rfl
    | take => exact ih.take

/-! ### What is handed out -/

/-- A take hands out the timers that are complete and that no take has found complete. -/
theorem Kept.mem_ready (kept : Kept events d) {r : ReadyTimer φ} :
    r ∈ (d.timers.takeReady d.outcome?).1 ↔ (callbacks events)[r.id.number]? = some r.callback
      ∧ Unhanded events r.id.number
      ∧ ∃ c, completion? events r.id.number = some c ∧ r.result = c.result := by
  rw [TimerTable.takeReady, List.mem_map]
  constructor
  · rintro ⟨s, hs, rfl⟩
    obtain ⟨w, hw, c, complete, rfl⟩ := TimerTable.mem_sorted_ready.mp hs
    obtain ⟨id, given, unhanded⟩ := (kept.waiting w).mp hw
    rw [kept.outcomes w hw] at complete
    rw [← id] at given unhanded complete
    exact ⟨given, unhanded, c, complete, rfl⟩
  · rintro ⟨given, unhanded, c, complete, result⟩
    let w : WaitingTimer Nat φ := ⟨r.id, r.id.number, r.callback⟩
    have hw : w ∈ d.timers.waiting := (kept.waiting w).mpr ⟨rfl, given, unhanded⟩
    refine ⟨(c.seq, r), TimerTable.mem_sorted_ready.mpr ⟨w, hw, c, ?_, ?_⟩, rfl⟩
    · exact (kept.outcomes w hw).trans complete
    · rw [← result]

/-- Two timers that are complete, the first one not after the second. -/
def Earlier (events : List (Event φ)) (r s : ReadyTimer φ) : Prop :=
  ∃ c d, completion? events r.id.number = some c ∧ completion? events s.id.number = some d
    ∧ keyLe (c.seq, r.id.number) (d.seq, s.id.number)

/-- A take hands timers out by sequence number, and by id where these are the same. -/
theorem Kept.ready_sorted (kept : Kept events d) :
    (d.timers.takeReady d.outcome?).1.Pairwise (Earlier events) := by
  rw [TimerTable.takeReady, List.pairwise_map]
  have known : ∀ r ∈ sortByKey TimerTable.readyKey (d.timers.ready d.outcome?),
      ∃ c, completion? events r.2.id.number = some c ∧ r.1 = c.seq := by
    intro r hr
    obtain ⟨w, hw, c, complete, rfl⟩ := TimerTable.mem_sorted_ready.mp hr
    rw [kept.outcomes w hw, ← ((kept.waiting w).mp hw).1] at complete
    exact ⟨c, complete, rfl⟩
  refine (pairwise_sortByKey TimerTable.readyKey _).imp_of_mem fun {r s} hr hs le => ?_
  obtain ⟨c, complete, stamp⟩ := known r hr
  obtain ⟨d, complete', stamp'⟩ := known s hs
  refine ⟨c, d, complete, complete', ?_⟩
  rw [← stamp, ← stamp']
  exact le

theorem handed_take (events : List (Event φ)) : (run (events ++ [.take])).handed.flatten
    = (run events).handed.flatten ++ ((run events).timers.takeReady (run events).outcome?).1 := by
  rw [run_concat]
  exact List.flatten_concat

/-- What has been handed out was complete at a take. -/
theorem complete_of_handed {r : ReadyTimer φ} (hr : r ∈ (run events).handed.flatten) :
    ∃ before c, before ++ [.take] <+: events ∧ completion? before r.id.number = some c := by
  induction events using List.reverseRecOn with
  | nil => cases hr
  | append_singleton events e ih =>
    have stays (old : r ∈ (run events).handed.flatten) : ∃ before c,
        before ++ [.take] <+: events ++ [e] ∧ completion? before r.id.number = some c := by
      obtain ⟨before, c, earlier, complete⟩ := ih old
      exact ⟨before, c, earlier.trans (List.prefix_append _ _), complete⟩
    cases e with
    | take =>
      rw [handed_take] at hr
      rcases List.mem_append.mp hr with old | new
      · exact stays old
      · obtain ⟨-, -, c, complete, -⟩ := (kept_run events).mem_ready.mp new
        exact ⟨events, c, List.prefix_rfl, complete⟩
    | _ => exact stays (by rw [run_concat] at hr; exact hr)

/-- Every timer that was set waits, or has been handed out once. -/
theorem handed_perm (events : List (Event φ)) :
    ((run events).handed.flatten.map ReadyTimer.entry
        ++ (run events).timers.waiting.map WaitingTimer.entry).Perm
      ((callbacks events).mapIdx fun i callback => (⟨i⟩, callback)) := by
  induction events using List.reverseRecOn with
  | nil => exact .refl _
  | append_singleton events e ih =>
    cases e with
    | set signal callback =>
      have number := (kept_run events).numbered
      rw [callbacks_append, run_concat]
      show (_ ++ ((run events).timers.waiting ++ [_]).map WaitingTimer.entry).Perm
        ((callbacks events ++ [callback]).mapIdx _)
      rw [List.map_append, List.mapIdx_concat, ← List.append_assoc, ← number]
      exact ih.append_right _
    | take =>
      rw [handed_take, callbacks_concat rfl, run_concat, List.map_append, List.append_assoc]
      refine (List.Perm.append_left _ ?_).trans ih
      exact TimerTable.takeReady_perm (run events).timers (run events).outcome?
    | _ =>
      rw [callbacks_concat rfl, run_concat]
      exact ih

theorem Increasing.of_prefix (increasing : Increasing events) (earlier : before <+: events) :
    Increasing before :=
  fun first le i j c d hi hj hd => increasing first (le.trans earlier) i j c d hi hj
    (completion?_mono earlier hd)

/-- Two timers that are complete, the first one with no larger sequence number. -/
def InSequence (events : List (Event φ)) (r s : ReadyTimer φ) : Prop :=
  ∃ c d, completion? events r.id.number = some c ∧ completion? events s.id.number = some d
    ∧ c.seq ≤ d.seq

theorem Earlier.inSequence {r s : ReadyTimer φ} (earlier : Earlier events r s) :
    InSequence events r s := by
  obtain ⟨c, d, hc, hd, le⟩ := earlier
  refine ⟨c, d, hc, hd, ?_⟩
  rcases keyLe_iff.mp le with lt | ⟨same, -⟩
  · exact Nat.le_of_lt lt
  · exact Nat.le_of_eq same

theorem InSequence.mono {r s : ReadyTimer φ} (ordered : InSequence before r s)
    (earlier : before <+: events) : InSequence events r s := by
  obtain ⟨c, d, hc, hd, le⟩ := ordered
  exact ⟨c, d, completion?_mono earlier hc, completion?_mono earlier hd, le⟩

/-- With increasing sequence numbers, all that is handed out is in their order. -/
theorem handed_sorted (increasing : Increasing events) :
    (run events).handed.flatten.Pairwise (InSequence events) := by
  induction events using List.reverseRecOn with
  | nil => exact .nil
  | append_singleton events e ih =>
    have longer : events <+: events ++ [e] := List.prefix_append _ _
    have old := ih (increasing.of_prefix longer)
    cases e with
    | take =>
      have kept := kept_run events
      have both : (run (events ++ [.take])).handed.flatten.Pairwise (InSequence events) := by
        rw [handed_take]
        refine List.pairwise_append.mpr ⟨old, kept.ready_sorted.imp Earlier.inSequence,
          fun r hr s hs => ?_⟩
        -- when the first one was handed out, the second one was not complete
        obtain ⟨before, c, earlier, hc⟩ := complete_of_handed hr
        obtain ⟨-, unhanded, d, hd, -⟩ := kept.mem_ready.mp hs
        have le : before <+: events := (List.prefix_append _ _).trans earlier
        exact ⟨c, d, completion?_mono le hc, hd, increasing.of_prefix longer before le _ _ c d hc
          (unhanded before earlier) hd⟩
      exact both.imp fun ordered => ordered.mono longer
    | _ =>
      rw [run_concat]
      exact old.imp fun ordered => ordered.mono longer

/-- **Every timer is handed out exactly once, in the order of completion.** After any
history of timers that are set, completed, cancelled and taken, a take hands out exactly
the timers that are complete and that no earlier take has found complete, each with its
id, its callback and its result, by sequence number and then by id; those that are not
complete wait on, in the order in which they were set. So every timer that was set waits,
or has been handed out once; and if no timer completes with a smaller sequence number
than one before it, the lists handed out so far, one after the other, are in the order of
the sequence numbers. -/
theorem handed_out_once (events : List (Event φ)) :
    let now := run events
    let ready := (now.timers.takeReady now.outcome?).1
    let next := run (events ++ [.take])
    next.handed = now.handed ++ [ready]
      ∧ now.timers.scanReady now.outcome? = (ready, next.timers)
      ∧ (∀ r, r ∈ ready ↔ (callbacks events)[r.id.number]? = some r.callback
        ∧ Unhanded events r.id.number
        ∧ ∃ c, completion? events r.id.number = some c ∧ r.result = c.result)
      ∧ ready.Pairwise (Earlier events)
      ∧ (∀ w, w ∈ next.timers.waiting ↔ w.id.number = w.signal
        ∧ (callbacks events)[w.signal]? = some w.callback ∧ completion? events w.signal = none)
      ∧ (next.timers.waiting.Pairwise fun v w => v.id.number < w.id.number)
      ∧ (now.handed.flatten.map ReadyTimer.entry ++ now.timers.waiting.map WaitingTimer.entry).Perm
        ((callbacks events).mapIdx fun i callback => (⟨i⟩, callback))
      ∧ (Increasing events → now.handed.flatten.Pairwise (InSequence events)) := by
  intro now ready next
  have kept : Kept events now := kept_run events
  have after : Kept (events ++ [.take]) next := kept_run _
  have goes : next = now.step .take := run_concat events .take
  refine ⟨?_, ?_, fun r => kept.mem_ready, kept.ready_sorted, fun w => ?_, after.ordered,
    handed_perm events, handed_sorted⟩
  · rw [goes]
    rfl
  · rw [TimerTable.scanReady_eq, goes]
    rfl
  · rw [after.waiting, callbacks_concat rfl, unhanded_concat]
    refine and_congr_right fun _ => and_congr_right fun _ => ?_
    constructor
    · exact fun ⟨_, missing⟩ => missing rfl
    · refine fun missing => ⟨fun before earlier => ?_, fun _ => missing⟩
      cases complete : completion? before w.signal with
      | none => rfl
      | some c =>
        have le : before <+: events := (List.prefix_append _ _).trans earlier
        cases missing.symm.trans (completion?_mono le complete)

/-! ### A host that counts its completions -/

/-- The sequence number that an event gives to a timer. -/
def Event.stamp? : Event φ → Option Nat
  | .set signal _ => signal.outcome.map Completion.seq
  | .complete _ completion => some completion.seq
  | .drop _ => some maxWord
  | .take => none

/-- The sequence numbers that a host has given, in order. -/
def stamps (events : List (Event φ)) : List Nat := events.filterMap Event.stamp?

theorem Event.stamp?_of_completes {e : Event φ} {c : Completion Unit}
    (completes : e.completes timer = some c) : e.stamp? = some c.seq := by
  cases e with
  | set signal callback => cases completes
  | complete other completion =>
    obtain ⟨-, same⟩ := Option.ite_none_right_eq_some.mp completes
    exact congrArg (Option.map Completion.seq) same
  | drop other =>
    obtain ⟨-, same⟩ := Option.ite_none_right_eq_some.mp completes
    exact congrArg (Option.map Completion.seq) same
  | take => cases completes

theorem since_suffix (timer : Nat) (events : List (Event φ)) : since timer events <:+ events := by
  induction events generalizing timer with
  | nil => cases timer <;> exact List.suffix_rfl
  | cons e events ih =>
    cases e with
    | set signal callback =>
      cases timer with
      | zero => exact List.suffix_rfl
      | succ timer => exact (ih timer).trans (List.suffix_cons _ _)
    | _ => cases timer <;> exact (ih _).trans (List.suffix_cons _ _)

/-- A timer that becomes complete does so with a number that is given meanwhile. -/
theorem mem_stamps (events : List (Event φ)) {c : Completion Unit} (missed : completion? events timer = none)
    (complete : completion? (events ++ more) timer = some c) : c.seq ∈ stamps more := by
  have given {e : Event φ} (he : e ∈ more) (stamp : e.stamp? = some c.seq) : c.seq ∈ stamps more :=
    List.mem_filterMap.mpr ⟨e, he, stamp⟩
  rcases Nat.lt_or_ge timer (callbacks events).length with old | new
  · rw [completion?_append old, missed] at complete
    obtain ⟨e, he, completes⟩ := List.exists_of_findSome?_eq_some complete
    exact given he (Event.stamp?_of_completes completes)
  · have tail := since_suffix (timer - (callbacks events).length) more
    rw [completion?, since_append_of_le new] at complete
    split at complete
    · next signal callback later whole =>
      rw [whole] at tail
      rcases Option.or_eq_some_iff.mp complete with first | ⟨-, first⟩
      · exact given (tail.subset List.mem_cons_self) (congrArg (Option.map Completion.seq) first)
      · obtain ⟨e, he, completes⟩ := List.exists_of_findSome?_eq_some first
        exact given (tail.subset (List.mem_cons_of_mem _ he)) (Event.stamp?_of_completes completes)
    · cases complete

/-- A host that gives its sequence numbers in order completes its timers in this order. -/
theorem increasing_of_stamps (sorted : (stamps events).Pairwise (· ≤ ·)) : Increasing events := by
  rintro before ⟨more, rfl⟩ i j c d hi missed hj
  rw [stamps, List.filterMap_append] at sorted
  exact (List.pairwise_append.mp sorted).2.2 _ (mem_stamps [] rfl hi) _
    (mem_stamps before missed hj)

/-- Timers that are complete when they are set, that complete together, and that are
cancelled. -/
def mixed : List (Event Char) :=
  [.set .pending 'a', .set .pending 'b', .set (.complete ⟨2, .ok ()⟩) 'c', .complete 1 ⟨4, .ok ()⟩,
    .take, .set .pending 'd', .complete 3 ⟨5, .ok ()⟩, .set .pending 'e',
    .complete 0 ⟨5, .error .cancelled⟩, .drop 4, .set .taken 'f', .take, .take]

theorem handed_out_once_mixed :
    Increasing mixed ∧ (run mixed).handed.flatten.Pairwise (InSequence mixed)
      ∧ (run mixed).handed.map (List.map ReadyTimer.entry)
        = [[(⟨2⟩, 'c'), (⟨1⟩, 'b')], [(⟨0⟩, 'a'), (⟨3⟩, 'd'), (⟨4⟩, 'e'), (⟨5⟩, 'f')], []] := by
  have increasing : Increasing mixed := increasing_of_stamps (by decide)
  obtain ⟨-, -, -, -, -, -, -, sorted⟩ := handed_out_once mixed
  exact ⟨increasing, sorted increasing, by decide⟩

end Delivery
end TaskHost
