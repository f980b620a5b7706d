/-
# What a planned fault is used up by

Pulls, registrations, reads and fetches ask the host for a planned fault of their
kind. A call that is not kept from the host uses up a fault whenever one is
planned; whether the fault then shows depends on what the call finds. A failing
read or fetch always shows. A pull that finds nothing to give out twice, because
the queue is empty or the context unknown, and a registration for an unknown
context use up their fault for nothing (`FaultProne.idles`). So a run that ends
with all faults used up has shown each of them only if no call was idle in this
sense.

Key definitions: `FaultKind`, `FaultProne`, `FaultProne.shows`,
`FaultProne.idles`, `Host.Asks`.
Key theorems: `FaultProne.left_serve`, `FaultProne.shows_eq`, `Host.Asks.left`,
`Host.faults_accounted`.
-/
import TaskHost.Proofs.Echoes
import TaskHost.Proofs.Registrations

namespace TaskHost

/-! ### Kinds of faults -/

/-- What a planned fault makes go wrong. -/
inductive FaultKind where
  | repeatedPull
  | lostRegistration
  | failedRead
  | failedFetch
  deriving DecidableEq, Repr

/-- The number of faults of a kind that are still to come. -/
def FaultCounts.left (c : FaultCounts) : FaultKind → Nat
  | .repeatedPull => c.repeatPulls
  | .lostRegistration => c.droppedRegistrations
  | .failedRead => c.failingReads
  | .failedFetch => c.failingFetches

/-- The faults after one of a kind has been taken, if there was one. -/
def FaultCounts.spend (c : FaultCounts) : FaultKind → FaultCounts
  | .repeatedPull => { c with repeatPulls := c.repeatPulls - 1 }
  | .lostRegistration => { c with droppedRegistrations := c.droppedRegistrations - 1 }
  | .failedRead => { c with failingReads := c.failingReads - 1 }
  | .failedFetch => { c with failingFetches := c.failingFetches - 1 }

theorem FaultCounts.left_spend (c : FaultCounts) (spent kind : FaultKind) :
    (c.spend spent).left kind = if spent = kind then c.left kind - 1 else c.left kind := by
  cases spent <;> cases kind <;> rfl

theorem FaultCounts.isExhausted_iff {c : FaultCounts} : c.isExhausted = true ↔ ∀ kind, c.left kind = 0 := by
  constructor
  · intro h kind
    simp only [isExhausted, Bool.and_eq_true, decide_eq_true_eq] at h
    cases kind <;> simp [left, h]
  · intro h
    have repeats := h .repeatedPull
    have losses := h .lostRegistration
    have reads := h .failedRead
    have fetches := h .failedFetch
    simp only [left] at repeats losses reads fetches
    simp [isExhausted, repeats, losses, reads, fetches]

/-! ### Calls that ask for a fault -/

/-- A host call that asks whether a fault is planned for it. -/
inductive FaultProne where
  | pull (id : ContextId)
  | register (id : ContextId) (task : TaskId)
  | read (path : String)
  | fetch (url : String)
  deriving DecidableEq, Repr

namespace FaultProne

variable {h : Host} {c : FaultProne}

/-- The kind of fault that a call asks for. -/
def kind : FaultProne → FaultKind
  | .pull _ => .repeatedPull
  | .register _ _ => .lostRegistration
  | .read _ => .failedRead
  | .fetch _ => .failedFetch

/-- The host after a call. -/
def serve (h : Host) : FaultProne → Host
  | .pull id => (h.pull id).1
  | .register id task => (h.registerTask id task).1
  | .read path => (h.loadFile path).1
  | .fetch url => (h.fetch url).1

/-- Whether a call shows a fault: a pull gives out an id and leaves the queue as it
is, a registration succeeds and leaves the queue as it is, a read or a fetch fails
with the error that only a fault gives. -/
def shows (h : Host) : FaultProne → Bool
  | .pull id =>
    match h.pull id with
    | (k, .ok (some _)) => k.queuedIds id == h.queuedIds id
    | _ => false
  | .register id task =>
    match h.registerTask id task with
    | (k, .ok ()) => k.queuedIds id == h.queuedIds id
    | _ => false
  | .read path =>
    match (h.loadFile path).2.result with
    | .error (.io _ .injected) => true
    | _ => false
  | .fetch url =>
    match (h.fetch url).2.result with
    | .error (.network _ .injected) => true
    | _ => false

/-- Whether a call gets to the host. -/
def reaches (h : Host) : FaultProne → Bool
  | .pull _ => h.outages.pulls = 0
  | .register _ _ => h.outages.registrations = 0
  | .read _ => true
  | .fetch _ => true

/-- Whether a call finds something for a fault to go wrong with. -/
def finds (h : Host) : FaultProne → Bool
  | .pull id => !(h.queuedIds id).isEmpty
  | .register id _ => (h.context? id).isSome
  | .read _ => true
  | .fetch _ => true

/-- Whether a call takes a fault that is planned. -/
def takes (h : Host) (c : FaultProne) : Bool := c.reaches h && 0 < h.faults.left c.kind

/-- Whether a call takes a fault for nothing. -/
def idles (h : Host) (c : FaultProne) : Bool := c.takes h && !c.finds h

/-! ### The faults after a call -/

theorem faults_dequeue (h : Host) (repeated : Bool) (id : ContextId) :
    (h.dequeue repeated id).1.faults = h.faults := by
  unfold Host.dequeue
  cases h.context? id with
  | none => rfl
  | some c =>
    cases repeated with
    | true => rfl
    | false => exact Host.faults_modifyContext h id _

/-- A call that gets to the host spends a fault of its kind. -/
theorem faults_serve (h : Host) (c : FaultProne) :
    (c.serve h).faults = if c.reaches h then h.faults.spend c.kind else h.faults := by
  cases c with
  | pull id =>
    simp only [serve, reaches, Host.pull, decide_eq_true_eq]
    by_cases free : h.outages.pulls = 0
    · rw [if_neg (by omega), if_pos free, Host.unqueueTask_eq, faults_dequeue]
      rfl
    · rw [if_pos (by omega), if_neg free]
      rfl
  | register id task =>
    simp only [serve, reaches, Host.registerTask_eq, decide_eq_true_eq]
    by_cases free : h.outages.registrations = 0
    · rw [if_neg (by omega), if_pos free]
      rcases h.asked.enqueue_cases h.losesNext id task with ⟨e, done⟩ | ⟨-, done⟩ | ⟨-, f, done⟩
      all_goals rw [done]
      · rfl
      · rfl
      · exact Host.faults_modifyContext h.asked id f
    · rw [if_pos (by omega), if_neg free]
      rfl
  | read path => rfl
  | fetch url => rfl

/-- A call takes one fault of its kind if one is planned, and none of any other
kind. -/
theorem left_serve (h : Host) (c : FaultProne) (kind : FaultKind) :
    h.faults.left kind = (c.serve h).faults.left kind + if c.kind = kind ∧ c.takes h then 1 else 0 := by
  rw [faults_serve]
  by_cases reached : c.reaches h = true
  · rw [if_pos reached, FaultCounts.left_spend]
    by_cases same : c.kind = kind
    · by_cases planned : 0 < h.faults.left kind
      · simp only [takes, reached, same, planned, decide_true, Bool.and_self, and_self, if_true]
        omega
      · simp only [takes, reached, same, planned, decide_false, Bool.and_false, Bool.false_eq_true,
          and_false, if_true, if_false]
        omega
    · simp [same]
  · simp [takes, reached]

/-! ### The faults that show -/

theorem pull_unknown (pulls : h.outages.pulls = 0) {id : ContextId} (unknown : h.context? id = none) :
    h.pull id = (h.withRepeats (h.faults.repeatPulls - 1), .error (.unknownContext id)) := by
  have unknown' : (h.withRepeats (h.faults.repeatPulls - 1)).context? id = none :=
    (Host.context?_congr rfl id).trans unknown
  rw [Host.pull_eq_dequeue pulls, Host.dequeue, unknown']

theorem shows_pull (h : Host) (id : ContextId) :
    shows h (.pull id) = (takes h (.pull id) && finds h (.pull id)) := by
  by_cases pulls : h.outages.pulls = 0
  · cases known : h.context? id with
    | none => simp [shows, pull_unknown pulls known, finds, Host.queuedIds, known]
    | some c =>
      have queue := Host.queuedIds_of_context? known
      have found : finds h (.pull id) = !c.queue.ids.isEmpty := by rw [finds, queue]
      cases repeats : h.faults.repeatPulls with
      | zero =>
        have left := Host.queuedIds_modifyContext known fun d => { d with queue := ⟨c.queue.ids.tail⟩ }
        simp only [shows, Host.pull_plain known pulls repeats, takes, kind, FaultCounts.left, repeats]
        cases ids : c.queue.ids with
        | nil => simp
        | cons task rest => simp [ids, queue] at left ⊢; simp [left]
      | succ n =>
        have same : (h.withRepeats n).queuedIds id = h.queuedIds id :=
          Host.queuedIds_congr (Host.context?_congr rfl id)
        simp only [shows, Host.pull_repeating known pulls repeats, takes, reaches, kind, FaultCounts.left,
          repeats, pulls, found]
        cases c.queue.ids with
        | nil => simp
        | cons task rest => simp [same]
  · have refused : h.pull id = (h.passPull, .error .cancelled) := by
      rw [Host.pull, if_pos (by omega)]
    simp [shows, refused, takes, reaches, pulls]

theorem shows_register (h : Host) (id : ContextId) (task : TaskId) :
    shows h (.register id task) = (takes h (.register id task) && finds h (.register id task)) := by
  unfold takes
  by_cases free : h.outages.registrations = 0
  · have asked := (Host.registerTask_eq h id task).trans (if_neg (by omega))
    have same : h.asked.context? id = h.context? id := Host.context?_congr rfl id
    have queue : h.asked.queuedIds id = h.queuedIds id := Host.queuedIds_congr same
    simp only [shows, asked, reaches, free, kind, FaultCounts.left, finds, Host.enqueue, same]
    cases known : h.context? id with
    | none => simp
    | some c =>
      by_cases planned : 0 < h.faults.droppedRegistrations
      · have lost : h.losesNext = true := decide_eq_true planned
        simp [lost, planned, queue]
      · have kept : h.losesNext = false := decide_eq_false planned
        simp only [kept, planned, Bool.false_eq_true, if_false]
        cases pushed : c.queue.push? task with
        | none => simp
        | some q =>
          have grown := (Host.ids_of_push? pushed).2
          simp [Host.queuedIds_modifyContext (same.trans known), Host.queuedIds_of_context? known, grown]
  · have refused : h.registerTask id task = (h.passRegistration, .error .cancelled) := by
      rw [Host.registerTask, if_pos (by omega)]
    simp [shows, refused, reaches, free]

/-- The error of a failing read comes from no file store. -/
theorem read_ne_injected (files : FileStore) (path p : String) :
    files.read path ≠ .error (.io p .injected) := by
  have disk (f : Disk.Failure) : FileStore.diskError path f ≠ .io p .injected := by
    cases f with
    | nulByte => simp [FileStore.diskError]
    | os e =>
      simp only [FileStore.diskError, HostError.ofOs]
      split <;> simp
  unfold FileStore.read FileStore.resolve
  cases parsed : HostPath.parse path with
  | error cause =>
    have parse : cause ≠ .injected := by
      unfold HostPath.parse at parsed
      intro injected
      grind
    simpa [Except.mapError, bind, Except.bind] using fun _ => parse
  | ok segments =>
    cases files with
    | memory files =>
      simp only [Except.mapError, bind, Except.bind]
      split <;> simp [pure, Except.pure, throw, throwThe, MonadExceptOf.throw]
    | disk root =>
      simp only [Except.mapError, bind, Except.bind]
      split
      · simpa using disk _
      · simp

theorem shows_read (h : Host) (path : String) : shows h (.read path) = takes h (.read path) := by
  by_cases planned : 0 < h.faults.failingReads
  · simp [shows, Host.loadFile, Host.finish, FaultCounts.takeFailingRead, takes, reaches, kind,
      FaultCounts.left, planned]
  · have result : (h.loadFile path).2.result = h.files.read path := by
      simp [Host.loadFile, Host.finish, FaultCounts.takeFailingRead, planned]
    have own := read_ne_injected h.files path
    have none_taken : takes h (.read path) = false := by simp [takes, kind, FaultCounts.left, planned]
    rw [none_taken, shows, result]
    split
    · exact absurd ‹_› (own _)
    · rfl

theorem shows_fetch (h : Host) (url : String) : shows h (.fetch url) = takes h (.fetch url) := by
  by_cases planned : 0 < h.faults.failingFetches
  · simp [shows, Host.fetch, Host.finish, FaultCounts.takeFailingFetch, takes, reaches, kind,
      FaultCounts.left, planned]
  · have result : (h.fetch url).2.result = h.routes.fetch url := by
      simp [Host.fetch, Host.finish, FaultCounts.takeFailingFetch, planned]
    have own : ∀ u, h.routes.fetch url ≠ .error (.network u .injected) := by
      intro u
      unfold RouteTable.fetch
      split <;> simp
    have none_taken : takes h (.fetch url) = false := by simp [takes, kind, FaultCounts.left, planned]
    rw [none_taken, shows, result]
    split
    · exact absurd ‹_› (own _)
    · rfl

/-- A fault shows exactly if a call takes it and finds something. -/
theorem shows_eq (h : Host) (c : FaultProne) : c.shows h = (c.takes h && c.finds h) := by
  cases c with
  | pull id => exact shows_pull h id
  | register id task => exact shows_register h id task
  | read path => rw [shows_read, finds, Bool.and_true]
  | fetch url => rw [shows_fetch, finds, Bool.and_true]

/-- A call takes one fault of its kind if it shows one or takes it for nothing, which
never happens at once, and else none. -/
theorem left_serve_shows (h : Host) (c : FaultProne) :
    h.faults.left c.kind = (c.serve h).faults.left c.kind + (c.shows h).toNat + (c.idles h).toNat := by
  rw [left_serve h c c.kind, shows_eq, idles]
  cases c.takes h <;> cases c.finds h <;> simp

end FaultProne

/-! ### Runs -/

namespace Host

/-- What happens to a host: calls that ask for a fault, each listed with the host
that it finds, and anything else, which leaves the faults alone. -/
inductive Asks : Host → List (Host × FaultProne) → Host → Prop
  | done (h : Host) : Asks h [] h
  | ask {h k : Host} {calls : List (Host × FaultProne)} (c : FaultProne)
      (rest : Asks (c.serve h) calls k) : Asks h ((h, c) :: calls) k
  | other {h m k : Host} {calls : List (Host × FaultProne)} (same : m.faults = h.faults)
      (rest : Asks m calls k) : Asks h calls k

/-- The number of calls that show a fault of a kind. -/
def shown (kind : FaultKind) (calls : List (Host × FaultProne)) : Nat :=
  calls.countP fun c => c.2.kind = kind && c.2.shows c.1

/-- The number of calls that take a fault of a kind for nothing. -/
def idled (kind : FaultKind) (calls : List (Host × FaultProne)) : Nat :=
  calls.countP fun c => c.2.kind = kind && c.2.idles c.1

theorem shown_cons (kind : FaultKind) (h : Host) (c : FaultProne) (calls : List (Host × FaultProne)) :
    shown kind ((h, c) :: calls) = shown kind calls + if c.kind = kind then (c.shows h).toNat else 0 := by
  rw [shown, List.countP_cons, shown]
  by_cases own : c.kind = kind <;> cases c.shows h <;> simp [own]

theorem idled_cons (kind : FaultKind) (h : Host) (c : FaultProne) (calls : List (Host × FaultProne)) :
    idled kind ((h, c) :: calls) = idled kind calls + if c.kind = kind then (c.idles h).toNat else 0 := by
  rw [idled, List.countP_cons, idled]
  by_cases own : c.kind = kind <;> cases c.idles h <;> simp [own]

/-- Over a run, every planned fault stays, shows, or is taken for nothing. -/
theorem Asks.left {h k : Host} {calls : List (Host × FaultProne)} (run : Asks h calls k)
    (kind : FaultKind) : h.faults.left kind = k.faults.left kind + shown kind calls + idled kind calls := by
  induction run with
  | done h => simp [shown, idled]
  | other same _ ih => rw [← same, ih]
  | @ask h k calls c _ ih =>
    rw [shown_cons, idled_cons]
    by_cases own : c.kind = kind
    · have step := c.left_serve_shows h
      rw [own, ih] at step
      simp only [own, if_true]
      omega
    · have step := c.left_serve h kind
      simp only [own, false_and, if_false, Nat.add_zero] at step ⊢
      rw [step, ih]

/-- Each call of a run takes a fault of its kind if and only if it shows one or takes
it for nothing. If no fault is left in the end, as many of each kind were planned
as have shown or were taken for nothing. -/
theorem faults_accounted {h k : Host} {calls : List (Host × FaultProne)} (run : Asks h calls k) :
    (∀ m c, (m, c) ∈ calls →
        (m.faults.left c.kind = (c.serve m).faults.left c.kind + 1
          ↔ c.shows m = true ∨ c.idles m = true))
      ∧ (k.faults.isExhausted = true →
        ∀ kind, h.faults.left kind = shown kind calls + idled kind calls) := by
  constructor
  · intro m c _
    rw [c.left_serve m c.kind, c.shows_eq m, FaultProne.idles]
    cases c.takes m <;> cases c.finds m <;> simp
  · intro exhausted kind
    rw [run.left kind, FaultCounts.isExhausted_iff.mp exhausted kind, Nat.zero_add]

/-- A host with one context, which is to repeat a pull. -/
def repeatingOnce : Host :=
  ((empty.withFaults ⟨1, 0, 0, 0⟩).spawn ⟨"worker", none⟩).1

/-- A pull of the empty queue takes the repetition for nothing, and the next pull,
which finds an id, takes it out of the queue. -/
theorem faults_accounted_repeatingOnce :
    let queued := (repeatingOnce.pull (.spawned 0)).1.registerTask (.spawned 0) ⟨"a"⟩
    let calls := [(repeatingOnce, FaultProne.pull (.spawned 0)), (queued.1, .pull (.spawned 0))]
    repeatingOnce.faults.left .repeatedPull
        = shown .repeatedPull calls + idled .repeatedPull calls
      ∧ shown .repeatedPull calls = 0 := by
  intro queued calls
  have run : Asks repeatingOnce calls (queued.1.pull (.spawned 0)).1 :=
    .ask _ (.other (m := queued.1) rfl (.ask _ (.done _)))
  exact ⟨(faults_accounted run).2 rfl .repeatedPull, rfl⟩

/-- The pull of an empty queue gives out nothing, and no fault is left. -/
theorem repetition_wasted :
    (repeatingOnce.pull (.spawned 0)).2 = .ok none
      ∧ repeatingOnce.faults.left .repeatedPull = 1
      ∧ FaultProne.shows repeatingOnce (.pull (.spawned 0)) = false
      ∧ (repeatingOnce.pull (.spawned 0)).1.faults.isExhausted = true :=
  ⟨rfl, rfl, rfl, rfl⟩

end Host
end TaskHost
