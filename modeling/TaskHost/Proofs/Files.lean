/-
# Files as their last changes left them

A call on a file store reads, writes or removes (`FileCall`), and a history is the calls so
far with their answers (`FileEvent`). What a call answers at a place, and what it leaves
there, depends on what is there alone (`FileCall.answer`, `FileCall.leaves`). Files in memory
are a map from segments to contents that a call changes at its own segments and nowhere else
(`FileStore.serve_memory`). So after any calls a store in memory has, under the segments of a
path, what the last change there wrote (`FileStore.remembers_record`), and calls on other
segments make no difference (`FileStore.record_apart`).

A host answers in the same way, except for reads that a planned fault rejects; these change
nothing, and no other call of the host touches its files (`Host.files_serve`).

Key definitions: `FileCall`, `FileStore.serve`, `FileStore.record`, `LastWrote`,
`FileStore.Remembers`, `Host.fileEvents`.
Key theorems: `FileStore.serve_memory`, `FileStore.remembers_record`,
`FileStore.record_apart`, `Host.files_serve`, `FileStore.memory_is_map`.
-/
import Mathlib.Data.List.Induction
import TaskHost.Proofs.Chronicles
import TaskHost.Proofs.Paths

namespace TaskHost

/-! ### Calls and histories -/

/-- A call on files. -/
inductive FileCall where
  | read (path : String)
  | write (path : String) (contents : Bytes)
  | remove (path : String)
  deriving DecidableEq, Repr

/-- What a call on files answers: contents, if it reads some. -/
abbrev FileAnswer := Except HostError (Option Bytes)

/-- A call on files with its answer. -/
structure FileEvent where
  call : FileCall
  answer : FileAnswer

namespace FileCall

/-- The path that a call is about. -/
def path : FileCall → String
  | .read path => path
  | .write path _ => path
  | .remove path => path

/-- The segments of the path. -/
def segments (c : FileCall) : List String := HostPath.segmentsOf c.path

/-- What is answered to a call where there are contents, or none. -/
def answer (there : Option Bytes) : FileCall → FileAnswer
  | .read path =>
    match there with
    | some contents => .ok (some contents)
    | none => .error (.notFound path)
  | .write _ _ => .ok none
  | .remove path =>
    match there with
    | some _ => .ok none
    | none => .error (.notFound path)

/-- What a call leaves where there are contents, or none. -/
def leaves (there : Option Bytes) : FileCall → Option Bytes
  | .read _ => there
  | .write _ contents => some contents
  | .remove _ => none

end FileCall

namespace FileStore

/-- Carries out a call. -/
def serve (store : FileStore) : FileCall → FileStore × FileAnswer
  | .read path => (store, (store.read path).map some)
  | .write path contents =>
    ((store.write path contents).1, (store.write path contents).2.map fun () => none)
  | .remove path => ((store.remove path).1, (store.remove path).2.map fun () => none)

/-- The store after calls, one after the other. -/
def serveAll (store : FileStore) (calls : List FileCall) : FileStore :=
  calls.foldl (fun store c => (store.serve c).1) store

/-- The history of calls, one after the other. -/
def record (store : FileStore) : List FileCall → List FileEvent
  | [] => []
  | c :: rest => ⟨c, (store.serve c).2⟩ :: (store.serve c).1.record rest

theorem serveAll_concat (store : FileStore) (calls : List FileCall) (c : FileCall) :
    store.serveAll (calls ++ [c]) = ((store.serveAll calls).serve c).1 := by
  simp [serveAll]

theorem record_concat (store : FileStore) (calls : List FileCall) (c : FileCall) :
    store.record (calls ++ [c])
      = store.record calls ++ [⟨c, ((store.serveAll calls).serve c).2⟩] := by
  induction calls generalizing store with
  | nil => rfl
  | cons d rest ih => simp only [List.cons_append, record, ih, serveAll, List.foldl_cons]

end FileStore

/-! ### The last change -/

namespace FileEvent

/-- Whether a call has written contents under segments. -/
def Wrote (e : FileEvent) (segments : List String) (contents : Bytes) : Prop :=
  ∃ path, e = ⟨.write path contents, .ok none⟩ ∧ HostPath.segmentsOf path = segments

/-- Whether a call has removed the file of segments. -/
def Removed (e : FileEvent) (segments : List String) : Prop :=
  ∃ path, e = ⟨.remove path, .ok none⟩ ∧ HostPath.segmentsOf path = segments

/-- Whether a call has written or removed the file of segments. -/
def Changed (e : FileEvent) (segments : List String) : Prop :=
  (∃ contents, e.Wrote segments contents) ∨ e.Removed segments

end FileEvent

/-- The last change of the file of segments has written contents. -/
def LastWrote (events : List FileEvent) (segments : List String) (contents : Bytes) : Prop :=
  ∃ before e after, events = before ++ e :: after ∧ e.Wrote segments contents
    ∧ ∀ later ∈ after, ¬ later.Changed segments

theorem lastWrote_nil (segments : List String) (contents : Bytes) :
    ¬ LastWrote [] segments contents := by
  rintro ⟨before, e, after, split, -⟩
  exact List.append_ne_nil_of_right_ne_nil before (List.cons_ne_nil e after) split.symm

/-- Of a history with one more call, the last change is that call, or an earlier one. -/
theorem lastWrote_concat (events : List FileEvent) (e : FileEvent) (segments : List String)
    (contents : Bytes) :
    LastWrote (events ++ [e]) segments contents
      ↔ e.Wrote segments contents
        ∨ (¬ e.Changed segments ∧ LastWrote events segments contents) := by
  constructor
  · rintro ⟨before, d, after, split, wrote, none⟩
    rcases List.eq_nil_or_concat' after with rfl | ⟨after, last, rfl⟩
    · obtain ⟨-, same⟩ := List.append_inj' split rfl
      obtain rfl := List.singleton_inj.mp same
      exact .inl wrote
    · rw [← List.cons_append, ← List.append_assoc] at split
      obtain ⟨rfl, same⟩ := List.append_inj' split rfl
      obtain rfl := List.singleton_inj.mp same
      exact .inr ⟨none _ (by simp), before, d, after, rfl, wrote,
        fun later member => none later (List.mem_append_left _ member)⟩
  · rintro (wrote | ⟨kept, before, d, after, rfl, wrote, none⟩)
    · exact ⟨events, e, [], rfl, wrote, fun later member => by cases member⟩
    · refine ⟨before, d, after ++ [e], by simp, wrote, fun later member => ?_⟩
      rcases List.mem_append.mp member with earlier | last
      · exact none later earlier
      · exact List.mem_singleton.mp last ▸ kept

/-! ### Files in memory -/

/-- What is found after the entry of a key was taken out of a list. -/
theorem lookup_filter_ne {κ β : Type} [BEq κ] [LawfulBEq κ] [DecidableEq κ] (l : List (κ × β))
    (key k : κ) :
    (l.filter fun e => e.1 ≠ key).lookup k = if k = key then none else l.lookup k := by
  induction l with
  | nil => simp
  | cons e rest ih =>
    obtain ⟨k', b⟩ := e
    by_cases out : k' = key
    · subst out
      rw [List.filter_cons_of_neg (by simp), ih]
      by_cases same : k = k'
      · simp [same]
      · rw [if_neg same, if_neg same, List.lookup_cons, beq_false_of_ne same]
    · rw [List.filter_cons_of_pos (by simpa using out), List.lookup_cons, List.lookup_cons, ih]
      by_cases same : k = k'
      · subst same
        simp [out]
      · rw [beq_false_of_ne same]

namespace HostPath

/-- Why a path that is not valid is refused. -/
def refusal (path : String) : IoCause :=
  if ".." ∈ segmentsOf path then .escapesRoot else .emptyPath

theorem parse_of_valid {path : String} (valid : IsValid path) :
    parse path = .ok ⟨segmentsOf path⟩ := parse_ok_iff.mpr ⟨valid, rfl⟩

theorem parse_of_invalid {path : String} (invalid : ¬ IsValid path) :
    parse path = .error (refusal path) := by
  rw [parse_eq, refusal]
  by_cases up : ".." ∈ segmentsOf path
  · rw [if_pos up, if_pos up]
  · have none : segmentsOf path = [] := by
      by_contra some
      exact invalid ⟨some, up⟩
    rw [if_neg up, if_neg up, if_pos none]

end HostPath

namespace FileStore

open HostPath

variable {store : FileStore} {files : List (List String × Bytes)} {c : FileCall}

theorem resolve_of_valid {path : String} (valid : IsValid path) :
    resolve path = .ok ⟨segmentsOf path⟩ := by
  rw [resolve, parse_of_valid valid]
  rfl

theorem resolve_of_invalid {path : String} (invalid : ¬ IsValid path) :
    resolve path = .error (.io path (refusal path)) := by
  rw [resolve, parse_of_invalid invalid]
  rfl

/-- A path that is not valid is refused by every store, and nothing changes. -/
theorem serve_of_invalid (store : FileStore) (invalid : ¬ IsValid c.path) :
    store.serve c = (store, .error (.io c.path (refusal c.path))) := by
  have refused := resolve_of_invalid invalid
  cases c with
  | read path =>
    rw [FileCall.path] at refused
    simp only [serve, read, refused]
    rfl
  | write path contents =>
    rw [FileCall.path] at refused
    simp only [serve, write, refused]
    rfl
  | remove path =>
    rw [FileCall.path] at refused
    simp only [serve, remove, refused]
    rfl

/-- In memory a call answers by what is under its segments, and changes nothing else. -/
theorem serve_memory (files : List (List String × Bytes)) (valid : IsValid c.path) :
    ∃ files', (memory files).serve c = (memory files', c.answer (files.lookup c.segments))
      ∧ ∀ s, files'.lookup s
        = if s = c.segments then c.leaves (files.lookup c.segments) else files.lookup s := by
  have resolved := resolve_of_valid valid
  cases c with
  | read path =>
    rw [FileCall.path] at resolved
    refine ⟨files, ?_, fun s => ?_⟩
    · have asked : (memory files).read path = match files.lookup (segmentsOf path) with
          | some contents => .ok contents
          | none => .error (.notFound path) := by
        rw [read, resolved]
        rfl
      simp only [serve, asked, FileCall.segments, FileCall.path, FileCall.answer]
      cases files.lookup (segmentsOf path) <;> rfl
    · split
      · next same => rw [same]; rfl
      · rfl
  | write path contents =>
    rw [FileCall.path] at resolved
    refine ⟨(segmentsOf path, contents) :: files.filter fun f => f.1 ≠ segmentsOf path, ?_,
      fun s => ?_⟩
    · simp only [serve, write, resolved]
      rfl
    · rw [List.lookup_cons, lookup_filter_ne]
      by_cases same : s = segmentsOf path
      · simp [same, FileCall.segments, FileCall.path, FileCall.leaves]
      · simp [same, beq_false_of_ne same, FileCall.segments, FileCall.path]
  | remove path =>
    rw [FileCall.path] at resolved
    by_cases present : (files.lookup (segmentsOf path)).isSome
    · obtain ⟨contents, there⟩ := Option.isSome_iff_exists.mp present
      refine ⟨files.filter fun f => f.1 ≠ segmentsOf path, ?_, lookup_filter_ne files _⟩
      simp only [serve, remove, resolved, present, if_true]
      simp only [FileCall.segments, FileCall.path, FileCall.answer, there]
      rfl
    · have none : files.lookup (segmentsOf path) = none := Option.not_isSome_iff_eq_none.mp present
      refine ⟨files, ?_, fun s => ?_⟩
      · simp only [serve, remove, resolved, present]
        simp only [FileCall.segments, FileCall.path, FileCall.answer, none]
        rfl
      · split
        · next same => rw [same]; exact none
        · rfl

/-- What a call leaves under segments is what the last change wrote, with this call. -/
theorem lastWrote_answered {m : List String → Option Bytes} {events : List FileEvent}
    {s : List String} {contents : Bytes}
    (known : m s = some contents ↔ LastWrote events s contents) (c : FileCall) :
    (if s = c.segments then c.leaves (m c.segments) else m s) = some contents
      ↔ LastWrote (events ++ [⟨c, c.answer (m c.segments)⟩]) s contents := by
  rw [lastWrote_concat, ← known]
  by_cases here : s = c.segments
  · subst here
    rw [if_pos rfl]
    cases c with
    | read path =>
      have kept (b : Option Bytes) : ¬ (FileEvent.mk (.read path)
          (FileCall.answer b (.read path))).Changed (FileCall.read path).segments := by
        simp [FileEvent.Changed, FileEvent.Wrote, FileEvent.Removed]
      simp [kept, FileEvent.Wrote, FileCall.leaves]
    | write path b =>
      have changed : (FileEvent.mk (.write path b) (.ok none)).Changed
          (FileCall.write path b).segments := .inl ⟨b, path, rfl, rfl⟩
      have wrote : (FileEvent.mk (.write path b) (.ok none)).Wrote
          (FileCall.write path b).segments contents ↔ b = contents := by
        simp [FileEvent.Wrote, FileCall.segments, FileCall.path]
      simp [changed, wrote, FileCall.leaves, FileCall.answer]
    | remove path =>
      cases m (FileCall.remove path).segments with
      | none => simp [FileEvent.Wrote, FileCall.leaves]
      | some there =>
        have changed : (FileEvent.mk (.remove path) (.ok none)).Changed
            (FileCall.remove path).segments := .inr ⟨path, rfl, rfl⟩
        simp [changed, FileEvent.Wrote, FileCall.leaves, FileCall.answer]
  · rw [if_neg here]
    have elsewhere (answer : FileAnswer) : ¬ (FileEvent.mk c answer).Changed s := by
      rintro (⟨b, path, same, rfl⟩ | ⟨path, same, rfl⟩)
      · obtain ⟨rfl, -⟩ := FileEvent.mk.inj same
        exact here rfl
      · obtain ⟨rfl, -⟩ := FileEvent.mk.inj same
        exact here rfl
    have unwritten (answer : FileAnswer) : ¬ (FileEvent.mk c answer).Wrote s contents :=
      fun wrote => elsewhere answer (.inl ⟨contents, wrote⟩)
    simp [elsewhere, unwritten]

theorem lastWrote_refused (events : List FileEvent) (c : FileCall) (e : HostError)
    (s : List String) (contents : Bytes) :
    LastWrote (events ++ [⟨c, .error e⟩]) s contents ↔ LastWrote events s contents := by
  rw [lastWrote_concat]
  simp [FileEvent.Changed, FileEvent.Wrote, FileEvent.Removed]

/-- After any calls there is under segments what the last change wrote. -/
theorem lookup_serveAll (calls : List FileCall) :
    ∃ files, empty.serveAll calls = memory files
      ∧ ∀ s contents, files.lookup s = some contents
        ↔ LastWrote (empty.record calls) s contents := by
  induction calls using List.reverseRecOn with
  | nil =>
    exact ⟨[], rfl, fun s contents => by simp [record, lastWrote_nil]⟩
  | append_singleton calls c ih =>
    obtain ⟨files, stored, known⟩ := ih
    rw [serveAll_concat, record_concat, stored]
    by_cases valid : IsValid c.path
    · obtain ⟨files', served, found⟩ := serve_memory files valid
      refine ⟨files', by rw [served], fun s contents => ?_⟩
      rw [served, found]
      exact lastWrote_answered (m := fun s => files.lookup s) (known s contents) c
    · refine ⟨files, by rw [serve_of_invalid _ valid], fun s contents => ?_⟩
      rw [serve_of_invalid _ valid, lastWrote_refused]
      exact known s contents

/-! ### What a store in memory answers -/

/-- Whether a store answers by what the last changes in a history have left. -/
structure Remembers (store : FileStore) (events : List FileEvent) : Prop where
  read_ok : ∀ path contents, store.read path = .ok contents
    ↔ IsValid path ∧ LastWrote events (segmentsOf path) contents
  read_missing : ∀ path, store.read path = .error (.notFound path)
    ↔ IsValid path ∧ ∀ contents, ¬ LastWrote events (segmentsOf path) contents
  read_refused : ∀ path, (∃ cause, store.read path = .error (.io path cause)) ↔ ¬ IsValid path
  write_ok : ∀ path contents, (store.write path contents).2 = .ok () ↔ IsValid path
  remove_ok : ∀ path, (store.remove path).2 = .ok ()
    ↔ IsValid path ∧ ∃ contents, LastWrote events (segmentsOf path) contents

/-- The answers of a store in memory to the three calls. -/
theorem answers_memory (files : List (List String × Bytes)) {path : String} (valid : IsValid path) :
    (memory files).read path = (match files.lookup (segmentsOf path) with
        | some contents => .ok contents
        | none => .error (.notFound path))
      ∧ (∀ contents, ((memory files).write path contents).2 = .ok ())
      ∧ ((memory files).remove path).2 = (match files.lookup (segmentsOf path) with
        | some _ => .ok ()
        | none => .error (.notFound path)) := by
  have resolved := resolve_of_valid valid
  refine ⟨?_, fun contents => ?_, ?_⟩
  · rw [read, resolved]
    rfl
  · rw [write, resolved]
  · simp only [remove, resolved]
    cases files.lookup (segmentsOf path) <;> rfl

/-- A store in memory whose files are what the last changes have left answers by them. -/
theorem remembers_memory {files : List (List String × Bytes)} {events : List FileEvent}
    (known : ∀ s contents, files.lookup s = some contents ↔ LastWrote events s contents) :
    (memory files).Remembers events := by
  have missing (s : List String) :
      files.lookup s = none ↔ ∀ contents, ¬ LastWrote events s contents := by
    simp only [Option.eq_none_iff_forall_ne_some, ne_eq, known]
  have refused {path : String} (invalid : ¬ IsValid path) :
      (memory files).read path = .error (.io path (refusal path))
        ∧ (∀ contents, ((memory files).write path contents).2 = .error (.io path (refusal path)))
        ∧ ((memory files).remove path).2 = .error (.io path (refusal path)) := by
    have resolved := resolve_of_invalid invalid
    refine ⟨?_, fun contents => ?_, ?_⟩
    · rw [read, resolved]
      rfl
    · rw [write, resolved]
    · rw [remove, resolved]
  refine ⟨fun path contents => ?_, fun path => ?_, fun path => ?_, fun path contents => ?_,
    fun path => ?_⟩ <;> by_cases valid : IsValid path
  · rw [(answers_memory files valid).1, ← known]
    cases files.lookup (segmentsOf path) <;> simp [valid]
  · simp [(refused valid).1, valid]
  · rw [(answers_memory files valid).1, ← missing]
    cases files.lookup (segmentsOf path) <;> simp [valid]
  · simp [(refused valid).1, valid]
  · rw [(answers_memory files valid).1]
    cases files.lookup (segmentsOf path) <;> simp [valid]
  · simp [(refused valid).1, valid]
  · simp [(answers_memory files valid).2.1, valid]
  · simp [(refused valid).2.1, valid]
  · simp only [(answers_memory files valid).2.2, ← known]
    cases files.lookup (segmentsOf path) <;> simp [valid]
  · simp [(refused valid).2.2, valid]

/-- After any calls a store in memory answers by what the last changes have left. -/
theorem remembers_record (calls : List FileCall) :
    (empty.serveAll calls).Remembers (empty.record calls) := by
  obtain ⟨files, stored, known⟩ := lookup_serveAll calls
  rw [stored]
  exact remembers_memory known

/-- A call that fails leaves a store in memory as it is. -/
theorem serve_memory_error {e : HostError}
    (failed : ((memory files).serve c).2 = .error e) :
    ((memory files).serve c).1 = memory files := by
  by_cases valid : IsValid c.path
  · have resolved := resolve_of_valid valid
    cases c with
    | read path => rfl
    | write path contents =>
      rw [FileCall.path] at resolved
      simp only [serve, write, resolved] at failed
      cases failed
    | remove path =>
      rw [FileCall.path] at resolved
      simp only [serve, remove, resolved] at failed ⊢
      by_cases present : (files.lookup (segmentsOf path)).isSome
      · rw [if_pos present] at failed
        cases failed
      · rw [if_neg present]
  · rw [serve_of_invalid _ valid]

/-- Two stores in memory with the same files under the segments of some calls answer these
calls alike. -/
theorem record_memory_congr {files files' : List (List String × Bytes)} {calls : List FileCall}
    (same : ∀ d ∈ calls, files'.lookup d.segments = files.lookup d.segments) :
    (memory files').record calls = (memory files).record calls := by
  induction calls generalizing files files' with
  | nil => rfl
  | cons d rest ih =>
    have here := same d List.mem_cons_self
    have later : ∀ x ∈ rest, files'.lookup x.segments = files.lookup x.segments :=
      fun x member => same x (List.mem_cons_of_mem d member)
    by_cases valid : IsValid d.path
    · obtain ⟨left, served, found⟩ := serve_memory files valid
      obtain ⟨left', served', found'⟩ := serve_memory files' valid
      simp only [record, served, served', here]
      rw [ih fun x member => ?_]
      rw [found, found', here, later x member]
    · simp only [record, serve_of_invalid _ valid]
      rw [ih later]

/-- A call makes no difference to calls on other segments. -/
theorem record_apart (files : List (List String × Bytes)) (c : FileCall) {calls : List FileCall}
    (apart : ∀ d ∈ calls, d.segments ≠ c.segments) :
    ((memory files).serve c).1.record calls = (memory files).record calls := by
  by_cases valid : IsValid c.path
  · obtain ⟨files', served, found⟩ := serve_memory files valid
    rw [served]
    refine record_memory_congr fun d member => ?_
    rw [found, if_neg (apart d member)]
  · rw [serve_of_invalid _ valid]

end FileStore

/-! ### The files of a host -/

namespace Host

variable {h : Host}

/-- The call on files in a call of a host. -/
def Call.file? : Host.Call → Option FileCall
  | .start (.read path) => some (.read path)
  | .start (.write path contents) => some (.write path contents)
  | .request (.remove path) => some (.remove path)
  | _ => none

/-- What a host answers to a call on files. -/
def answerFile (h : Host) : FileCall → FileAnswer
  | .read path => (h.loadFile path).2.result.map some
  | .write path contents => (h.storeFile path contents).2.result.map fun () => none
  | .remove path => (h.removeFile path).2.map fun () => none

/-- Whether a planned fault rejects a call on files. -/
def rejects (h : Host) : FileCall → Bool
  | .read _ => 0 < h.faults.failingReads
  | _ => false

/-- The call on files in a call of a host, with its answer, unless a fault rejects it. -/
def fileEvent? (h : Host) (call : Host.Call) : Option FileEvent :=
  match call.file? with
  | some c => if h.rejects c then none else some ⟨c, h.answerFile c⟩
  | none => none

/-- The host after calls, one after the other. -/
def serveAll (h : Host) (calls : List Host.Call) : Host := calls.foldl Call.serve h

/-- The calls on files among calls, with their answers, less those that faults reject. -/
def fileEvents (h : Host) : List Host.Call → List FileEvent
  | [] => []
  | call :: rest => (h.fileEvent? call).toList ++ (call.serve h).fileEvents rest

/-- A host answers what its store does, but for reads that a fault rejects. -/
theorem answerFile_eq (h : Host) (c : FileCall) :
    h.answerFile c
      = if h.rejects c then .error (.io c.path .injected) else (h.files.serve c).2 := by
  cases c with
  | read path =>
    simp only [answerFile, rejects, loadFile, finish, FaultCounts.takeFailingRead]
    by_cases injected : 0 < h.faults.failingReads
    · simp only [injected, decide_true, if_true]
      rfl
    · simp only [injected, decide_false, Bool.false_eq_true, if_false]
      rfl
  | write path contents => rfl
  | remove path => rfl

theorem files_modifyContext (h : Host) (id : ContextId) (f : Context → Context) :
    (h.modifyContext id f).files = h.files := by
  cases id <;> rfl

theorem files_drive (h : Host) : h.drive.1.files = h.files := by
  unfold drive
  split <;> rfl

theorem files_awaitWithin (fuel : Nat) (h : Host) (σ : Signal) :
    (awaitWithin fuel h σ).1.files = h.files := by
  induction fuel generalizing h with
  | zero => unfold awaitWithin; split <;> rfl
  | succ fuel ih =>
    unfold awaitWithin
    have driven := files_drive h
    split
    · rfl
    · simp only
      split
      · next k hk => rw [ih, ← driven, hk]
      · next k hk => rw [← driven, hk]

theorem files_setTimeout (h : Host) (delay : Duration) :
    (h.setTimeout delay).1.files = h.files := by
  unfold setTimeout
  split <;> rfl

theorem files_sleep (h : Host) (delay : Duration) : (h.sleep delay).1.files = h.files := by
  unfold sleep await
  simp only [files_awaitWithin, files_setTimeout]

theorem files_registerTask (h : Host) (id : ContextId) (task : TaskId) :
    (h.registerTask id task).1.files = h.files := by
  unfold registerTask
  split
  · rfl
  · unfold queueTask enqueue
    simp only
    split
    · rfl
    · split
      · rfl
      · split
        · rfl
        · exact files_modifyContext _ _ _

theorem files_pull (h : Host) (id : ContextId) : (h.pull id).1.files = h.files := by
  unfold pull
  split
  · rfl
  · unfold unqueueTask dequeue
    simp only
    split
    · rfl
    · split
      · rfl
      · exact files_modifyContext _ _ _

/-- A call of a host does to its files what the call on files in it does, if there is one. -/
theorem files_serve (h : Host) (call : Host.Call) :
    (call.serve h).files = match call.file? with
      | some c => (h.files.serve c).1
      | none => h.files := by
  cases call with
  | request r =>
    cases r with
    | spawn d =>
      simp only [Call.serve, Request.serve, spawn, Call.file?]
      split <;> rfl
    | register id task => exact files_registerTask h id task
    | pull id => exact files_pull h id
    | signal id => exact files_modifyContext h id _
    | remove path => rfl
    | print line isError => rfl
    | advance d => rfl
    | drive => exact files_drive h
  | start op =>
    cases op with
    | timer delay => exact files_setTimeout h delay
    | read path => rfl
    | write path contents => rfl
    | fetch url => rfl
  | sleep delay => exact files_sleep h delay

/-- The history of a host's files is that of its store, for the calls that no fault has
rejected. -/
theorem fileEvents_eq (h : Host) (calls : List Host.Call) :
    ∃ cs, h.fileEvents calls = h.files.record cs
      ∧ (h.serveAll calls).files = h.files.serveAll cs := by
  induction calls generalizing h with
  | nil => exact ⟨[], rfl, rfl⟩
  | cons call rest ih =>
    obtain ⟨cs, events, files⟩ := ih (call.serve h)
    have served := files_serve h call
    have whole : (h.serveAll (call :: rest)).files = (call.serve h).files.serveAll cs := files
    rw [whole]
    simp only [fileEvents, events, fileEvent?]
    cases file : call.file? with
    | none =>
      simp only [file] at served
      rw [served]
      exact ⟨cs, rfl, rfl⟩
    | some c =>
      simp only [file] at served
      rw [served]
      by_cases rejected : h.rejects c
      · have still : (h.files.serve c).1 = h.files := by
          cases c with
          | read path => rfl
          | write path contents => cases rejected
          | remove path => cases rejected
        rw [still]
        simp only [rejected, if_true]
        exact ⟨cs, rfl, rfl⟩
      · refine ⟨c :: cs, ?_, rfl⟩
        simp [rejected, FileStore.record, answerFile_eq]

end Host

namespace FileStore

open HostPath

/-- **Files in memory are a map from segments to contents.** After any calls on an empty
store a read brings what the last change under the same segments has written; without such a
file it finds none, and a path that is not valid is refused. A write succeeds on every valid
path, and a removal where there is a file. What fails changes nothing, and calls on other
segments make no difference. So it is for the files of a host after any calls of it, except
that a read which a planned fault rejects fails, and changes nothing either; such reads do not
count. The text that joins segments tells them apart. -/
theorem memory_is_map :
    (∀ calls, (empty.serveAll calls).Remembers (empty.record calls))
    ∧ (∀ files c e, ((memory files).serve c).2 = .error e →
      ((memory files).serve c).1 = memory files)
    ∧ (∀ files c calls, (∀ d ∈ calls, FileCall.segments d ≠ c.segments) →
      ((memory files).serve c).1.record calls = (memory files).record calls)
    ∧ (∀ h : Host, h.files = empty → ∀ calls,
      (h.serveAll calls).files.Remembers (h.fileEvents calls)
        ∧ ∀ c, (h.serveAll calls).answerFile c = if (h.serveAll calls).rejects c
          then .error (.io c.path .injected) else ((h.serveAll calls).files.serve c).2)
    ∧ (∀ (h : Host) (path : String), (h.loadFile path).1
      = { h with faults := h.faults.takeFailingRead.2, completions := h.completions + 1 })
    ∧ ∀ p q, (HostPath.mk (segmentsOf p)).toText = (HostPath.mk (segmentsOf q)).toText
      ↔ segmentsOf p = segmentsOf q := by
  refine ⟨remembers_record, fun files c e => serve_memory_error,
    fun files c calls => record_apart files c, fun h blank calls => ⟨?_, fun c => ?_⟩,
    fun h path => rfl, fun p q => ?_⟩
  · obtain ⟨cs, events, files⟩ := Host.fileEvents_eq h calls
    rw [events, files, blank]
    exact remembers_record cs
  · exact Host.answerFile_eq _ c
  · exact toText_inj (fun name member => isSegment_of_mem member)
      fun name member => isSegment_of_mem member

/-- One file under several spellings, on a host that is to reject a read: the read that is
rejected does not count, a removal of another file fails, and the next read finds the file. -/
theorem memory_is_map_spellings :
    let h : Host := { Host.empty with faults := ⟨0, 1, 0, 0⟩ }
    let calls : List Host.Call := [.start (.write "/a//b" [104, 105]), .start (.read "a/b"),
      .request (.remove "c"), .start (.read "./a/b/")]
    h.files = empty ∧ (h.serveAll calls).files.Remembers (h.fileEvents calls)
      ∧ (h.fileEvents calls).map FileEvent.call
        = [.write "/a//b" [104, 105], .remove "c", .read "./a/b/"]
      ∧ (h.serveAll calls).files.read "a/./b" = .ok [104, 105]
      ∧ ((memory [(["a", "b"], [])]).serve (.remove "c")).1 = memory [(["a", "b"], [])]
      ∧ ((memory []).serve (.write "a/b" [1])).1.record [.read "a/c"]
        = (memory []).record [.read "a/c"] := by
  refine ⟨rfl, (memory_is_map.2.2.2.1 _ rfl _).1, by decide +kernel, by decide +kernel,
    memory_is_map.2.1 _ (.remove "c") (.notFound "c") (by decide +kernel),
    memory_is_map.2.2.1 [] (.write "a/b" [1]) [.read "a/c"] (by decide +kernel)⟩

end FileStore
end TaskHost
