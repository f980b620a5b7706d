/-
# What a failed write leaves

A write into a directory tree makes the directories on its way before it puts the file, and if
the file cannot be put these stay. A tree that has more directories than another one
(`Disk.Beside`) answers every call alike that makes no use of them (`FileStore.record_beside`).
So a failed write changes no file, and is seen by calls on a directory that it has left, or on
a name below that is too long, and by no others (`FileStore.failed_write_leaves_dirs`). In
memory a failed write leaves nothing.

Key definitions: `Disk.Beside`, `Disk.Skirts`, `FileCall.Avoids`, `FileStore.NewDir`,
`FileStore.OnlyDirs`.
Key theorems: `Disk.Beside.write`, `Disk.Beside.remove`, `FileStore.record_beside`,
`FileStore.failed_write_leaves_dirs`.
-/
import TaskHost.Proofs.TreeWrites

namespace TaskHost
namespace Disk

variable {root : Node} {path : List String}

/-! ### Trees with more directories -/

/-- Whether a tree shows what another one shows, but for directories at some places where the
other one has nothing, or a directory too. -/
structure Beside (left : List String → Prop) (root root' : Node) : Prop where
  rooted : look [] root = .directory
  more : ∀ q, left q →
    look q root' = .directory ∧ (look q root = .nothing ∨ look q root = .directory)
  same : ∀ q, ¬ left q → look q root' = look q root

/-- Whether a path leads to none of some places, and no name that is too long follows one. -/
structure Skirts (left : List String → Prop) (path : List String) : Prop where
  elsewhere : ¬ left path
  names : ∀ i (h : i < path.length), left (path.take i) → path[i].utf8ByteSize ≤ nameLimit

instance (left : List String → Prop) [DecidablePred left] (path : List String) :
    Decidable (Skirts left path) :=
  decidable_of_iff (¬ left path
      ∧ ∀ i (h : i < path.length), left (path.take i) → path[i].utf8ByteSize ≤ nameLimit)
    ⟨fun ⟨elsewhere, names⟩ => ⟨elsewhere, names⟩, fun ⟨elsewhere, names⟩ => ⟨elsewhere, names⟩⟩

namespace Beside

variable {left : List String → Prop} {root' : Node}

theorem look_eq_file (beside : Beside left root root') (q : List String) (contents : Bytes) :
    look q root' = .file contents ↔ look q root = .file contents := by
  by_cases more : left q
  · obtain ⟨there, free | dir⟩ := beside.more q more
    · simp [there, free]
    · simp [there, dir]
  · rw [beside.same q more]

theorem clear_iff (beside : Beside left root root') : Clear root' path ↔ Clear root path := by
  refine forall_congr' fun q => imp_congr_right fun _ => ?_
  by_cases more : left q
  · obtain ⟨there, free⟩ := beside.more q more
    exact iff_of_true (.inr there) free
  · rw [beside.same q more]

theorem stopsAt_iff (beside : Beside left root root') {way : List String} {name : String} :
    StopsAt root' way name ↔ StopsAt root way name := by
  have stop : (∃ contents, look (way ++ [name]) root' = .file contents)
      ↔ ∃ contents, look (way ++ [name]) root = .file contents :=
    exists_congr fun contents => beside.look_eq_file _ contents
  constructor
  · rintro ⟨short, clear, stopped⟩
    exact ⟨short, beside.clear_iff.mp clear, stopped.imp_right stop.mp⟩
  · rintro ⟨short, clear, stopped⟩
    exact ⟨short, beside.clear_iff.mpr clear, stopped.imp_right stop.mpr⟩

/-- What is seen anew in both trees, and is a directory at the places in question, leaves one
beside the other. -/
theorem update (beside : Beside left root root') {next next' : Node}
    {anew : List String → Option Sight} (seen : ∀ q, look q next = (anew q).getD (look q root))
    (seen' : ∀ q, look q next' = (anew q).getD (look q root'))
    (kept : ∀ q, q = [] ∨ left q → anew q = none ∨ anew q = some .directory) :
    Beside left next next' := by
  refine ⟨?_, fun q more => ?_, fun q elsewhere => ?_⟩
  · rcases kept [] (.inl rfl) with still | made
    · rw [seen, still, Option.getD_none, beside.rooted]
    · rw [seen, made, Option.getD_some]
  · rcases kept q (.inr more) with still | made
    · rw [seen, seen', still, Option.getD_none, Option.getD_none]
      exact beside.more q more
    · rw [seen, seen', made]
      exact ⟨rfl, .inr rfl⟩
  · rw [seen, seen', beside.same q elsewhere]

/-- A write goes in the same way. -/
theorem writes (beside : Beside left root root') (elsewhere : ¬ left path) {contents : Bytes}
    {result : Except Failure Unit} {anew : List String → Option Sight}
    (writes : Writes root path contents result anew) :
    Writes root' path contents result anew := by
  have same := beside.same path elsewhere
  cases writes with
  | refused check => exact .refused check
  | stopped check split stops => exact .stopped check split (beside.stopsAt_iff.mpr stops)
  | unfit short clear parent check =>
    exact .unfit short (beside.clear_iff.mpr clear) parent check
  | long short clear parent check names =>
    exact .long short (beside.clear_iff.mpr clear) parent check names
  | onDirectory fits clear there =>
    exact .onDirectory fits (beside.clear_iff.mpr clear) (same.trans there)
  | put fits clear free =>
    exact .put fits (beside.clear_iff.mpr clear) (by rwa [same])

/-- Elsewhere, what is above one of the places is a directory in both trees. -/
theorem directory_above (beside : Beside left root root') (named : path ≠ [])
    (elsewhere : ¬ left path) {q : List String} (more : q = [] ∨ left q) (below : path <+: q) :
    look path root = .directory := by
  rcases more with rfl | more
  · exact absurd (List.prefix_nil.mp below) named
  · have there := look_of_prefix (beside.more q more).1 below
    rwa [beside.same path elsewhere] at there

/-- No write takes a directory away. -/
theorem kept_of_writes (beside : Beside left root root') (named : path ≠ [])
    (elsewhere : ¬ left path) {contents : Bytes} {result : Except Failure Unit}
    {anew : List String → Option Sight} (writes : Writes root path contents result anew)
    {q : List String} (more : q = [] ∨ left q) : anew q = none ∨ anew q = some .directory := by
  have made (way : List String) :
      madeWay way q = none ∨ madeWay way q = some .directory := by
    unfold madeWay
    split
    · exact .inr rfl
    · exact .inl rfl
  cases writes with
  | refused => exact .inl rfl
  | stopped => exact made _
  | unfit => exact made _
  | long => exact made _
  | onDirectory => exact made _
  | put fits clear free =>
    rw [putFile, if_neg fun below => free (beside.directory_above named elsewhere more below)]
    exact made _

theorem write (beside : Beside left root root') (named : path ≠ []) (elsewhere : ¬ left path)
    (contents : Bytes) :
    ∃ result next next', Disk.write root path contents = (next, result)
      ∧ Disk.write root' path contents = (next', result) ∧ Beside left next next' := by
  obtain ⟨result, anew, writes⟩ := exists_writes beside.rooted path contents
  obtain ⟨next, written, seen⟩ := writes.write_eq named
  obtain ⟨next', written', seen'⟩ := (beside.writes elsewhere writes).write_eq named
  exact ⟨result, next, next', written, written',
    beside.update seen seen' fun q => beside.kept_of_writes named elsewhere writes⟩

/-- A path with a name that is too long is refused alike. -/
theorem stuck (beside : Beside left root root') (skirts : Skirts left path)
    (long : ¬ ShortNames path) :
    ∃ e, (find path root = .error e ∧ find path root' = .error e)
      ∧ ∀ act, change act path root = .error e ∧ change act path root' = .error e := by
  obtain ⟨way, name, rest, rfl, short, tooLong⟩ := exists_long long
  have elsewhere : ¬ left way := by
    intro more
    have fits := skirts.names way.length (by simp) (by simpa using more)
    rw [List.getElem_append_right (Nat.le_refl _)] at fits
    simp only [Nat.sub_self, List.getElem_cons_zero] at fits
    omega
  have same := beside.same way elsewhere
  refine ⟨_, ⟨find_long short tooLong root, ?_⟩,
    fun act => ⟨change_long act short tooLong root, ?_⟩⟩
  · rw [find_long short tooLong root', same]
  · rw [change_long act short tooLong root', same]

theorem read_eq (beside : Beside left root root') (skirts : Skirts left path) :
    read root' path = read root path := by
  cases check : checkPath path with
  | error f => rw [read, read, check]; rfl
  | ok =>
    by_cases short : ShortNames path
    · have fits := fits_of_checkPath short check
      rw [Disk.read_eq fits, Disk.read_eq fits, beside.same path skirts.elsewhere]
    · obtain ⟨e, ⟨found, found'⟩, -⟩ := beside.stuck skirts short
      rw [read, read, found, found']

/-- A removal takes no directory away. -/
theorem removed (beside : Beside left root root') (named : path ≠ []) (elsewhere : ¬ left path)
    {contents : Bytes} (file : look path root = .file contents) {next next' : Node}
    (seen : ∀ q, look q next = if path <+: q then .nothing else look q root)
    (seen' : ∀ q, look q next' = if path <+: q then .nothing else look q root') :
    Beside left next next' := by
  have gone (q : List String) :
      look q next
        = (if path <+: q then some .nothing else none : Option Sight).getD (look q root) := by
    rw [seen]
    split <;> rfl
  have gone' (q : List String) :
      look q next'
        = (if path <+: q then some .nothing else none : Option Sight).getD (look q root') := by
    rw [seen']
    split <;> rfl
  refine beside.update gone gone' fun q more => .inl (if_neg fun below => ?_)
  have there := beside.directory_above named elsewhere more below
  rw [file] at there
  cases there

/-- A removal goes in the same way. -/
theorem remove (beside : Beside left root root') (named : path ≠ []) (skirts : Skirts left path) :
    (∃ f, Disk.remove root path = .error f ∧ Disk.remove root' path = .error f)
      ∨ ∃ next next', Disk.remove root path = .ok next ∧ Disk.remove root' path = .ok next'
        ∧ Beside left next next' := by
  cases check : checkPath path with
  | error f => exact .inl ⟨f, by rw [Disk.remove, check]; rfl, by rw [Disk.remove, check]; rfl⟩
  | ok =>
    by_cases short : ShortNames path
    · have fits := fits_of_checkPath short check
      have here := exists_removed fits named root
      have there := exists_removed fits named root'
      rw [beside.same path skirts.elsewhere] at there
      cases seen : look path root with
      | nothing => rw [seen] at here there; exact .inl ⟨_, here, there⟩
      | directory => rw [seen] at here there; exact .inl ⟨_, here, there⟩
      | belowFile => rw [seen] at here there; exact .inl ⟨_, here, there⟩
      | file contents =>
        rw [seen] at here there
        obtain ⟨next, gone, seenNext⟩ := here
        obtain ⟨next', gone', seenNext'⟩ := there
        exact .inr ⟨next, next', gone, gone',
          beside.removed named skirts.elsewhere seen seenNext seenNext'⟩
    · obtain ⟨e, -, failed⟩ := beside.stuck skirts short
      refine .inl ⟨.os e, ?_, ?_⟩
      · rw [Disk.remove, check]
        simp only [bind, Except.bind, (failed drop).1]
        rfl
      · rw [Disk.remove, check]
        simp only [bind, Except.bind, (failed drop).2]
        rfl

end Beside

end Disk

namespace FileCall

/-- Whether a call makes no use of directories at some places: its path leads to none of them,
and unless the call writes, no name that is too long follows one. -/
def Avoids (left : List String → Prop) : FileCall → Prop
  | .read path => Disk.Skirts left (HostPath.segmentsOf path)
  | .write path _ => ¬ left (HostPath.segmentsOf path)
  | .remove path => Disk.Skirts left (HostPath.segmentsOf path)

instance (left : List String → Prop) [DecidablePred left] : DecidablePred (Avoids left)
  | .read path => inferInstanceAs (Decidable (Disk.Skirts left (HostPath.segmentsOf path)))
  | .write path _ => inferInstanceAs (Decidable (¬ left (HostPath.segmentsOf path)))
  | .remove path => inferInstanceAs (Decidable (Disk.Skirts left (HostPath.segmentsOf path)))

end FileCall

namespace FileStore

open HostPath Disk

variable {root root' : Node} {left : List String → Prop}

/-- A call that avoids the places in question is answered alike. -/
theorem serve_beside (beside : Beside left root root') {c : FileCall} (avoids : c.Avoids left) :
    ∃ answer next next', (disk root).serve c = (disk next, answer)
      ∧ (disk root').serve c = (disk next', answer) ∧ Beside left next next' := by
  by_cases valid : IsValid c.path
  · have resolved := resolve_of_valid valid
    cases c with
    | read path =>
      rw [FileCall.path] at resolved
      refine ⟨_, root, root', rfl, ?_, beside⟩
      simp only [serve, read, resolved, bind, Except.bind, beside.read_eq avoids]
    | write path contents =>
      rw [FileCall.path] at resolved
      obtain ⟨result, next, next', written, written', beside'⟩ :=
        beside.write valid.1 avoids contents
      rw [FileCall.path] at written written'
      refine ⟨(result.mapError (diskError path)).map fun () => none, next, next', ?_, ?_, beside'⟩
      · simp only [serve, write, resolved, written]
      · simp only [serve, write, resolved, written']
    | remove path =>
      rw [FileCall.path] at resolved
      rcases beside.remove valid.1 avoids with
        ⟨f, failed, failed'⟩ | ⟨next, next', removed, removed', beside'⟩
      · rw [FileCall.path] at failed failed'
        refine ⟨.error (diskError path f), root, root', ?_, ?_, beside⟩
        · simp only [serve, remove, resolved, failed]
          rfl
        · simp only [serve, remove, resolved, failed']
          rfl
      · rw [FileCall.path] at removed removed'
        refine ⟨.ok none, next, next', ?_, ?_, beside'⟩
        · simp only [serve, remove, resolved, removed]
          rfl
        · simp only [serve, remove, resolved, removed']
          rfl
  · exact ⟨_, root, root', serve_of_invalid _ valid, serve_of_invalid _ valid, beside⟩

/-- So it is for calls one after the other. -/
theorem record_beside (beside : Beside left root root') {calls : List FileCall}
    (avoid : ∀ c ∈ calls, c.Avoids left) :
    (disk root').record calls = (disk root).record calls := by
  induction calls generalizing root root' with
  | nil => rfl
  | cons c rest ih =>
    obtain ⟨answer, next, next', served, served', beside'⟩ :=
      serve_beside beside (avoid c List.mem_cons_self)
    have later := ih beside' fun d member => avoid d (List.mem_cons_of_mem c member)
    simp only [record, served, served', later]

end FileStore

/-- The contents of a file that is seen. -/
def Disk.Sight.contents? : Disk.Sight → Option Bytes
  | .file contents => some contents
  | _ => none

theorem Disk.Sight.contents?_eq_some {sight : Disk.Sight} {contents : Bytes} :
    sight.contents? = some contents ↔ sight = .file contents := by
  cases sight <;> simp [contents?]

/-! ### What a failed write leaves -/

namespace FileStore

open HostPath Disk

variable {root root' : Node} {left : List String → Prop}

/-- The contents of the file at segments, if there is one. -/
def file? (store : FileStore) (q : List String) : Option Bytes :=
  match store with
  | .memory files => files.lookup q
  | .disk root => (look q root).contents?

/-- Whether a store has a directory where another one has nothing. -/
def NewDir (before after : FileStore) (q : List String) : Prop :=
  match before, after with
  | .disk root, .disk root' => look q root = .nothing ∧ look q root' = .directory
  | _, _ => False

instance (before after : FileStore) : DecidablePred (NewDir before after) := fun q =>
  match before, after with
  | .disk root, .disk root' =>
    inferInstanceAs (Decidable (look q root = .nothing ∧ look q root' = .directory))
  | .memory _, _ => inferInstanceAs (Decidable False)
  | .disk _, .memory _ => inferInstanceAs (Decidable False)

/-- Whether a store, as a call on a path has left it, has no more than new directories on the
way to that path: the files are the same, calls that avoid the new directories are answered
alike, and only if there is one is any call answered otherwise. -/
structure OnlyDirs (path : String) (before after : FileStore) : Prop where
  files : ∀ q, after.file? q = before.file? q
  onTheWay : ∀ q, NewDir before after q → q ≠ [] ∧ q <+: segmentsOf path ∧ q ≠ segmentsOf path
  record : ∀ calls, (∀ c ∈ calls, c.Avoids (NewDir before after)) →
    after.record calls = before.record calls
  told : (∃ calls, after.record calls ≠ before.record calls) ↔ ∃ q, NewDir before after q

theorem not_newDir (store : FileStore) (q : List String) : ¬ NewDir store store q := by
  cases store with
  | memory files => exact id
  | disk root =>
    rintro ⟨free, there⟩
    rw [free] at there
    cases there

theorem OnlyDirs.refl (path : String) (store : FileStore) : OnlyDirs path store store :=
  ⟨fun _ => rfl, fun q new => absurd new (not_newDir store q), fun _ _ => rfl,
    fun ⟨_, other⟩ => absurd rfl other, fun ⟨q, new⟩ => absurd new (not_newDir store q)⟩

theorem beside_of_failed {segments : List String} (rooted : look [] root = .directory)
    (named : segments ≠ []) {contents : Bytes} {f : Disk.Failure}
    (failed : (Disk.write root segments contents).2 = .error f) :
    Beside (NewDir (disk root) (disk (Disk.write root segments contents).1)) root
      (Disk.write root segments contents).1 := by
  obtain ⟨way, -, -, clear, -, seen⟩ := write_failed rooted named failed
  refine ⟨rooted, fun q ⟨free, there⟩ => ⟨there, .inl free⟩, fun q old => ?_⟩
  rw [seen]
  split
  · next onTheWay =>
    rcases clear q onTheWay with free | there
    · exact absurd ⟨free, by rw [seen, if_pos onTheWay]⟩ old
    · exact there.symm
  · rfl

/-- A new directory lies on the way, at a path that calls take. -/
theorem newDir_facts {segments q : List String} (rooted : look [] root = .directory)
    (named : segments ≠ []) {contents : Bytes} {f : Disk.Failure}
    (failed : (Disk.write root segments contents).2 = .error f)
    (new : NewDir (disk root) (disk (Disk.write root segments contents).1) q) :
    q ≠ [] ∧ q <+: segments.dropLast ∧ Fits q := by
  obtain ⟨way, onTheWay, short, -, check, seen⟩ := write_failed rooted named failed
  obtain ⟨free, there⟩ := new
  have some : q ≠ [] := by
    rintro rfl
    rw [rooted] at free
    cases free
  have made : q <+: way := by
    by_contra beside
    rw [seen, if_neg beside, free] at there
    cases there
  have passed := check.resolve_left fun none => some (List.prefix_nil.mp (none ▸ made))
  have shorter := made.trans onTheWay
  exact ⟨some, shorter,
    fits_of_checkPath (short.of_prefix made) (checkPath_ancestor passed shorter)⟩

/-- A new directory is told by a read of it. -/
theorem read_newDir {path : String} (valid : IsValid path) (rooted : look [] root = .directory)
    {contents : Bytes} {f : Disk.Failure}
    (failed : (Disk.write root (segmentsOf path) contents).2 = .error f) {q : List String}
    (new : NewDir (disk root) (disk (Disk.write root (segmentsOf path) contents).1) q) :
    let text := (HostPath.mk q).toText
    (disk root).read text = .error (.notFound text)
      ∧ (disk (Disk.write root (segmentsOf path) contents).1).read text
        = .error (.io text (.os .isADirectory)) := by
  obtain ⟨some, shorter, fits⟩ := newDir_facts rooted valid.1 failed new
  obtain ⟨free, there⟩ := new
  have within : q ⊆ segmentsOf path := (shorter.trans (List.dropLast_prefix _)).subset
  have same : segmentsOf (HostPath.mk q).toText = q :=
    segmentsOf_toText fun name member => isSegment_of_mem (within member)
  have valid' : IsValid (HostPath.mk q).toText := by
    rw [IsValid, same]
    exact ⟨some, fun up => valid.2 (within up)⟩
  have resolved := resolve_of_valid valid'
  rw [same] at resolved
  have asked := Disk.read_eq fits root
  have asked' := Disk.read_eq fits (Disk.write root (segmentsOf path) contents).1
  rw [free] at asked
  rw [there] at asked'
  constructor
  · simp only [read, resolved, bind, Except.bind, asked]
    rfl
  · simp only [read, resolved, bind, Except.bind, asked']
    rfl

theorem file?_beside (beside : Beside left root root') (q : List String) :
    (disk root').file? q = (disk root).file? q := by
  refine Option.ext fun contents => ?_
  rw [file?, file?, Sight.contents?_eq_some, Sight.contents?_eq_some, beside.look_eq_file]

/-- A write into a tree that fails leaves no more than new directories. -/
theorem onlyDirs_of_failed {path : String} (valid : IsValid path)
    (rooted : look [] root = .directory) {contents : Bytes} {f : Disk.Failure}
    (failed : (Disk.write root (segmentsOf path) contents).2 = .error f) :
    OnlyDirs path (disk root) (disk (Disk.write root (segmentsOf path) contents).1) := by
  have beside := beside_of_failed rooted valid.1 failed
  have same (calls : List FileCall) (avoid : ∀ c ∈ calls, c.Avoids _) := record_beside beside avoid
  refine ⟨file?_beside beside, fun q new => ?_, same, fun ⟨calls, other⟩ => ?_, fun ⟨q, new⟩ => ?_⟩
  · obtain ⟨some, shorter, -⟩ := newDir_facts rooted valid.1 failed new
    refine ⟨some, shorter.trans (List.dropLast_prefix _), ?_⟩
    rintro rfl
    have bound := shorter.length_le
    have named := List.length_pos_iff.mpr some
    rw [List.length_dropLast] at bound
    omega
  · by_contra none
    have old := not_exists.mp none
    refine other (same calls fun c _ => ?_)
    cases c with
    | read path => exact ⟨old _, fun i h new => absurd new (old _)⟩
    | write path contents => exact old _
    | remove path => exact ⟨old _, fun i h new => absurd new (old _)⟩
  · obtain ⟨missing, there⟩ := read_newDir valid rooted failed new
    refine ⟨[.read (HostPath.mk q).toText], fun alike => ?_⟩
    simp only [record, serve, missing, there] at alike
    cases alike

/-- **A failed write leaves directories at most.** In memory it leaves nothing. On disk no file
changes, and each directory that is there anew lies on the way to the path. Calls that avoid
those directories are answered as if there had been no write, every sequence of calls if there
are none, and if there is one some sequence of calls is not. -/
theorem failed_write_leaves_dirs (store : FileStore) (path : String) (contents : Bytes)
    {e : HostError} (failed : (store.write path contents).2 = .error e) :
    OnlyDirs path store (store.write path contents).1
      ∧ ∀ files, store = .memory files → (store.write path contents).1 = store := by
  have still (same : (store.write path contents).1 = store) :
      OnlyDirs path store (store.write path contents).1
        ∧ ∀ files, store = .memory files → (store.write path contents).1 = store :=
    ⟨same.symm ▸ .refl path store, fun _ _ => same⟩
  by_cases valid : IsValid path
  · have resolved := resolve_of_valid valid
    cases store with
    | memory files =>
      rw [write, resolved] at failed
      cases failed
    | disk root =>
      have written : (disk root).write path contents
          = (disk (Disk.write root (segmentsOf path) contents).1,
            (Disk.write root (segmentsOf path) contents).2.mapError (diskError path)) := by
        rw [write, resolved]
      rw [written] at failed still ⊢
      cases root with
      | file held => exact still (by rw [write_inFile])
      | dir entries =>
        refine ⟨?_, fun files other => by cases other⟩
        cases result : (Disk.write (.dir entries) (segmentsOf path) contents).2 with
        | ok => rw [result] at failed; cases failed
        | error f => exact onlyDirs_of_failed valid rfl result
  · refine still ?_
    rw [write, resolve_of_invalid valid]

/-- The name of a second file is wrong, and its directory is left. The calls that follow pass
it, write into it and come to a file below it. -/
theorem failed_write_leaves_dirs_wrongName :
    let store := disk (.dir [("d", .dir [("f", .file [7])])])
    let after := (store.write "d/e/\x00" [1]).1
    let calls : List FileCall := [.read "d/f", .read "d/e/g", .write "d/e/g" [2],
      .read "/d/./e/g", .remove "d/f", .write "d/f/g" [3], .remove "d/e/g"]
    (store.write "d/e/\x00" [1]).2 = .error (.io "d/e/\x00" .nulByte)
      ∧ NewDir store after ["d", "e"] ∧ after.record calls = store.record calls := by
  have failed : ((disk (.dir [("d", .dir [("f", .file [7])])])).write "d/e/\x00" [1]).2
      = .error (.io "d/e/\x00" .nulByte) := by decide +kernel
  exact ⟨failed, by decide +kernel,
    (failed_write_leaves_dirs _ _ _ failed).1.record _ (by decide +kernel)⟩

/-- In an empty tree the directory that a failed write has left is told from nothing. -/
theorem failed_write_seen :
    (emptyDisk.write "a/\x00" [1]).2 = .error (.io "a/\x00" .nulByte)
      ∧ (emptyDisk.record [.read "a"]).map FileEvent.answer = [.error (.notFound "a")]
      ∧ ((emptyDisk.write "a/\x00" [1]).1.record [.read "a"]).map FileEvent.answer
        = [.error (.io "a" (.os .isADirectory))] := by
  decide +kernel

end FileStore
end TaskHost
