/-
# Files in memory and in a directory tree

A store in a tree leaves directories behind that a store in memory does not have. As long as
no file is wanted where another one needs a directory, this makes no difference: the tree
shows a file where the memory has one, and directories only on the way to wanted files
(`FileStore.Shows`). Every call keeps this and is answered alike (`FileStore.Shows.serve`), so
two stores that are empty at first cannot be told apart (`FileStore.disk_eq_memory`).

Key definitions: `FileStore.Shows`, `FileStore.Apart`, `FileCall.WithinLimits`.
Key theorems: `FileStore.serve_disk`, `FileStore.Shows.serve`, `FileStore.Shows.record_eq`,
`FileStore.disk_eq_memory`.
-/
import TaskHost.Proofs.Trees

namespace TaskHost
namespace FileStore

open HostPath Disk

variable {root : Node} {c : FileCall}

/-- In a tree a call answers by the file at its segments, if nothing else is in the way, and
leaves there what it has to. -/
theorem serve_disk (valid : IsValid c.path) (fits : Fits c.segments) {there : Option Bytes}
    (here : look c.segments root = .ofContents there) (clear : Clear root c.segments.dropLast) :
    ∃ root', (disk root).serve c = (disk root', c.answer there)
      ∧ Updates root root' c.segments (c.leaves there) := by
  have resolved := resolve_of_valid valid
  have named : c.segments ≠ [] := valid.1
  cases c with
  | read path =>
    have asked := read_eq fits root
    rw [here] at asked
    refine ⟨root, ?_, .still here⟩
    simp only [FileCall.segments, FileCall.path] at asked resolved
    simp only [serve, read, resolved, bind, Except.bind, asked, FileCall.answer]
    cases there <;> rfl
  | write path contents =>
    have notDir : look (FileCall.write path contents).segments root ≠ .directory := by
      rw [here]
      cases there <;> simp [Sight.ofContents]
    obtain ⟨root', written, updates⟩ := updates_write fits named clear notDir contents
    refine ⟨root', ?_, updates⟩
    simp only [FileCall.segments, FileCall.path] at written resolved
    simp only [serve, write, resolved, written]
    rfl
  | remove path =>
    cases there with
    | none =>
      have refused := remove_nothing fits named here
      refine ⟨root, ?_, .still here⟩
      simp only [FileCall.segments, FileCall.path] at refused resolved
      simp only [serve, remove, resolved, refused]
      rfl
    | some contents =>
      obtain ⟨root', removed, updates⟩ := updates_remove fits named here
      refine ⟨root', ?_, updates⟩
      simp only [FileCall.segments, FileCall.path] at removed resolved
      simp only [serve, remove, resolved, removed]
      rfl

/-! ### Memory and tree -/

/-- Whether a tree shows the files in a memory: the same files, all of them wanted, and other
directories than the root only on the way to wanted files. -/
structure Shows (files : List (List String × Bytes)) (wanted : List (List String))
    (root : Node) : Prop where
  file : ∀ q contents, look q root = .file contents ↔ files.lookup q = some contents
  directory : ∀ q, look q root = .directory → q = [] ∨ ∃ s ∈ wanted, q <+: s ∧ q ≠ s
  wanted : ∀ q contents, files.lookup q = some contents → q ∈ wanted

/-- No place is on the way to another. -/
def Apart (wanted : List (List String)) : Prop :=
  ∀ s ∈ wanted, ∀ t ∈ wanted, s <+: t → s = t

namespace Shows

variable {files : List (List String × Bytes)} {wanted : List (List String)} {s : List String}

/-- At a wanted place the file in memory is seen. -/
theorem look_eq (shows : Shows files wanted root) (apart : Apart wanted) (member : s ∈ wanted)
    (named : s ≠ []) : look s root = .ofContents (files.lookup s) := by
  cases seen : look s root with
  | file contents => rw [(shows.file s contents).mp seen]; rfl
  | nothing =>
    cases stored : files.lookup s with
    | none => rfl
    | some contents => rw [(shows.file s contents).mpr stored] at seen; cases seen
  | directory =>
    rcases shows.directory s seen with none | ⟨t, wanted, shorter, other⟩
    · exact absurd none named
    · exact absurd (apart s member t wanted shorter) other
  | belowFile =>
    obtain ⟨q, contents, shorter, other, file⟩ := exists_file_of_belowFile seen
    have wanted := shows.wanted q contents ((shows.file q contents).mp file)
    exact absurd (apart q wanted s member shorter) other

/-- No file is on the way to a wanted place. -/
theorem clear (shows : Shows files wanted root) (apart : Apart wanted) (member : s ∈ wanted)
    (named : s ≠ []) : Clear root s.dropLast := by
  have stop {q : List String} {contents : Bytes} (onTheWay : q <+: s.dropLast) :
      look q root ≠ .file contents := by
    intro file
    have wanted := shows.wanted q contents ((shows.file q contents).mp file)
    have same := apart q wanted s member (onTheWay.trans (List.dropLast_prefix s))
    have bound := onTheWay.length_le
    have some := List.length_pos_iff.mpr named
    rw [same, List.length_dropLast] at bound
    omega
  intro q onTheWay
  cases seen : look q root with
  | nothing => exact .inl rfl
  | directory => exact .inr rfl
  | file contents => exact absurd seen (stop onTheWay)
  | belowFile =>
    obtain ⟨r, contents, shorter, -, file⟩ := exists_file_of_belowFile seen
    exact absurd file (stop (shorter.trans onTheWay))

/-- A call is answered alike, and the tree goes on to show the files in memory. -/
theorem serve (shows : Shows files wanted root) (apart : Apart wanted) (valid : IsValid c.path)
    (member : c.segments ∈ wanted) (fits : Fits c.segments) :
    ∃ answer files' root', (memory files).serve c = (memory files', answer)
      ∧ (disk root).serve c = (disk root', answer) ∧ Shows files' wanted root' := by
  obtain ⟨files', stored, found⟩ := serve_memory files valid
  obtain ⟨root', shown, updates⟩ := serve_disk valid fits
    (shows.look_eq apart member valid.1) (shows.clear apart member valid.1)
  refine ⟨_, files', root', stored, shown, fun q contents => ?_, fun q seen => ?_,
    fun q contents held => ?_⟩
  · rw [updates.file, found]
    split
    · rfl
    · exact shows.file q contents
  · rcases updates.directory q seen with before | ⟨onTheWay, other⟩
    · exact shows.directory q before
    · exact .inr ⟨c.segments, member, onTheWay, other⟩
  · rw [found] at held
    split at held
    · next same => exact same ▸ member
    · exact shows.wanted q contents held

/-- So it is for calls one after the other, and for paths that are refused. -/
theorem record_eq (shows : Shows files wanted root) (apart : Apart wanted)
    {calls : List FileCall}
    (ready : ∀ c ∈ calls, IsValid c.path → c.segments ∈ wanted ∧ Fits c.segments) :
    (disk root).record calls = (memory files).record calls := by
  induction calls generalizing files root with
  | nil => rfl
  | cons c rest ih =>
    have later := fun d member => ready d (List.mem_cons_of_mem c member)
    by_cases valid : IsValid c.path
    · obtain ⟨member, fits⟩ := ready c List.mem_cons_self valid
      obtain ⟨answer, files', root', stored, shown, shows'⟩ := shows.serve apart valid member fits
      simp only [record, stored, shown, ih shows' later]
    · simp only [record, serve_of_invalid _ valid, ih shows later]

end Shows

theorem shows_empty (wanted : List (List String)) : Shows [] wanted Node.empty := by
  refine ⟨fun q contents => ?_, fun q seen => ?_, nofun⟩
  · rw [look_empty]
    split <;> simp
  · rw [look_empty] at seen
    split at seen
    · next root => exact .inl root
    · cases seen

end FileStore

/-- A call whose path is free of NUL and within the limits of names and paths. -/
structure FileCall.WithinLimits (c : FileCall) : Prop where
  noNul : '\x00' ∉ c.path.toList
  names : ∀ name ∈ c.segments, name.utf8ByteSize ≤ Disk.nameLimit
  size : Disk.pathSize c.segments < Disk.pathLimit

instance (c : FileCall) : Decidable c.WithinLimits :=
  decidable_of_iff ('\x00' ∉ c.path.toList
      ∧ (∀ name ∈ c.segments, name.utf8ByteSize ≤ Disk.nameLimit)
      ∧ Disk.pathSize c.segments < Disk.pathLimit)
    ⟨fun ⟨noNul, names, size⟩ => ⟨noNul, names, size⟩,
      fun ⟨noNul, names, size⟩ => ⟨noNul, names, size⟩⟩

namespace FileStore

open HostPath

/-- **Memory and tree answer alike.** For calls within the limits of names and paths, no valid
path of which leads below another one, a store that is empty at first gives the same answers,
in memory and in a directory tree. -/
theorem disk_eq_memory (calls : List FileCall) (limits : ∀ c ∈ calls, c.WithinLimits)
    (apart : ∀ c ∈ calls, ∀ d ∈ calls, IsValid c.path → IsValid d.path →
      c.segments <+: d.segments → c.segments = d.segments) :
    emptyDisk.record calls = empty.record calls := by
  let wanted := (calls.filter fun c => IsValid c.path).map FileCall.segments
  have wants {s : List String} (member : s ∈ wanted) :
      ∃ c ∈ calls, IsValid c.path ∧ c.segments = s := by
    obtain ⟨c, kept, rfl⟩ := List.mem_map.mp member
    obtain ⟨listed, valid⟩ := List.mem_filter.mp kept
    exact ⟨c, listed, of_decide_eq_true valid, rfl⟩
  refine (shows_empty wanted).record_eq (fun s hs t ht onTheWay => ?_)
    fun c member valid => ⟨?_, ?_⟩
  · obtain ⟨c, hc, validC, rfl⟩ := wants hs
    obtain ⟨d, hd, validD, rfl⟩ := wants ht
    exact apart c hc d hd validC validD onTheWay
  · exact List.mem_map_of_mem (List.mem_filter.mpr ⟨member, decide_eq_true valid⟩)
  · have within := limits c member
    refine ⟨within.names, fun name listed nul => within.noNul ?_, within.size⟩
    exact toList_subset_of_mem listed nul

/-- A file is removed and its directories stay, another one is put beside it, a path leads
upwards and one leads nowhere. -/
theorem disk_eq_memory_leftover :
    let calls : List FileCall := [.write "a/b/c" [1], .read "./a/b//c", .remove "/a/b/c",
      .read "a/b/c", .remove "a/b/c", .write "a/b/d" [2], .read "a/../d", .write "." [3],
      .read "never/written", .read "a/b/d"]
    emptyDisk.record calls = empty.record calls
      ∧ (empty.record calls).map FileEvent.answer = [.ok none, .ok (some [1]), .ok none,
        .error (.notFound "a/b/c"), .error (.notFound "a/b/c"), .ok none,
        .error (.io "a/../d" .escapesRoot), .error (.io "." .emptyPath),
        .error (.notFound "never/written"), .ok (some [2])] :=
  ⟨disk_eq_memory _ (by decide +kernel) (by decide +kernel), by decide +kernel⟩

/-- Below a file only the memory takes another one. -/
example : let calls : List FileCall := [.write "a" [1], .write "a/b" [2]]
    (empty.record calls).map FileEvent.answer = [.ok none, .ok none]
      ∧ (emptyDisk.record calls).map FileEvent.answer
        = [.ok none, .error (.io "a/b" (.os .fileExists))] := by
  decide +kernel

end FileStore
end TaskHost
