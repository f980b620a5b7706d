/-
# Directory trees as they are seen

A place in a directory tree is seen as nothing, a directory, a file, or a place below a file
(`Disk.Sight`, `Disk.look`). What a walk finds is what is seen (`Disk.find_eq`), and a change
below a directory is seen at its path and nowhere else (`Disk.change_inside`). So each of the
calls on a tree is told by what is seen before and after: reading (`Disk.read_eq`), making
directories (`Disk.makeDirs_eq`), writing (`Disk.write_eq`) and removing
(`Disk.remove_file`, `Disk.remove_nothing`). A call changes one file at most (`Disk.Updates`).

Key definitions: `Disk.Sight`, `Disk.look`, `Disk.Fits`, `Disk.Clear`, `Disk.Updates`.
Key theorems: `Disk.find_eq`, `Disk.change_inside`, `Disk.makeDirs_eq`, `Disk.write_eq`,
`Disk.remove_file`.
-/
import TaskHost.Proofs.Files

namespace TaskHost
namespace Disk

/-! ### What stands where -/

/-- How a place of a tree is seen. -/
inductive Sight where
  | nothing
  | directory
  | file (contents : Bytes)
  | belowFile
  deriving DecidableEq, Repr

/-- What is seen at a path. -/
def look : List String → Node → Sight
  | [], .file contents => .file contents
  | [], .dir _ => .directory
  | _ :: _, .file _ => .belowFile
  | name :: rest, .dir entries =>
    match entries.lookup name with
    | none => .nothing
    | some node => look rest node

/-- What is seen at a path from where there may be nothing. -/
def lookIn (path : List String) : Option Node → Sight
  | none => .nothing
  | some node => look path node

@[simp] theorem look_nil_dir (entries : List (String × Node)) :
    look [] (.dir entries) = .directory := rfl

@[simp] theorem look_nil_file (contents : Bytes) : look [] (.file contents) = .file contents := rfl

@[simp] theorem look_cons_file (name : String) (rest : List String) (contents : Bytes) :
    look (name :: rest) (.file contents) = .belowFile := rfl

@[simp] theorem look_cons_dir (name : String) (rest : List String)
    (entries : List (String × Node)) :
    look (name :: rest) (.dir entries) = lookIn rest (entries.lookup name) := by
  rw [look]
  cases entries.lookup name <;> rfl

@[simp] theorem lookIn_none (path : List String) : lookIn path none = .nothing := rfl

@[simp] theorem lookIn_some (path : List String) (node : Node) :
    lookIn path (some node) = look path node := rfl

theorem look_empty (path : List String) :
    look path .empty = if path = [] then .directory else .nothing := by
  cases path <;> rfl

/-- Below a file there is no place, and below nothing there is nothing. -/
theorem look_append (path more : List String) (root : Node) :
    match look path root with
    | .nothing => look (path ++ more) root = .nothing
    | .file _ => more ≠ [] → look (path ++ more) root = .belowFile
    | .belowFile => look (path ++ more) root = .belowFile
    | .directory => True := by
  induction path generalizing root with
  | nil =>
    cases root with
    | file contents => cases more <;> simp
    | dir entries => trivial
  | cons name rest ih =>
    cases root with
    | file contents => rfl
    | dir entries =>
      rw [List.cons_append, look_cons_dir, look_cons_dir]
      cases entries.lookup name with
      | none => rfl
      | some node => exact ih node

theorem look_of_prefix {path q : List String} {root : Node} (there : look path root = .directory)
    (onTheWay : q <+: path) : look q root = .directory := by
  obtain ⟨more, rfl⟩ := onTheWay
  have seen := look_append q more root
  cases here : look q root with
  | directory => rfl
  | nothing => simp [here, there] at seen
  | belowFile => simp [here, there] at seen
  | file contents =>
    cases more with
    | nil => rw [List.append_nil, here] at there; cases there
    | cons name rest => simp [here, there] at seen

/-- A place below a file has that file on its way. -/
theorem exists_file_of_belowFile {path : List String} {root : Node}
    (below : look path root = .belowFile) :
    ∃ q contents, q <+: path ∧ q ≠ path ∧ look q root = .file contents := by
  induction path generalizing root with
  | nil => cases root <;> cases below
  | cons name rest ih =>
    cases root with
    | file contents => exact ⟨[], contents, List.nil_prefix, nofun, rfl⟩
    | dir entries =>
      rw [look_cons_dir] at below
      cases there : entries.lookup name with
      | none => rw [there] at below; cases below
      | some node =>
        rw [there] at below
        obtain ⟨q, contents, shorter, other, seen⟩ := ih below
        refine ⟨name :: q, contents, (List.prefix_cons_inj name).mpr shorter, ?_, ?_⟩
        · exact fun same => other (List.cons.inj same).2
        · rw [look_cons_dir, there, lookIn_some, seen]

/-! ### Names and paths that calls take -/

/-- The names of a path are not too long. -/
def ShortNames (path : List String) : Prop := ∀ name ∈ path, name.utf8ByteSize ≤ nameLimit

/-- A path that calls take: no NUL in it, and neither a name nor the whole too long. -/
structure Fits (path : List String) : Prop where
  names : ShortNames path
  noNul : ∀ name ∈ path, '\x00' ∉ name.toList
  size : pathSize path < pathLimit

theorem entry?_eq {entries : List (String × Node)} {name : String}
    (short : name.utf8ByteSize ≤ nameLimit) : entry? entries name = .ok (entries.lookup name) :=
  if_neg (Nat.not_lt.mpr short)

theorem ShortNames.tail {name : String} {rest : List String} (short : ShortNames (name :: rest)) :
    name.utf8ByteSize ≤ nameLimit ∧ ShortNames rest :=
  ⟨short name List.mem_cons_self, fun n member => short n (List.mem_cons_of_mem name member)⟩

theorem ShortNames.of_prefix {q path : List String} (short : ShortNames path) (h : q <+: path) :
    ShortNames q := fun name member => short name (h.subset member)

theorem pathSize_dropLast (path : List String) : pathSize path.dropLast ≤ pathSize path := by
  have start (names : List String) (n : Nat) :
      names.foldr (fun name n => name.utf8ByteSize + n) n
        = names.foldr (fun name n => name.utf8ByteSize + n) 0 + n := by
    induction names with
    | nil => simp
    | cons name rest ih => rw [List.foldr_cons, ih, List.foldr_cons, Nat.add_assoc]
  rcases List.eq_nil_or_concat' path with rfl | ⟨names, last, rfl⟩
  · exact Nat.le_refl _
  · rw [List.dropLast_concat, pathSize, pathSize, List.foldr_append, start, List.foldr_cons,
      List.foldr_nil, start names (_ + _), List.length_append, List.length_singleton]
    omega

namespace Fits

variable {path : List String}

theorem checkPath_eq (fits : Fits path) : checkPath path = .ok () := by
  have free : path.any (fun name => name.toList.contains '\x00') = false := by
    rw [List.any_eq_false]
    intro name member nul
    exact fits.noNul name member (by simpa using nul)
  rw [checkPath, free, if_neg Bool.false_ne_true, if_neg (Nat.not_le.mpr fits.size)]

theorem dropLast (fits : Fits path) : Fits path.dropLast := by
  have kept := List.dropLast_subset path
  exact ⟨fun name member => fits.names name (kept member),
    fun name member => fits.noNul name (kept member),
    Nat.lt_of_le_of_lt (pathSize_dropLast path) fits.size⟩

end Fits

/-! ### Finding and changing -/

/-- What a walk finds is what is seen, and it is stopped where nothing is. -/
theorem find_eq {path : List String} (short : ShortNames path) (root : Node) :
    match look path root with
    | .nothing => find path root = .error .noEntry
    | .belowFile => find path root = .error .notADirectory
    | .directory => ∃ entries, find path root = .ok (.dir entries)
    | .file contents => find path root = .ok (.file contents) := by
  induction path generalizing root with
  | nil =>
    cases root with
    | file contents => rfl
    | dir entries => exact ⟨entries, rfl⟩
  | cons name rest ih =>
    obtain ⟨nameShort, restShort⟩ := short.tail
    cases root with
    | file contents => rfl
    | dir entries =>
      simp only [look_cons_dir, find, entry?_eq nameShort, bind, Except.bind]
      cases entries.lookup name with
      | none => rfl
      | some node => exact ih restShort node

theorem lookup_setEntry (entries : List (String × Node)) (name k : String) (node : Node) :
    (setEntry entries name node).lookup k
      = if k = name then some node else entries.lookup k := by
  rw [setEntry, List.lookup_cons, lookup_filter_ne]
  by_cases same : k = name
  · simp [same]
  · rw [beq_false_of_ne same, if_neg same, if_neg same]

theorem lookup_dropEntry (entries : List (String × Node)) (name k : String) :
    (dropEntry entries name).lookup k = if k = name then none else entries.lookup k :=
  lookup_filter_ne entries name k

theorem look_update {entries entries' : List (String × Node)} {name : String} {new : Option Node}
    (updated : ∀ k, entries'.lookup k = if k = name then new else entries.lookup k)
    (k : String) (rest : List String) :
    look (k :: rest) (.dir entries')
      = if k = name then lookIn rest new else look (k :: rest) (.dir entries) := by
  rw [look_cons_dir, look_cons_dir, updated]
  split <;> rfl

variable {path : List String} {root : Node}

/-- Nothing is changed where the directory is missing. -/
theorem change_missing (act : Option Node → Except OsError (Option Node))
    (short : ShortNames path) (missing : look path.dropLast root = .nothing) :
    change act path root = .error .noEntry := by
  induction path generalizing root with
  | nil => cases root <;> cases missing
  | cons name rest ih =>
    obtain ⟨nameShort, restShort⟩ := short.tail
    cases root with
    | file contents => cases rest <;> cases missing
    | dir entries =>
      cases rest with
      | nil => cases missing
      | cons next more =>
        rw [List.dropLast_cons_cons, look_cons_dir] at missing
        simp only [change, entry?_eq nameShort, bind, Except.bind]
        cases there : entries.lookup name with
        | none => rfl
        | some node =>
          rw [there] at missing
          simp only [ih restShort missing]

/-- A change in a directory is given what stands there under the last name of the path. What
it puts there is seen at the path and below it, and everything else is as before. -/
theorem change_inside (act : Option Node → Except OsError (Option Node)) (named : path ≠ [])
    (short : ShortNames path) (inside : look path.dropLast root = .directory) :
    ∃ there, lookIn [] there = look path root
      ∧ (∀ e, act there = .error e → change act path root = .error e)
      ∧ ∀ new, act there = .ok new → ∃ root', change act path root = .ok root'
        ∧ ∀ q, look q root'
          = if path <+: q then lookIn (q.drop path.length) new else look q root := by
  induction path generalizing root with
  | nil => exact absurd rfl named
  | cons name rest ih =>
    obtain ⟨nameShort, restShort⟩ := short.tail
    cases root with
    | file contents => cases rest <;> cases inside
    | dir entries =>
      cases rest with
      | nil =>
        refine ⟨entries.lookup name, ?_, fun e failed => ?_, fun new done => ?_⟩
        · rw [look_cons_dir]
        · simp only [change, entry?_eq nameShort, bind, Except.bind, failed]
        · obtain ⟨entries', changed, updated⟩ : ∃ entries',
              change act [name] (.dir entries) = .ok (.dir entries')
                ∧ ∀ k, entries'.lookup k = if k = name then new else entries.lookup k := by
            simp only [change, entry?_eq nameShort, bind, Except.bind, done]
            cases new with
            | none => exact ⟨_, rfl, fun k => lookup_dropEntry entries name k⟩
            | some node => exact ⟨_, rfl, fun k => lookup_setEntry entries name k node⟩
          refine ⟨.dir entries', changed, fun q => ?_⟩
          cases q with
          | nil => simp
          | cons k q =>
            rw [look_update updated]
            by_cases same : k = name
            · simp [same]
            · simp [same, Ne.symm same]
      | cons next more =>
        rw [List.dropLast_cons_cons, look_cons_dir] at inside
        cases held : entries.lookup name with
        | none => rw [held] at inside; cases inside
        | some node =>
          rw [held] at inside
          obtain ⟨there, seen, fails, changes⟩ := ih (List.cons_ne_nil next more) restShort inside
          refine ⟨there, ?_, fun e failed => ?_, fun new done => ?_⟩
          · rw [look_cons_dir, held, seen, lookIn_some]
          · simp only [change, entry?_eq nameShort, bind, Except.bind, held, fails e failed]
          · obtain ⟨node', changed, seen'⟩ := changes new done
            refine ⟨.dir (setEntry entries name node'), ?_, fun q => ?_⟩
            · simp only [change, entry?_eq nameShort, bind, Except.bind, held, changed]
              rfl
            · cases q with
              | nil => simp
              | cons k q =>
                rw [look_update fun k => lookup_setEntry entries name k node']
                by_cases same : k = name
                · subst same
                  simp [seen', held]
                · simp [same, Ne.symm same]

/-! ### Making directories -/

/-- Whether a directory could be made at a path: no file stands in the way. -/
def Clear (root : Node) (path : List String) : Prop :=
  ∀ q, q <+: path → look q root = .nothing ∨ look q root = .directory

theorem Clear.of_prefix (clear : Clear root path) {q : List String} (h : q <+: path) :
    Clear root q := fun r shorter => clear r (shorter.trans h)

theorem isDir_eq_true (short : ShortNames path) (there : look path root = .directory) :
    isDir root path = true := by
  have found := find_eq short root
  rw [there] at found
  obtain ⟨entries, found⟩ := found
  rw [isDir, found]

/-- One directory is made where there is nothing, in a directory. -/
theorem makeDir_new {name : String} (short : ShortNames (path ++ [name]))
    (parent : look path root = .directory) (free : look (path ++ [name]) root = .nothing) :
    ∃ root', makeDir root (path ++ [name]) = .ok root'
      ∧ ∀ q, look q root' = if q <+: path ++ [name] then .directory else look q root := by
  obtain ⟨there, seen, -, changes⟩ := change_inside newDir
    (List.append_ne_nil_of_right_ne_nil path (List.cons_ne_nil name [])) short
    (by rwa [List.dropLast_concat])
  rw [free] at seen
  have missing : there = none := by
    cases there with
    | none => rfl
    | some node => cases node <;> cases seen
  subst missing
  obtain ⟨root', made, seen'⟩ := changes _ rfl
  refine ⟨root', made, fun q => ?_⟩
  rw [seen', lookIn_some]
  by_cases below : path ++ [name] <+: q
  · obtain ⟨more, rfl⟩ := below
    rw [if_pos (List.prefix_append _ more), List.drop_left, look_empty]
    cases more with
    | nil => simp
    | cons next rest =>
      have nothing := look_append (path ++ [name]) (next :: rest) root
      rw [free] at nothing
      have longer : ¬ path ++ [name] ++ next :: rest <+: path ++ [name] := by
        intro shorter
        simpa using shorter.length_le
      rw [if_neg (List.cons_ne_nil next rest), if_neg longer, nothing]
  · rw [if_neg below]
    split
    · next onTheWay =>
      rcases List.prefix_concat_iff.mp onTheWay with rfl | shorter
      · exact absurd (List.prefix_refl _) below
      · exact look_of_prefix parent shorter
    · rfl

/-- Making directories where no file is in the way makes those on the way, and changes nothing
else. -/
theorem makeDirsBack_eq {back : List String} (short : ShortNames back.reverse)
    (clear : Clear root back.reverse) :
    ∃ root', makeDirsBack root back = (root', .ok ())
      ∧ ∀ q, look q root' = if q <+: back.reverse then .directory else look q root := by
  induction back generalizing root with
  | nil =>
    refine ⟨root, rfl, fun q => ?_⟩
    split
    · next h =>
      obtain rfl := List.prefix_nil.mp h
      rcases clear [] h with nothing | there
      · cases root <;> cases nothing
      · exact there
    · rfl
  | cons name back ih =>
    rw [List.reverse_cons] at short clear ⊢
    have shortUp : ShortNames back.reverse := short.of_prefix (List.prefix_append _ _)
    have clearUp : Clear root back.reverse := clear.of_prefix (List.prefix_append _ _)
    simp only [makeDirsBack, List.reverse_cons]
    -- the first attempt fails exactly if the directory above is missing
    rcases clear back.reverse (List.prefix_append _ _) with missing | parent
    · have failed : makeDir root (back.reverse ++ [name]) = .error .noEntry :=
        change_missing newDir short (by rwa [List.dropLast_concat])
      have free : look (back.reverse ++ [name]) root = .nothing := by
        have nothing := look_append back.reverse [name] root
        rwa [missing] at nothing
      obtain ⟨root₁, madeUp, seenUp⟩ := ih shortUp clearUp
      have free₁ : look (back.reverse ++ [name]) root₁ = .nothing := by
        rw [seenUp, if_neg, free]
        intro shorter
        have bound := shorter.length_le
        rw [List.length_append, List.length_singleton] at bound
        omega
      have parent₁ : look back.reverse root₁ = .directory := by
        rw [seenUp, if_pos (List.prefix_refl _)]
      obtain ⟨root', made, seen⟩ := makeDir_new short parent₁ free₁
      simp only [failed, if_true, madeUp, made]
      refine ⟨root', rfl, fun q => ?_⟩
      rw [seen, seenUp]
      by_cases onTheWay : q <+: back.reverse ++ [name]
      · rw [if_pos onTheWay, if_pos onTheWay]
      · have off : ¬ q <+: back.reverse :=
          fun shorter => onTheWay (shorter.trans (List.prefix_append _ _))
        rw [if_neg onTheWay, if_neg onTheWay, if_neg off]
    · rcases clear _ (List.prefix_refl _) with free | there
      · obtain ⟨root', made, seen⟩ := makeDir_new short parent free
        rw [made]
        exact ⟨root', rfl, seen⟩
      · obtain ⟨node, seen, fails, -⟩ := change_inside newDir
          (List.append_ne_nil_of_right_ne_nil back.reverse (List.cons_ne_nil name [])) short
          (by rwa [List.dropLast_concat])
        have failed : makeDir root (back.reverse ++ [name]) = .error .fileExists := by
          cases node with
          | none => rw [there] at seen; cases seen
          | some node => exact fails _ rfl
        have other : OsError.fileExists ≠ OsError.noEntry := by decide
        rw [failed]
        simp only [other, if_false, isDir_eq_true short there, if_true]
        refine ⟨root, rfl, fun q => ?_⟩
        split
        · next onTheWay => exact look_of_prefix there onTheWay
        · rfl

theorem makeDirs_eq (short : ShortNames path) (clear : Clear root path) :
    ∃ root', makeDirs root path = (root', .ok ())
      ∧ ∀ q, look q root' = if q <+: path then .directory else look q root := by
  rw [← List.reverse_reverse path] at short clear
  obtain ⟨root', made, seen⟩ := makeDirsBack_eq short clear
  rw [List.reverse_reverse] at seen
  exact ⟨root', made, seen⟩

/-! ### Calls -/

/-- A directory holds what is there, and what might be there. -/
theorem look_dropLast (named : path ≠ []) (root : Node) :
    match look path root with
    | .nothing => look path.dropLast root = .nothing ∨ look path.dropLast root = .directory
    | .file _ => look path.dropLast root = .directory
    | _ => True := by
  obtain ⟨way, last, rfl⟩ := (List.eq_nil_or_concat' path).resolve_left named
  have seen := look_append way [last] root
  rw [List.dropLast_concat]
  cases parent : look way root with
  | directory => cases look (way ++ [last]) root <;> simp
  | nothing => simp only [parent] at seen; simp [seen]
  | belowFile => simp only [parent] at seen; simp [seen]
  | file contents => simp [parent] at seen; simp [seen]

/-- Reading brings the contents of a file, and tells what else is there. -/
theorem read_eq (fits : Fits path) (root : Node) :
    read root path = match look path root with
      | .file contents => .ok contents
      | .directory => .error (.os .isADirectory)
      | .nothing => .error (.os .noEntry)
      | .belowFile => .error (.os .notADirectory) := by
  have found := find_eq fits.names root
  rw [read, fits.checkPath_eq]
  cases seen : look path root with
  | directory =>
    simp only [seen] at found
    obtain ⟨entries, found⟩ := found
    rw [found]
    rfl
  | nothing => simp only [seen] at found; rw [found]; rfl
  | belowFile => simp only [seen] at found; rw [found]; rfl
  | file contents => simp only [seen] at found; rw [found]; rfl

/-- Where no file is in the way and no directory in its place, a file is put, and directories
on the way to it. -/
theorem write_eq (fits : Fits path) (named : path ≠ []) (clear : Clear root path.dropLast)
    (notDir : look path root ≠ .directory) (contents : Bytes) :
    ∃ root', write root path contents = (root', .ok ())
      ∧ ∀ q, look q root' = if path <+: q then look (q.drop path.length) (.file contents)
        else if q <+: path.dropLast then .directory else look q root := by
  obtain ⟨root₁, made, seen₁⟩ := makeDirs_eq fits.dropLast.names clear
  have parent : look path.dropLast root₁ = .directory := by
    rw [seen₁, if_pos (List.prefix_refl _)]
  have notDir₁ : look path root₁ ≠ .directory := by
    obtain ⟨way, last, rfl⟩ := (List.eq_nil_or_concat' path).resolve_left named
    rw [seen₁, List.dropLast_concat, if_neg]
    · exact notDir
    · intro shorter
      have bound := shorter.length_le
      rw [List.length_append, List.length_singleton] at bound
      omega
  obtain ⟨there, seen, -, changes⟩ := change_inside (put contents) named fits.names parent
  have replaced : ∀ entries, there ≠ some (.dir entries) := by
    rintro entries rfl
    exact notDir₁ seen.symm
  obtain ⟨root', put, seen'⟩ := changes (some (.file contents)) (by
    rcases there with _ | _ | entries
    · rfl
    · rfl
    · exact absurd rfl (replaced entries))
  refine ⟨root', ?_, fun q => ?_⟩
  · simp only [write, fits.dropLast.checkPath_eq, made, fits.checkPath_eq]
    rw [put]
  · rw [seen', lookIn_some, seen₁]

/-- A file is removed, and nothing else. -/
theorem remove_file (fits : Fits path) (named : path ≠ []) {contents : Bytes}
    (file : look path root = .file contents) :
    ∃ root', remove root path = .ok root'
      ∧ ∀ q, look q root' = if path <+: q then .nothing else look q root := by
  have parent := look_dropLast named root
  rw [file] at parent
  obtain ⟨there, seen, -, changes⟩ := change_inside drop named fits.names parent
  rw [file] at seen
  obtain ⟨root', dropped, seen'⟩ := changes none (by
    rcases there with _ | _ | _
    · cases seen
    · rfl
    · cases seen)
  refine ⟨root', ?_, seen'⟩
  rw [remove, fits.checkPath_eq]
  simp only [bind, Except.bind]
  rw [dropped]
  rfl

/-- Nothing is removed where nothing is. -/
theorem remove_nothing (fits : Fits path) (named : path ≠ [])
    (nothing : look path root = .nothing) : remove root path = .error (.os .noEntry) := by
  have failed : change drop path root = .error .noEntry := by
    have parent := look_dropLast named root
    rw [nothing] at parent
    rcases parent with missing | inside
    · exact change_missing drop fits.names missing
    · obtain ⟨there, seen, fails, -⟩ := change_inside drop named fits.names inside
      rw [nothing] at seen
      refine fails _ ?_
      rcases there with _ | _ | _
      · rfl
      · cases seen
      · cases seen
  rw [remove, fits.checkPath_eq]
  simp only [bind, Except.bind]
  rw [failed]
  rfl

/-- How contents, or none, are seen. -/
def Sight.ofContents : Option Bytes → Sight
  | none => .nothing
  | some contents => .file contents

@[simp] theorem Sight.ofContents_eq_file {there : Option Bytes} {contents : Bytes} :
    Sight.ofContents there = .file contents ↔ there = some contents := by
  cases there <;> simp [Sight.ofContents]

/-- There is no place below one that is not a directory. -/
theorem look_below {s q : List String} (seen : look s root ≠ .directory) (below : s <+: q)
    (other : q ≠ s) : look q root = .nothing ∨ look q root = .belowFile := by
  obtain ⟨more, rfl⟩ := below
  have further : more ≠ [] := fun none => other (by rw [none, List.append_nil])
  have after := look_append s more root
  cases here : look s root with
  | directory => exact absurd here seen
  | nothing => rw [here] at after; exact .inl after
  | belowFile => rw [here] at after; exact .inr after
  | file contents => rw [here] at after; exact .inr (after further)

/-! ### One file -/

/-- Whether a tree has become another one, in which contents, or none, are left at a path: no
other file is changed, and directories are made on the way at most. -/
structure Updates (root root' : Node) (path : List String) (left : Option Bytes) : Prop where
  file : ∀ q contents, look q root' = .file contents
    ↔ if q = path then left = some contents else look q root = .file contents
  directory : ∀ q, look q root' = .directory
    → look q root = .directory ∨ (q <+: path ∧ q ≠ path)

theorem Updates.still {left : Option Bytes} (here : look path root = .ofContents left) :
    Updates root root path left := by
  refine ⟨fun q contents => ?_, fun q seen => .inl seen⟩
  split
  · next same => rw [same, here, Sight.ofContents_eq_file]
  · rfl

theorem updates_write (fits : Fits path) (named : path ≠ []) (clear : Clear root path.dropLast)
    (notDir : look path root ≠ .directory) (contents : Bytes) :
    ∃ root', write root path contents = (root', .ok ())
      ∧ Updates root root' path (some contents) := by
  obtain ⟨root', written, seen⟩ := write_eq fits named clear notDir contents
  refine ⟨root', written, fun q contents' => ?_, fun q => ?_⟩
  · rw [seen]
    by_cases same : q = path
    · subst same
      simp
    · rw [if_neg same]
      split
      · next below =>
        obtain ⟨more, rfl⟩ := below
        have after := look_below notDir (List.prefix_append _ more) same
        rw [List.drop_left]
        cases more with
        | nil => exact absurd (List.append_nil _) same
        | cons name rest => rcases after with after | after <;> simp [after]
      · split
        · next onTheWay => rcases clear q onTheWay with way | way <;> simp [way]
        · rfl
  · rw [seen]
    split
    · next below =>
      intro impossible
      cases rest : q.drop path.length <;> simp [rest] at impossible
    · next beside =>
      split
      · next onTheWay =>
        refine fun _ => .inr ⟨onTheWay.trans (List.dropLast_prefix _), fun same => beside ?_⟩
        exact same ▸ List.prefix_refl _
      · exact .inl

theorem updates_remove (fits : Fits path) (named : path ≠ []) {contents : Bytes}
    (file : look path root = .file contents) :
    ∃ root', remove root path = .ok root' ∧ Updates root root' path none := by
  obtain ⟨root', removed, seen⟩ := remove_file fits named file
  have notDir : look path root ≠ .directory := by simp [file]
  refine ⟨root', removed, fun q contents' => ?_, fun q => ?_⟩
  · rw [seen]
    by_cases same : q = path
    · subst same
      simp
    · rw [if_neg same]
      split
      · next below => rcases look_below notDir below same with after | after <;> simp [after]
      · rfl
  · rw [seen]
    split
    · simp
    · exact .inl

end Disk
end TaskHost
