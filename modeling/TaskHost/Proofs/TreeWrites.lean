/-
# Writes into a directory tree, however they end

Making directories one below the other stops at the first name that is too long or is that of
a file (`Disk.StopsAt`), with the directories before it made (`Disk.makeDirs_stops`). So a write
goes in one of six ways (`Disk.Writes`), each told by the sights on its path: there is always
one (`Disk.exists_writes`), and it fixes the answer and what is seen anew
(`Disk.Writes.write_eq`). A removal is told by what is seen at its path (`Disk.exists_removed`),
and a write that fails has made directories on a part of its way at most (`Disk.write_failed`).

Key definitions: `Disk.StopsAt`, `Disk.stopError`, `Disk.Writes`.
Key theorems: `Disk.change_stopped`, `Disk.makeDirs_stops`, `Disk.exists_writes`,
`Disk.Writes.write_eq`, `Disk.write_failed`.
-/
import TaskHost.Proofs.Trees

namespace TaskHost
namespace Disk

variable {root : Node} {path : List String}

/-! ### Walks that are stopped -/

theorem ShortNames.concat {name : String} (short : ShortNames path)
    (fits : name.utf8ByteSize ≤ nameLimit) : ShortNames (path ++ [name]) := by
  intro n member
  rcases List.mem_append.mp member with earlier | here
  · exact short n earlier
  · exact List.mem_singleton.mp here ▸ fits

/-- A walk goes on from where its first part has led. -/
theorem find_append (path more : List String) (root : Node) :
    find (path ++ more) root = find path root >>= find more := by
  induction path generalizing root with
  | nil => rfl
  | cons name rest ih =>
    cases root with
    | file contents => rfl
    | dir entries =>
      simp only [List.cons_append, find, bind, Except.bind]
      cases entry? entries name with
      | error e => rfl
      | ok there =>
        cases there with
        | none => rfl
        | some node => exact ih node

/-- A name that is too long is refused in a directory. -/
theorem find_long {way rest : List String} {name : String} (short : ShortNames way)
    (long : nameLimit < name.utf8ByteSize) (root : Node) :
    find (way ++ name :: rest) root = .error (match look way root with
      | .nothing => .noEntry
      | .directory => .nameTooLong
      | _ => .notADirectory) := by
  have found := find_eq short root
  rw [find_append]
  cases seen : look way root with
  | nothing => simp only [seen] at found; rw [found]; rfl
  | belowFile => simp only [seen] at found; rw [found]; rfl
  | file contents => simp only [seen] at found; rw [found]; rfl
  | directory =>
    simp only [seen] at found
    obtain ⟨entries, found⟩ := found
    rw [found]
    simp only [bind, Except.bind, find, entry?, if_pos long]

/-- A path with a name that is too long has a first one. -/
theorem exists_long (long : ¬ ShortNames path) :
    ∃ way name rest, path = way ++ name :: rest ∧ ShortNames way
      ∧ nameLimit < name.utf8ByteSize := by
  induction path with
  | nil => exact absurd (fun name member => by cases member) long
  | cons first rest ih =>
    by_cases fits : first.utf8ByteSize ≤ nameLimit
    · have later : ¬ ShortNames rest := by
        refine fun short => long fun name member => ?_
        rcases List.mem_cons.mp member with rfl | member
        · exact fits
        · exact short name member
      obtain ⟨way, name, more, rfl, short, tooLong⟩ := ih later
      refine ⟨first :: way, name, more, rfl, fun n member => ?_, tooLong⟩
      rcases List.mem_cons.mp member with rfl | member
      · exact fits
      · exact short n member
    · exact ⟨[], first, rest, rfl, fun n member => (by cases member), Nat.not_le.mp fits⟩

theorem find_below {way rest : List String} {contents : Bytes} (short : ShortNames way)
    (file : look way root = .file contents) (further : rest ≠ []) :
    find (way ++ rest) root = .error .notADirectory := by
  have found := find_eq short root
  rw [file] at found
  rw [find_append, found]
  cases rest with
  | nil => exact absurd rfl further
  | cons name rest => rfl

/-- A change is stopped where the walk to its directory is, by a file in the place of that
directory, and by a name that is too long. -/
theorem change_stopped (act : Option Node → Except OsError (Option Node)) (way : List String)
    (last : String) (root : Node) :
    match find way root with
    | .error e => change act (way ++ [last]) root = .error e
    | .ok (.file _) => change act (way ++ [last]) root = .error .notADirectory
    | .ok (.dir _) => nameLimit < last.utf8ByteSize →
      change act (way ++ [last]) root = .error .nameTooLong := by
  induction way generalizing root with
  | nil =>
    cases root with
    | file contents => rfl
    | dir entries =>
      intro long
      simp only [List.nil_append, change, entry?, if_pos long, bind, Except.bind]
  | cons name rest ih =>
    cases root with
    | file contents => simp [find, change]
    | dir entries =>
      obtain ⟨next, more, tail⟩ : ∃ next more, rest ++ [last] = next :: more := by
        cases rest with
        | nil => exact ⟨last, [], rfl⟩
        | cons next more => exact ⟨next, more ++ [last], rfl⟩
      rw [List.cons_append, tail]
      simp only [find, change, bind, Except.bind]
      cases entry? entries name with
      | error e => rfl
      | ok there =>
        cases there with
        | none => rfl
        | some node =>
          have inner := ih node
          rw [tail] at inner
          simp only
          split
          · next e stopped => simp only [stopped] at inner; simp only [inner]
          · next contents file => simp only [file] at inner; simp only [inner]
          · next entries there =>
            intro long
            simp only [there] at inner
            simp only [inner long]

/-- So nothing is changed at a name that is too long, or below it. -/
theorem change_long (act : Option Node → Except OsError (Option Node)) {way rest : List String}
    {name : String} (short : ShortNames way) (long : nameLimit < name.utf8ByteSize) (root : Node) :
    change act (way ++ name :: rest) root = .error (match look way root with
      | .nothing => .noEntry
      | .directory => .nameTooLong
      | _ => .notADirectory) := by
  rcases List.eq_nil_or_concat' rest with rfl | ⟨rest, last, rfl⟩
  · have found := find_eq short root
    have stopped := change_stopped act way name root
    cases seen : look way root with
    | nothing => simp only [seen] at found; rwa [found] at stopped
    | belowFile => simp only [seen] at found; rwa [found] at stopped
    | file contents => simp only [seen] at found; rwa [found] at stopped
    | directory =>
      simp only [seen] at found
      obtain ⟨entries, found⟩ := found
      rw [found] at stopped
      exact stopped long
  · have stopped := change_stopped act (way ++ name :: rest) last root
    rw [find_long short long] at stopped
    rw [← List.cons_append, ← List.append_assoc]
    exact stopped

theorem isDir_eq_false (other : ∀ entries, find path root ≠ .ok (.dir entries)) :
    isDir root path = false := by
  unfold isDir
  split
  · next entries found => exact absurd found (other entries)
  · rfl

/-! ### Directories that cannot be made -/

/-- Whether making directories one below the other comes as far as a way and stops at the name
after it, because that is too long or a file has it. -/
structure StopsAt (root : Node) (way : List String) (name : String) : Prop where
  short : ShortNames way
  clear : Clear root way
  stop : nameLimit < name.utf8ByteSize ∨ ∃ contents, look (way ++ [name]) root = .file contents

/-- The error with which it stops at a name that others follow. -/
def stopError (name : String) (rest : List String) : OsError :=
  if nameLimit < name.utf8ByteSize then .nameTooLong
  else if rest = [] then .fileExists else .notADirectory

/-- Where directories can be made there is no place below a file. -/
theorem Clear.ne_belowFile (clear : Clear root path) (last : String) :
    look (path ++ [last]) root ≠ .belowFile := by
  intro below
  obtain ⟨q, contents, onTheWay, other, file⟩ := exists_file_of_belowFile below
  rcases clear q ((List.prefix_concat_iff.mp onTheWay).resolve_left other) with free | there
  · rw [free] at file; cases file
  · rw [there] at file; cases file

/-- In a directory, either all directories of a path can be made or there is a name at which it
stops. -/
theorem clear_or_stopsAt (rooted : look [] root = .directory) (path : List String) :
    (ShortNames path ∧ Clear root path)
      ∨ ∃ way name rest, path = way ++ name :: rest ∧ StopsAt root way name := by
  induction path using List.reverseRecOn with
  | nil =>
    refine .inl ⟨fun name member => (by cases member), fun q onTheWay => .inr ?_⟩
    rw [List.prefix_nil.mp onTheWay, rooted]
  | append_singleton path last ih =>
    rcases ih with ⟨short, clear⟩ | ⟨way, name, rest, rfl, stops⟩
    · by_cases long : nameLimit < last.utf8ByteSize
      · exact .inr ⟨path, last, [], rfl, short, clear, .inl long⟩
      by_cases file : ∃ contents, look (path ++ [last]) root = .file contents
      · exact .inr ⟨path, last, [], rfl, short, clear, .inr file⟩
      refine .inl ⟨short.concat (Nat.not_lt.mp long), fun q onTheWay => ?_⟩
      rcases List.prefix_concat_iff.mp onTheWay with rfl | shorter
      · cases seen : look (path ++ [last]) root with
        | nothing => exact .inl rfl
        | directory => exact .inr rfl
        | file contents => exact absurd ⟨contents, seen⟩ file
        | belowFile => exact absurd seen (clear.ne_belowFile last)
      · exact clear q shorter
    · exact .inr ⟨way, name, rest ++ [last], by simp, stops⟩

theorem stopError_ne_noEntry (name : String) (rest : List String) :
    stopError name rest ≠ .noEntry := by
  unfold stopError
  split
  · decide
  · split <;> decide

theorem makeDir_missing {way : List String} (short : ShortNames way)
    (missing : look way root = .nothing) (name : String) (rest : List String) :
    makeDir root (way ++ name :: rest) = .error .noEntry := by
  have found := find_eq short root
  rw [missing] at found
  rcases List.eq_nil_or_concat' rest with rfl | ⟨rest, last, rfl⟩
  · have stopped := change_stopped newDir way name root
    rwa [found] at stopped
  · have stopped := change_stopped newDir (way ++ name :: rest) last root
    rw [find_append, found] at stopped
    rw [← List.cons_append, ← List.append_assoc]
    exact stopped

/-- No directory is made in the place of a file, or below it. -/
theorem makeDir_onFile {way : List String} {name : String} {contents : Bytes}
    (short : ShortNames (way ++ [name])) (fits : ¬ nameLimit < name.utf8ByteSize)
    (parent : look way root = .directory) (file : look (way ++ [name]) root = .file contents)
    (rest : List String) :
    makeDir root (way ++ name :: rest) = .error (stopError name rest)
      ∧ isDir root (way ++ name :: rest) = false := by
  have found := find_eq short root
  rw [file] at found
  rw [stopError, if_neg fits]
  rcases List.eq_nil_or_concat' rest with rfl | ⟨rest, last, rfl⟩
  · refine ⟨?_, isDir_eq_false fun entries there => ?_⟩
    · obtain ⟨node, seen, fails, -⟩ := change_inside newDir
        (List.append_ne_nil_of_right_ne_nil way (List.cons_ne_nil name [])) short
        (by rwa [List.dropLast_concat])
      cases node with
      | none => rw [file] at seen; cases seen
      | some node => exact fails _ rfl
    · rw [found] at there
      cases there
  · have below {rest : List String} (further : rest ≠ []) :
        find (way ++ name :: rest) root = .error .notADirectory := by
      rw [List.append_cons]
      exact find_below short file further
    refine ⟨?_, isDir_eq_false fun entries there => ?_⟩
    · rw [if_neg (by simp), ← List.cons_append, ← List.append_assoc]
      have stopped := change_stopped newDir (way ++ name :: rest) last root
      rcases List.eq_nil_or_concat' rest with rfl | ⟨rest, next, rfl⟩
      · rw [found] at stopped
        exact stopped
      · rw [below (by simp)] at stopped
        exact stopped
    · rw [below (by simp)] at there
      cases there

theorem makeDir_stopped {way : List String} {name : String} (stops : StopsAt root way name)
    (parent : look way root = .directory) (rest : List String) :
    makeDir root (way ++ name :: rest) = .error (stopError name rest)
      ∧ isDir root (way ++ name :: rest) = false := by
  obtain ⟨short, clear, stop⟩ := stops
  by_cases long : nameLimit < name.utf8ByteSize
  · refine ⟨?_, isDir_eq_false fun entries there => ?_⟩
    · rw [makeDir, change_long newDir short long, parent, stopError, if_pos long]
    · rw [find_long short long] at there
      cases there
  · obtain ⟨contents, file⟩ := stop.resolve_left long
    exact makeDir_onFile (short.concat (Nat.not_lt.mp long)) long parent file rest

theorem makeDirsBack_onParent {way : List String} {name : String} (stops : StopsAt root way name)
    (parent : look way root = .directory) (back : List String) :
    makeDirsBack root (back ++ name :: way.reverse)
      = (root, .error (stopError name back.reverse)) := by
  obtain ⟨failed, other⟩ := makeDir_stopped stops parent back.reverse
  have whole : (back ++ name :: way.reverse).reverse = way ++ name :: back.reverse := by simp
  obtain ⟨last, more, split⟩ : ∃ last more, back ++ name :: way.reverse = last :: more :=
    List.exists_cons_of_ne_nil (by simp)
  rw [split] at whole ⊢
  simp only [makeDirsBack, whole, failed, stopError_ne_noEntry, if_false, other]
  rfl

/-- A missing directory is made with those above it before a name that is too long. -/
theorem makeDirsBack_tooLong {way : List String} {name : String} (short : ShortNames way)
    (clear : Clear root way) (missing : look way root = .nothing)
    (long : nameLimit < name.utf8ByteSize) (back : List String) :
    ∃ root', makeDirsBack root (back ++ name :: way.reverse)
        = (root', .error (stopError name back.reverse))
      ∧ ∀ q, look q root' = if q <+: way then .directory else look q root := by
  -- the names are taken from the last one up, and each is refused until the directories are made
  induction back with
  | nil =>
    have shortUp : ShortNames way.reverse.reverse := by rwa [List.reverse_reverse]
    have clearUp : Clear root way.reverse.reverse := by rwa [List.reverse_reverse]
    obtain ⟨root₁, made, seen⟩ := makeDirsBack_eq shortUp clearUp
    rw [List.reverse_reverse] at seen
    have stops₁ : StopsAt root₁ way name := by
      refine ⟨short, fun q onTheWay => .inr ?_, .inl long⟩
      rw [seen, if_pos onTheWay]
    obtain ⟨failed, other⟩ := makeDir_stopped stops₁ (by rw [seen, if_pos (List.prefix_refl _)]) []
    refine ⟨root₁, ?_, seen⟩
    simp only [List.nil_append, makeDirsBack, List.reverse_cons, List.reverse_reverse,
      makeDir_missing short missing, if_true, made, failed, other, List.reverse_nil]
    rfl
  | cons last back ih =>
    obtain ⟨root', made, seen⟩ := ih
    refine ⟨root', ?_, seen⟩
    have error : stopError name (back.reverse ++ [last]) = stopError name back.reverse := by
      rw [stopError, stopError, if_pos long, if_pos long]
    simp only [List.cons_append, makeDirsBack, List.reverse_cons, List.reverse_append,
      List.reverse_reverse, List.append_assoc, List.nil_append,
      makeDir_missing short missing, if_true, made, error]

/-- Up to the name at which the way stops directories are made, and nothing else changes. -/
theorem makeDirsBack_stops {way : List String} {name : String} (stops : StopsAt root way name)
    (back : List String) :
    ∃ root', makeDirsBack root (back ++ name :: way.reverse)
        = (root', .error (stopError name back.reverse))
      ∧ ∀ q, look q root' = if q <+: way then .directory else look q root := by
  rcases stops.clear way (List.prefix_refl _) with missing | parent
  · have long : nameLimit < name.utf8ByteSize := by
      refine stops.stop.resolve_right fun ⟨contents, file⟩ => ?_
      have nothing := look_append way [name] root
      rw [missing] at nothing
      rw [nothing] at file
      cases file
    exact makeDirsBack_tooLong stops.short stops.clear missing long back
  · refine ⟨root, makeDirsBack_onParent stops parent back, fun q => ?_⟩
    split
    · next onTheWay => exact look_of_prefix parent onTheWay
    · rfl

theorem makeDirs_stops {way : List String} {name : String} (stops : StopsAt root way name)
    (rest : List String) :
    ∃ root', makeDirs root (way ++ name :: rest) = (root', .error (stopError name rest))
      ∧ ∀ q, look q root' = if q <+: way then .directory else look q root := by
  obtain ⟨root', made, seen⟩ := makeDirsBack_stops stops rest.reverse
  rw [List.reverse_reverse] at made
  refine ⟨root', ?_, seen⟩
  rw [makeDirs, List.reverse_append, List.reverse_cons, List.append_assoc]
  exact made

/-! ### How a write goes -/

/-- What is seen anew where directories were made on a way. -/
def madeWay (way q : List String) : Option Sight := if q <+: way then some .directory else none

/-- What is seen anew where a file was put. -/
def putFile (path : List String) (contents : Bytes) (q : List String) : Option Sight :=
  if path <+: q then some (look (q.drop path.length) (.file contents)) else madeWay path.dropLast q

/-- The ways in which a write goes: what it answers, and what is seen anew after it. It can be
refused before any directory is made, be stopped on the way, find its name wrong or a directory
in its place when all directories are made, or put the file. -/
inductive Writes (root : Node) (path : List String) (contents : Bytes) :
    Except Failure Unit → (List String → Option Sight) → Prop
  | refused {f : Failure} (check : checkPath path.dropLast = .error f) :
      Writes root path contents (.error f) fun _ => none
  | stopped {way rest : List String} {name : String} (check : checkPath path.dropLast = .ok ())
      (split : path.dropLast = way ++ name :: rest) (stops : StopsAt root way name) :
      Writes root path contents (.error (.os (stopError name rest))) (madeWay way)
  | unfit {f : Failure} (short : ShortNames path.dropLast) (clear : Clear root path.dropLast)
      (parent : checkPath path.dropLast = .ok ()) (check : checkPath path = .error f) :
      Writes root path contents (.error f) (madeWay path.dropLast)
  | long (short : ShortNames path.dropLast) (clear : Clear root path.dropLast)
      (parent : checkPath path.dropLast = .ok ()) (check : checkPath path = .ok ())
      (long : ¬ ShortNames path) :
      Writes root path contents (.error (.os .nameTooLong)) (madeWay path.dropLast)
  | onDirectory (fits : Fits path) (clear : Clear root path.dropLast)
      (there : look path root = .directory) :
      Writes root path contents (.error (.os .isADirectory)) (madeWay path.dropLast)
  | put (fits : Fits path) (clear : Clear root path.dropLast)
      (free : look path root ≠ .directory) :
      Writes root path contents (.ok ()) (putFile path contents)

theorem fits_of_checkPath (short : ShortNames path) (check : checkPath path = .ok ()) :
    Fits path := by
  unfold checkPath at check
  split at check
  · cases check
  · next plain =>
    split at check
    · cases check
    · next size =>
      refine ⟨short, fun name member nul => plain ?_, Nat.not_le.mp size⟩
      exact List.any_eq_true.mpr ⟨name, member, by simpa using nul⟩

/-- Every write goes in one of these ways. -/
theorem exists_writes (rooted : look [] root = .directory) (path : List String)
    (contents : Bytes) : ∃ result anew, Writes root path contents result anew := by
  cases parent : checkPath path.dropLast with
  | error f => exact ⟨_, _, .refused parent⟩
  | ok =>
    rcases clear_or_stopsAt rooted path.dropLast with
      ⟨short, clear⟩ | ⟨way, name, rest, split, stops⟩
    · cases check : checkPath path with
      | error f => exact ⟨_, _, .unfit short clear parent check⟩
      | ok =>
        by_cases names : ShortNames path
        · have fits := fits_of_checkPath names check
          by_cases there : look path root = .directory
          · exact ⟨_, _, .onDirectory fits clear there⟩
          · exact ⟨_, _, .put fits clear there⟩
        · exact ⟨_, _, .long short clear parent check names⟩
    · exact ⟨_, _, .stopped parent split stops⟩

/-- A write answers and changes the tree in the way in which it goes. -/
theorem Writes.write_eq {contents : Bytes} {result : Except Failure Unit}
    {anew : List String → Option Sight} (writes : Writes root path contents result anew)
    (named : path ≠ []) :
    ∃ root', write root path contents = (root', result)
      ∧ ∀ q, look q root' = (anew q).getD (look q root) := by
  have seenWay {root' : Node} {way : List String}
      (seen : ∀ q, look q root' = if q <+: way then .directory else look q root) (q : List String) :
      look q root' = (madeWay way q).getD (look q root) := by
    rw [seen, madeWay]
    split <;> rfl
  obtain ⟨way, last, rfl⟩ := (List.eq_nil_or_concat' path).resolve_left named
  cases writes with
  | refused check =>
    exact ⟨root, by rw [write, check], fun q => rfl⟩
  | stopped check split stops =>
    obtain ⟨root', made, seen⟩ := makeDirs_stops stops _
    refine ⟨root', ?_, seenWay seen⟩
    rw [write, check, split, made]
  | unfit short clear parent check =>
    obtain ⟨root', made, seen⟩ := makeDirs_eq short clear
    refine ⟨root', ?_, seenWay seen⟩
    rw [write, parent, made, check]
  | long short clear parent check names =>
    obtain ⟨root', made, seen⟩ := makeDirs_eq short clear
    refine ⟨root', ?_, seenWay seen⟩
    rw [List.dropLast_concat] at short made seen
    have tooLong : nameLimit < last.utf8ByteSize :=
      Nat.not_le.mp fun fits => names (short.concat fits)
    have found := find_eq short root'
    rw [seen, if_pos (List.prefix_refl _)] at found
    obtain ⟨entries, found⟩ := found
    have stopped := change_stopped (Disk.put contents) way last root'
    rw [found] at stopped
    rw [write, parent, List.dropLast_concat, made]
    simp only [check, stopped tooLong]
  | onDirectory fits clear there =>
    obtain ⟨root', made, seen⟩ := makeDirs_eq fits.dropLast.names clear
    have there' : look (way ++ [last]) root' = .directory := by
      rw [seen, there, ite_self]
    have parent : look (way ++ [last]).dropLast root' = .directory :=
      look_of_prefix there' (List.dropLast_prefix _)
    obtain ⟨node, held, fails, -⟩ := change_inside (Disk.put contents) named fits.names parent
    have refused : Disk.put contents node = .error .isADirectory := by
      rw [there'] at held
      rcases node with _ | _ | _
      · cases held
      · cases held
      · rfl
    refine ⟨root', ?_, seenWay seen⟩
    rw [write, fits.dropLast.checkPath_eq, made]
    simp only [fits.checkPath_eq, fails _ refused]
  | put fits clear free =>
    obtain ⟨root', written, seen⟩ := Disk.write_eq fits named clear free contents
    refine ⟨root', written, fun q => ?_⟩
    rw [seen, putFile, madeWay]
    split
    · rfl
    · split <;> rfl

/-! ### How a removal goes -/

/-- What is not a file is not removed. -/
theorem remove_refused (fits : Fits path) (named : path ≠ []) :
    (look path root = .directory → remove root path = .error (.os .isADirectory))
      ∧ (look path root = .belowFile → remove root path = .error (.os .notADirectory)) := by
  have removed {e : OsError} (failed : change drop path root = .error e) :
      remove root path = .error (.os e) := by
    rw [remove, fits.checkPath_eq]
    simp only [bind, Except.bind]
    rw [failed]
    rfl
  refine ⟨fun there => removed ?_, fun below => removed ?_⟩
  · obtain ⟨node, held, fails, -⟩ := change_inside drop named fits.names
      ( look_of_prefix there (List.dropLast_prefix _))
    rw [there] at held
    refine fails _ ?_
    rcases node with _ | _ | _
    · cases held
    · cases held
    · rfl
  · obtain ⟨way, last, rfl⟩ := (List.eq_nil_or_concat' path).resolve_left named
    have short : ShortNames way := fits.names.of_prefix (List.prefix_append _ _)
    have found := find_eq short root
    have above := look_append way [last] root
    have stopped := change_stopped drop way last root
    cases seen : look way root with
    | nothing => simp [seen, below] at above
    | directory =>
      obtain ⟨q, contents, onTheWay, other, file⟩ := exists_file_of_belowFile below
      rw [ look_of_prefix seen ((List.prefix_concat_iff.mp onTheWay).resolve_left other)] at file
      cases file
    | file contents => simp only [seen] at found; rwa [found] at stopped
    | belowFile => simp only [seen] at found; rwa [found] at stopped

/-- Where all names fit, a removal goes by what is seen. -/
theorem exists_removed (fits : Fits path) (named : path ≠ []) (root : Node) :
    match look path root with
    | .file _ => ∃ root', remove root path = .ok root'
      ∧ ∀ q, look q root' = if path <+: q then .nothing else look q root
    | .nothing => remove root path = .error (.os .noEntry)
    | .directory => remove root path = .error (.os .isADirectory)
    | .belowFile => remove root path = .error (.os .notADirectory) := by
  split
  · next contents file => exact remove_file fits named file
  · next nothing => exact remove_nothing fits named nothing
  · next there => exact (remove_refused fits named).1 there
  · next there => exact (remove_refused fits named).2 there

/-! ### Writes that fail -/

/-- What a path's beginning is refused for, the path is refused for. -/
theorem checkPath_ancestor {q : List String} (check : checkPath path = .ok ())
    (onTheWay : q <+: path) : checkPath q = .ok () := by
  induction path using List.reverseRecOn with
  | nil => rwa [List.prefix_nil.mp onTheWay]
  | append_singleton path last ih =>
    rcases List.prefix_concat_iff.mp onTheWay with rfl | shorter
    · exact check
    · refine ih ?_ shorter
      have size := pathSize_dropLast (path ++ [last])
      rw [List.dropLast_concat] at size
      unfold checkPath at check ⊢
      rw [List.any_append] at check
      split at check
      · cases check
      · next plain =>
        split at check
        · cases check
        · next fits =>
          rw [if_neg fun nul => plain (by rw [nul, Bool.true_or]), if_neg (by omega)]

/-- A write that fails has made directories on a part of the way at most. -/
theorem write_failed (rooted : look [] root = .directory) (named : path ≠ []) {contents : Bytes}
    {f : Failure} (failed : (write root path contents).2 = .error f) :
    ∃ way, way <+: path.dropLast ∧ ShortNames way ∧ Clear root way
      ∧ (way = [] ∨ checkPath path.dropLast = .ok ())
      ∧ ∀ q, look q (write root path contents).1
        = if q <+: way then .directory else look q root := by
  obtain ⟨result, anew, writes⟩ := exists_writes rooted path contents
  obtain ⟨root', written, seen⟩ := writes.write_eq named
  rw [written] at failed ⊢
  have made {way : List String} (same : anew = madeWay way) (q : List String) :
      look q root' = if q <+: way then .directory else look q root := by
    rw [seen, same, madeWay]
    split <;> rfl
  cases writes with
  | refused check =>
    refine ⟨[], List.nil_prefix, fun name member => (by cases member), fun q onTheWay => .inr ?_,
      .inl rfl, fun q => ?_⟩
    · rw [List.prefix_nil.mp onTheWay, rooted]
    · rw [seen, Option.getD_none]
      split
      · next onTheWay => rw [List.prefix_nil.mp onTheWay, rooted]
      · rfl
  | stopped check split stops =>
    exact ⟨_, split ▸ List.prefix_append _ _, stops.short, stops.clear, .inr check, made rfl⟩
  | unfit short clear parent check =>
    exact ⟨_, List.prefix_refl _, short, clear, .inr parent, made rfl⟩
  | long short clear parent check names =>
    exact ⟨_, List.prefix_refl _, short, clear, .inr parent, made rfl⟩
  | onDirectory fits clear there =>
    exact ⟨_, List.prefix_refl _, fits.dropLast.names, clear, .inr fits.dropLast.checkPath_eq,
      made rfl⟩
  | put => cases failed

/-- Where the root itself is a file nothing is written. -/
theorem write_inFile (held : Bytes) (path : List String) (contents : Bytes) :
    (write (.file held) path contents).1 = .file held := by
  have made (way : List String) : (makeDirs (.file held) way).1 = .file held := by
    unfold makeDirs
    cases way.reverse with
    | nil => rfl
    | cons name back =>
      obtain ⟨first, rest, split⟩ : ∃ first rest, (name :: back).reverse = first :: rest :=
        List.exists_cons_of_ne_nil (by simp)
      have refused : makeDir (.file held) (first :: rest) = .error .notADirectory := by
        simp [makeDir, change]
      have other : isDir (.file held) (first :: rest) = false := rfl
      have error : OsError.notADirectory ≠ OsError.noEntry := by decide
      simp only [makeDirsBack, split, refused, error, if_false, other]
      rfl
  have put : change (Disk.put contents) path (.file held) = .error .notADirectory := by
    cases path <;> simp [change]
  unfold write
  split
  · rfl
  · have kept := made path.dropLast
    split
    · next root e failed => rw [failed] at kept; exact kept
    · next root done =>
      rw [done] at kept
      obtain rfl : root = .file held := kept
      split
      · rfl
      · rw [put]

end Disk
end TaskHost
