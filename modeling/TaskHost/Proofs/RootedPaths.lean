/-
# Paths below a root

The components of a path are its root, the directory it begins in, steps upwards and the names
of entries (`PathComponent.ofText`); a path is joined to another one by a slash, unless it
begins at the root itself (`PathComponent.join`). The text that comes of resolving a path has
no part but names, so joined to any root it leads on from there by just these names and never
away (`HostPath.ofText_join`, `FileStore.StaysBelow`). Resolving fails exactly for paths with a
step upwards and for those without a name (`FileStore.resolved_stays_below`). Where the system
takes a joined path part by part, it comes to what is found under the names from the place where
the root leads (`Disk.walk_join`).

Key definitions: `PathComponent`, `PathComponent.ofText`, `PathComponent.join`,
`HostPath.textParts`, `Disk.walk`, `FileStore.StaysBelow`.
Key theorems: `HostPath.parse_eq_names`, `HostPath.ofText_join`, `Disk.walk_join`,
`FileStore.staysBelow_of_resolve`, `FileStore.resolved_stays_below`.
-/
import TaskHost.Proofs.Files

namespace TaskHost

/-! ### Components -/

/-- A component of a path: the root at its beginning, the directory that it begins in, the
directory above, or an entry by its name. -/
inductive PathComponent where
  | root
  | here
  | above
  | entry (name : String)
  deriving DecidableEq, Repr

namespace PathComponent

/-- The component that a part of a text between slashes names. -/
def ofPart (part : List Char) : PathComponent :=
  if part = ['.', '.'] then .above else .entry (String.ofList part)

/-- How a path begins: with a slash at the root, with a single dot in the directory where one
is. -/
def start (path : List Char) : List PathComponent :=
  if path.head? = some '/' then [.root]
  else if (path.splitOn '/').head? = some ['.'] then [.here] else []

/-- The components of a path. Parts that are empty or a single dot are none of them, except
for a single dot at the beginning. -/
def ofText (path : String) : List PathComponent :=
  start path.toList ++
    ((path.toList.splitOn '/').filter fun part => ¬ (part = [] ∨ part = ['.'])).map ofPart

/-- A path below another one. A path with a slash at its beginning is taken instead of it, and
a slash is put between the two if there is none. -/
def join (root path : String) : String :=
  if path.toList.head? = some '/' then path
  else if root = "" ∨ root.toList.getLast? = some '/' then root ++ path
  else root ++ "/" ++ path

/-- The names of entries among components, unless one of these leads upwards. -/
def names : List PathComponent → Except IoCause (List String)
  | [] => .ok []
  | .entry name :: rest => (names rest).map (name :: ·)
  | .above :: _ => .error .escapesRoot
  | .root :: rest => names rest
  | .here :: rest => names rest

end PathComponent

namespace HostPath

open PathComponent

theorem ofText_eq (path : String) :
    ofText path = start path.toList
      ++ (segmentsOf path).map fun name => if name = ".." then .above else .entry name := by
  rw [ofText, segmentsOf, List.map_map]
  congr 1
  refine List.map_congr_left fun part _ => ?_
  have dots : ".." = String.ofList ['.', '.'] := rfl
  simp only [Function.comp, ofPart, dots, String.ofList_inj]

theorem names_start (path : List Char) (rest : List PathComponent) :
    names (start path ++ rest) = names rest := by
  unfold start
  split
  · rfl
  · split <;> rfl

theorem names_segments (segments : List String) :
    names (segments.map fun name => if name = ".." then .above else .entry name)
      = if ".." ∈ segments then .error .escapesRoot else .ok segments := by
  induction segments with
  | nil => rfl
  | cons name rest ih =>
    rw [List.map_cons]
    by_cases up : name = ".."
    · subst up
      simp [names]
    · simp only [if_neg up, names, ih, List.mem_cons, Ne.symm up, false_or]
      split <;> rfl

/-- Parsing a path goes through its components. -/
theorem parse_eq_names (path : String) :
    parse path = (names (ofText path)).bind fun segments =>
      if segments = [] then .error .emptyPath else .ok ⟨segments⟩ := by
  rw [parse_eq, ofText_eq, names_start, names_segments]
  split
  · rfl
  · rfl

/-! ### Joining -/

theorem start_append_slash (path more : List Char) :
    start (path ++ '/' :: more) = if path = [] then [.root] else start path := by
  cases path with
  | nil => rfl
  | cons c rest =>
    have first :
        ((c :: rest ++ '/' :: more).splitOn '/').head? = ((c :: rest).splitOn '/').head? := by
      rw [List.splitOn_append_cons_self, List.head?_append_of_ne_nil _ (List.splitOn_ne_nil _ _)]
    rw [if_neg (List.cons_ne_nil c rest), start, start, first]
    rfl

/-- A path that does not begin with a slash is joined to another one with one slash between
them, unless that other one is empty. -/
theorem join_cases {path : String} (relative : path.toList.head? ≠ some '/') (root : String) :
    (root = "" ∧ join root path = path)
      ∨ ∃ way : String, (join root path).toList = way.toList ++ '/' :: path.toList
        ∧ (root.toList = way.toList ++ ['/'] ∨ (root = way ∧ way ≠ "")) := by
  unfold join
  rw [if_neg relative]
  by_cases none : root = ""
  · subst none
    exact .inl ⟨rfl, by simp⟩
  refine .inr ?_
  by_cases closed : root.toList.getLast? = some '/'
  · obtain ⟨way, split⟩ := List.getLast?_eq_some_iff.mp closed
    refine ⟨String.ofList way, ?_, .inl ?_⟩
    · rw [if_pos (.inr closed), String.toList_append, split, String.toList_ofList]
      simp
    · rw [split, String.toList_ofList]
  · refine ⟨root, ?_, .inr ⟨rfl, none⟩⟩
    rw [if_neg (not_or.mpr ⟨none, closed⟩), String.toList_append, String.toList_append]
    simp

theorem segmentsOf_append {path way rest : String}
    (split : path.toList = way.toList ++ '/' :: rest.toList) :
    segmentsOf path = segmentsOf way ++ segmentsOf rest := by
  rw [segmentsOf, split, List.splitOn_append_cons_self, List.filter_append, List.map_append]
  rfl

theorem segmentsOf_join {path : String} (relative : path.toList.head? ≠ some '/') (root : String) :
    segmentsOf (join root path) = segmentsOf root ++ segmentsOf path := by
  rcases join_cases relative root with ⟨rfl, joined⟩ | ⟨way, joined, closed | ⟨rfl, -⟩⟩
  · rw [joined]
    rfl
  · have same : segmentsOf root = segmentsOf way ++ segmentsOf "" := segmentsOf_append closed
    rw [segmentsOf_append joined, same]
    simp [show segmentsOf "" = [] from rfl]
  · exact segmentsOf_append joined

theorem start_join {path : String} (relative : start path.toList = []) (root : String) :
    start (join root path).toList = start root.toList := by
  have plain : path.toList.head? ≠ some '/' := by
    intro slash
    rw [start, if_pos slash] at relative
    cases relative
  rcases join_cases plain root with ⟨rfl, joined⟩ | ⟨way, joined, closed | ⟨rfl, some⟩⟩
  · rw [joined, relative]
    rfl
  · rw [joined, closed, start_append_slash, start_append_slash]
  · rw [joined, start_append_slash, if_neg fun none => some (String.toList_eq_nil_iff.mp none)]

/-- The components of a joined path are those of the two, one after the other. -/
theorem ofText_join {path : String} (relative : start path.toList = []) (root : String) :
    ofText (join root path) = ofText root ++ ofText path := by
  have plain : path.toList.head? ≠ some '/' := by
    intro slash
    rw [start, if_pos slash] at relative
    cases relative
  rw [ofText_eq, ofText_eq, ofText_eq, start_join relative, segmentsOf_join plain, relative,
    List.map_append, List.nil_append, List.append_assoc]

/-! ### The text of a path that was parsed -/

/-- The parts of a path between slashes. -/
def textParts (path : String) : List String := (path.toList.splitOn '/').map String.ofList

theorem segmentsOf_eq_filter (path : String) :
    segmentsOf path = (textParts path).filter fun part => part ≠ "" ∧ part ≠ "." := by
  rw [segmentsOf, textParts, List.filter_map]
  congr 1
  refine List.filter_congr fun part _ => ?_
  have dot : "." = String.ofList ['.'] := rfl
  have none : "" = String.ofList [] := rfl
  simp only [Function.comp, none, dot, ne_eq, String.ofList_inj, not_or]

theorem textParts_toText {p : HostPath} (named : p.segments ≠ [])
    (segments : ∀ name ∈ p.segments, IsSegment name) : textParts p.toText = p.segments := by
  have text : p.toText.toList = ['/'].intercalate (p.segments.map String.toList) := by
    rw [toText, String.toList_intercalate]
    rfl
  have slashes : ∀ part ∈ p.segments.map String.toList, '/' ∉ part := by
    intro part member
    obtain ⟨name, listed, rfl⟩ := List.mem_map.mp member
    exact (segments name listed).slash
  have some : p.segments.map String.toList ≠ [] := by simpa using named
  rw [textParts, text, List.splitOn_intercalate '/' slashes some, List.map_map]
  simp [Function.comp_def]

/-- A text without empty parts neither begins nor ends with a slash. -/
theorem no_slash_of_textParts {path : String} (whole : "" ∉ textParts path) :
    path.toList.head? ≠ some '/' ∧ path.toList.getLast? ≠ some '/' := by
  have whole' : [] ∉ path.toList.splitOn '/' := by
    intro member
    exact whole (List.mem_map.mpr ⟨[], member, rfl⟩)
  refine ⟨fun first => whole' ?_, fun last => whole' ?_⟩
  · obtain ⟨rest, split⟩ := List.head?_eq_some_iff.mp first
    have cut := List.splitOn_append_cons_self (a := '/') [] rest
    rw [split]
    rw [List.nil_append] at cut
    rw [cut]
    simp
  · obtain ⟨way, split⟩ := List.getLast?_eq_some_iff.mp last
    rw [split, List.splitOn_append_cons_self]
    simp

/-- Whether a path has segments that lead downwards only, and a text that is made of them and of
slashes between them. -/
structure Plain (p : HostPath) : Prop where
  named : p.segments ≠ []
  up : ".." ∉ p.segments
  steps : ∀ name ∈ p.segments, IsSegment name
  parts : textParts p.toText = p.segments
  segments : segmentsOf p.toText = p.segments
  start : start p.toText.toList = []

theorem plain_of_valid {path : String} (valid : IsValid path) : Plain ⟨segmentsOf path⟩ := by
  have steps : ∀ name ∈ segmentsOf path, IsSegment name := fun name => isSegment_of_mem
  have parts : textParts (HostPath.mk (segmentsOf path)).toText = segmentsOf path :=
    textParts_toText valid.1 steps
  refine ⟨valid.1, valid.2, steps, parts, segmentsOf_toText steps, ?_⟩
  have whole : "" ∉ textParts (HostPath.mk (segmentsOf path)).toText := by
    rw [parts]
    exact fun member => (steps "" member).nonempty rfl
  rw [PathComponent.start, if_neg (no_slash_of_textParts whole).1, if_neg]
  intro dot
  refine (steps "." ?_).step rfl
  rw [← parts, textParts]
  exact List.mem_map.mpr ⟨['.'], List.mem_of_head? dot, rfl⟩

namespace Plain

variable {p : HostPath}

theorem part (plain : Plain p) {name : String} (member : name ∈ textParts p.toText) :
    name ≠ "" ∧ name ≠ "." ∧ name ≠ ".." := by
  rw [plain.parts] at member
  refine ⟨(plain.steps name member).nonempty, (plain.steps name member).step, ?_⟩
  rintro rfl
  exact plain.up member

theorem slashes (plain : Plain p) :
    p.toText.toList.head? ≠ some '/' ∧ p.toText.toList.getLast? ≠ some '/' :=
  no_slash_of_textParts fun member => (plain.part member).1 rfl

theorem valid (plain : Plain p) : IsValid p.toText := by
  rw [IsValid, plain.segments]
  exact ⟨plain.named, plain.up⟩

theorem components (plain : Plain p) (root : String) :
    ofText (join root p.toText) = ofText root ++ p.segments.map .entry := by
  rw [ofText_join plain.start, ofText_eq p.toText, plain.start, plain.segments, List.nil_append]
  refine congrArg _ (List.map_congr_left fun name member => if_neg ?_)
  rintro rfl
  exact plain.up member

end Plain

end HostPath

/-! ### Where a joined path leads -/

namespace Disk

/-- What stands at a place. -/
def Place.node : Place → Node
  | .file contents => .file contents
  | .dir entries _ => .dir entries

/-- Where a path leads from a place, when the system takes its parts as steps. -/
def walk (place : Place) (path : String) : Except OsError Place :=
  (HostPath.textParts path).foldlM Place.step place

/-- Steps by names come to what is found there. -/
theorem foldlM_step {names : List String} (steps : ∀ name ∈ names, HostPath.IsSegment name)
    (up : ".." ∉ names) (place : Place) :
    (names.foldlM Place.step place).map Place.node = find names place.node := by
  induction names generalizing place with
  | nil => rfl
  | cons name rest ih =>
    obtain ⟨-, nonempty, step⟩ := steps name List.mem_cons_self
    have later := ih (fun n member => steps n (List.mem_cons_of_mem name member))
      (List.not_mem_of_not_mem_cons up)
    have ahead : name ≠ ".." := fun e => up (e ▸ List.mem_cons_self)
    rw [List.foldlM_cons]
    cases place with
    | file contents => rfl
    | dir entries above =>
      simp only [Place.step, nonempty, step, ahead, or_self, if_false, Place.node, find, bind,
        Except.bind]
      cases entry? entries name with
      | error e => rfl
      | ok there =>
        cases there with
        | none => rfl
        | some node =>
          cases node with
          | file contents => exact later (.file contents)
          | dir inner => exact later (.dir inner (entries :: above))

theorem walk_empty (place : Place) (path : String) :
    (walk place "").bind (walk · path) = walk place path := by
  cases place with
  | dir entries above => rfl
  | file contents =>
    obtain ⟨part, rest, cut⟩ := List.exists_cons_of_ne_nil (List.splitOn_ne_nil '/' path.toList)
    rw [walk, HostPath.textParts, walk, HostPath.textParts, cut]
    rfl

theorem walk_append {path way rest : String}
    (split : path.toList = way.toList ++ '/' :: rest.toList) (place : Place) :
    walk place path = (walk place way).bind (walk · rest) := by
  rw [walk, HostPath.textParts, split, List.splitOn_append_cons_self, List.map_append,
    List.foldlM_append]
  rfl

/-- A joined path leads to where its second part leads from where its first one does. -/
theorem walk_join {path : String} (relative : path.toList.head? ≠ some '/') (root : String)
    (place : Place) :
    walk place (PathComponent.join root path) = (walk place root).bind (walk · path) := by
  rcases HostPath.join_cases relative root with ⟨rfl, joined⟩ | ⟨way, joined, closed | ⟨rfl, -⟩⟩
  · rw [joined, walk_empty]
  · have open' : walk place root = (walk place way).bind (walk · "") := walk_append closed place
    rw [walk_append joined, open']
    cases walk place way with
    | error e => rfl
    | ok there => exact (walk_empty there path).symm
  · exact walk_append joined place

end Disk

namespace FileStore

open HostPath

/-- What a path that was resolved comes to: its parts, in a text that holds nothing else, and
below every root just these. -/
structure StaysBelow (path : String) (k : HostPath) : Prop where
  segments : k.segments = (textParts path).filter fun part => part ≠ "" ∧ part ≠ "."
  text : k.toText = "/".intercalate k.segments
  parts : ∀ part ∈ textParts k.toText, part ≠ "" ∧ part ≠ "." ∧ part ≠ ".."
  slashes : k.toText.toList.head? ≠ some '/' ∧ k.toText.toList.getLast? ≠ some '/'
  again : resolve k.toText = .ok k
  components : ∀ root, PathComponent.ofText (PathComponent.join root k.toText)
    = PathComponent.ofText root ++ k.segments.map .entry
  below : ∀ root,
    PathComponent.ofText root <+: PathComponent.ofText (PathComponent.join root k.toText)
    ∧ PathComponent.ofText root ≠ PathComponent.ofText (PathComponent.join root k.toText)
  leads : ∀ place root, (Disk.walk place (PathComponent.join root k.toText)).map Disk.Place.node
    = (Disk.walk place root).bind fun there => Disk.find k.segments there.node
  read : ∀ tree, (disk tree).read path = (Disk.read tree k.segments).mapError (diskError path)
  write : ∀ tree contents, (disk tree).write path contents
    = (disk (Disk.write tree k.segments contents).1,
      (Disk.write tree k.segments contents).2.mapError (diskError path))
  remove : ∀ tree, (disk tree).remove path = match Disk.remove tree k.segments with
    | .ok tree' => (disk tree', .ok ())
    | .error f => (disk tree, .error (diskError path f))

theorem resolve_ok_iff {path : String} {k : HostPath} :
    resolve path = .ok k ↔ IsValid path ∧ k = ⟨segmentsOf path⟩ := by
  by_cases valid : IsValid path
  · simp [resolve_of_valid valid, valid, eq_comm]
  · simp [resolve_of_invalid valid, valid]

/-- Joined to a root, a text of segments leads to what is found under them from where the root
leads. -/
theorem walk_plain {p : HostPath} (plain : Plain p) (place : Disk.Place) (root : String) :
    (Disk.walk place (PathComponent.join root p.toText)).map Disk.Place.node
      = (Disk.walk place root).bind fun there => Disk.find p.segments there.node := by
  rw [Disk.walk_join plain.slashes.1]
  cases Disk.walk place root with
  | error e => rfl
  | ok there =>
    have text : Disk.walk there p.toText = p.segments.foldlM Disk.Place.step there := by
      rw [Disk.walk, plain.parts]
    exact (congrArg (Except.map Disk.Place.node) text).trans
      (Disk.foldlM_step plain.steps plain.up there)

/-- What a path is resolved to stays below every root. -/
theorem staysBelow_of_resolve {path : String} {k : HostPath} (resolved : resolve path = .ok k) :
    StaysBelow path k := by
  obtain ⟨valid, rfl⟩ := resolve_ok_iff.mp resolved
  have plain := plain_of_valid valid
  refine
    { segments := segmentsOf_eq_filter path
      text := rfl
      parts := fun part => plain.part
      slashes := plain.slashes
      again := by rw [resolve_of_valid plain.valid, plain.segments]
      components := plain.components
      below := fun root => ?_
      leads := walk_plain plain
      read := fun tree => ?_
      write := fun tree contents => ?_
      remove := fun tree => ?_ }
  · rw [plain.components]
    refine ⟨List.prefix_append _ _, fun same => ?_⟩
    have none := List.append_right_eq_self.mp same.symm
    exact plain.named (List.map_eq_nil_iff.mp none)
  · rw [read, resolved]
    rfl
  · rw [write, resolved]
  · cases removed : Disk.remove tree (segmentsOf path) with
    | ok tree' => simp only [remove, resolved, removed]
    | error f => simp only [remove, resolved, removed]

/-- **Paths stay below the root.** A path is resolved if none of its parts between slashes is a
double dot and some part is neither empty nor a single dot, as its components tell; what it is
resolved to stays below every root. -/
theorem resolved_stays_below (path : String) :
    ((∃ k, resolve path = .ok k)
      ↔ ".." ∉ textParts path ∧ ∃ part ∈ textParts path, part ≠ "" ∧ part ≠ ".")
    ∧ resolve path = ((PathComponent.names (PathComponent.ofText path)).bind fun segments =>
      if segments = [] then .error .emptyPath else .ok ⟨segments⟩).mapError (.io path)
    ∧ ∀ k, resolve path = .ok k → StaysBelow path k := by
  refine ⟨?_, by rw [resolve, parse_eq_names], fun k => staysBelow_of_resolve⟩
  have some : segmentsOf path ≠ [] ↔ ∃ part ∈ textParts path, part ≠ "" ∧ part ≠ "." := by
    rw [segmentsOf_eq_filter, Ne, List.filter_eq_nil_iff]
    simp
  have up : ".." ∈ segmentsOf path ↔ ".." ∈ textParts path := by
    rw [segmentsOf_eq_filter, List.mem_filter]
    simp
  simp only [resolve_ok_iff, exists_and_left, exists_eq, and_true, IsValid, some, up]
  exact and_comm

/-- A path that begins with slashes leads below the root all the same. -/
theorem resolved_stays_below_absolute :
    resolve "//etc/./passwd/" = .ok ⟨["etc", "passwd"]⟩
      ∧ PathComponent.ofText (PathComponent.join "/srv/host/" "etc/passwd")
        = [.root, .entry "srv", .entry "host", .entry "etc", .entry "passwd"] := by
  have resolved : resolve "//etc/./passwd/" = .ok ⟨["etc", "passwd"]⟩ := by decide +kernel
  have below := ((resolved_stays_below "//etc/./passwd/").2.2 _ resolved).components "/srv/host/"
  have text : (HostPath.mk ["etc", "passwd"]).toText = "etc/passwd" := by decide +kernel
  have root : PathComponent.ofText "/srv/host/" = [.root, .entry "srv", .entry "host"] := by
    decide +kernel
  rw [text, root] at below
  exact ⟨resolved, below⟩

end FileStore
end TaskHost
