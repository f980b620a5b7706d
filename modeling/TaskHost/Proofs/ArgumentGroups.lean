/-
# Command lines as groups of arguments

The arguments of a command line stand in groups: a switch that stands alone, or an option and its
value, whatever the value looks like (`CommandLine.Group`). A list of arguments goes on in groups
up to its end, to a bad group or to a call for help, and there the reading stops
(`CommandLine.divides`). Each group sets one field (`CommandLine.parse_group`), so after all of
them a field has the value of the last group that sets it (`CommandLine.foldl_apply`), and groups
that set different fields may change places (`CommandLine.parse_swap`). A bad group ends the
reading with its error (`CommandLine.parse_eq_error_iff`).

`CommandLine.parseFrom` reads the arguments by their positions, and comes to nothing if it looks
at a position that is not there. It never does: it comes to what `CommandLine.parse` says
(`CommandLine.parseFrom_eq`).

Key definitions: `CommandLine.Assignment`, `CommandLine.Group`, `CommandLine.Splits`,
`CommandLine.Bad`, `CommandLine.Stops`, `CommandLine.lastSet`, `CommandLine.parseFrom`.
Key theorems: `CommandLine.workerCount?_eq_some_iff`, `CommandLine.parse_splits`,
`CommandLine.divides`, `CommandLine.parse_eq_iff`, `CommandLine.foldl_apply`,
`CommandLine.parseFrom_eq`, `CommandLine.reads_groups`.
-/
import Mathlib.Data.List.Induction
import TaskHost.CommandLine

namespace TaskHost
namespace CommandLine

/-- What comes of loading the manifest at a path. -/
abbrev Loader := String → Except WorkloadError Workload

variable {load : Loader} {c d : PoolConfig} {s : Setting}
  {arg name value : String} {args words rest : List String} {e : Error}

/-! ### Options -/

/-- How an option with a value is written. -/
def Setting.spellings : Setting → List String
  | .workers => ["--workers", "-w"]
  | .workload => ["--workload", "-f"]
  | .diskRoot => ["--disk-root"]
  | .logLevel => ["--log-level"]

/-- How help is asked for. -/
def helpSpellings : List String := ["--help", "-h"]

theorem ofArgument_spelling (named : arg ∈ s.spellings) :
    Switch.ofArgument arg = .setting s := by
  cases s <;> simp only [Setting.spellings, List.mem_cons, List.not_mem_nil, or_false] at named
  · rcases named with rfl | rfl <;> rfl
  · rcases named with rfl | rfl <;> rfl
  · subst named
    rfl
  · subst named
    rfl

theorem ofArgument_help (asked : arg ∈ helpSpellings) : Switch.ofArgument arg = .help := by
  simp only [helpSpellings, List.mem_cons, List.not_mem_nil, or_false] at asked
  rcases asked with rfl | rfl <;> rfl

/-- An argument is known if it is written like an option, the switch or a call for help. -/
def Known (arg : String) : Prop :=
  (∃ s : Setting, arg ∈ s.spellings) ∨ arg = "--quiet" ∨ arg ∈ helpSpellings

theorem ofArgument_unknown (strange : ¬ Known arg) : Switch.ofArgument arg = .unknown := by
  have option (s : Setting) : arg ∉ s.spellings := fun named => strange (.inl ⟨s, named⟩)
  have workers : ¬ (arg = "--workers" ∨ arg = "-w") := by
    simpa [Setting.spellings] using option .workers
  have workload : ¬ (arg = "--workload" ∨ arg = "-f") := by
    simpa [Setting.spellings] using option .workload
  have root : arg ≠ "--disk-root" := by simpa [Setting.spellings] using option .diskRoot
  have level : arg ≠ "--log-level" := by simpa [Setting.spellings] using option .logLevel
  have quiet : arg ≠ "--quiet" := fun same => strange (.inr (.inl same))
  have help : ¬ (arg = "--help" ∨ arg = "-h") := by
    simpa [helpSpellings] using fun asked => strange (.inr (.inr asked))
  rw [Switch.ofArgument, if_neg workers, if_neg workload, if_neg root, if_neg level, if_neg quiet,
    if_neg help]

/-! ### Values -/

/-- How a number of workers is written: with digits, after a plus sign or none, and it fits a
word. -/
def IsCount (value : String) (n : Nat) : Prop :=
  ∃ digits : List Char, digits ≠ [] ∧ (∀ ch ∈ digits, ch.isDigit = true)
    ∧ (value.toList = digits ∨ value.toList = '+' :: digits)
    ∧ Nat.ofDigitChars 10 digits 0 = n ∧ n ≤ 18446744073709551615

/-- What stands after the sign of a number. -/
def unsigned : List Char → List Char
  | '+' :: rest => rest
  | cs => cs

theorem unsigned_of_digits {digits : List Char} (digit : ∀ ch ∈ digits, ch.isDigit = true) :
    unsigned digits = digits := by
  unfold unsigned
  split
  · next rest =>
    have := digit '+' List.mem_cons_self
    exact absurd this (by decide)
  · rfl

theorem eq_unsigned (cs : List Char) : cs = unsigned cs ∨ cs = '+' :: unsigned cs := by
  unfold unsigned
  split
  · exact .inr rfl
  · exact .inl rfl

theorem workerCount?_eq (value : String) : workerCount? value =
    if (unsigned value.toList).isEmpty || !(unsigned value.toList).all Char.isDigit then none
    else if Nat.ofDigitChars 10 (unsigned value.toList) 0 ≤ maxWord
      then some (Nat.ofDigitChars 10 (unsigned value.toList) 0) else none := rfl

/-- A number of workers is read exactly if it is written as one. -/
theorem workerCount?_eq_some_iff {n : Nat} : workerCount? value = some n ↔ IsCount value n := by
  rw [workerCount?_eq]
  constructor
  · intro read
    split at read
    · cases read
    · next written =>
      split at read
      · next fits =>
        obtain rfl := Option.some.inj read
        simp only [Bool.or_eq_true, List.isEmpty_iff, Bool.not_eq_true', not_or, Bool.not_eq_false,
          List.all_eq_true] at written
        exact ⟨unsigned value.toList, written.1, written.2, eq_unsigned _, rfl, fits⟩
      · cases read
  · rintro ⟨digits, nonempty, digit, written, rfl, fits⟩
    have rest : unsigned value.toList = digits := by
      rcases written with plain | plus
      · rw [plain, unsigned_of_digits digit]
      · rw [plus]
        rfl
    have all : digits.all Char.isDigit = true := List.all_eq_true.mpr digit
    have word : Nat.ofDigitChars 10 digits 0 ≤ maxWord := fits
    rw [rest, if_neg (by simp [all, nonempty]), if_pos word]

/-- How a level is written: with its name, or as a warning, in capitals or not. -/
def IsLevel (value : String) (level : LogLevel) : Prop :=
  LogLevel.lowercase value = level.name ∨ LogLevel.lowercase value = "warning" ∧ level = .warn

theorem lookup_names {text : String} {level : LogLevel} :
    LogLevel.names.lookup text = some level
      ↔ text = level.name ∨ text = "warning" ∧ level = .warn := by
  constructor
  · intro found
    obtain ⟨before, after, names_eq, -⟩ := List.lookup_eq_some_iff.mp found
    have listed : (text, level) ∈ LogLevel.names :=
      names_eq ▸ List.mem_append_right _ List.mem_cons_self
    simp only [LogLevel.names, List.mem_cons, Prod.mk.injEq, List.not_mem_nil, or_false] at listed
    rcases listed with ⟨rfl, rfl⟩ | ⟨rfl, rfl⟩ | ⟨rfl, rfl⟩ | ⟨rfl, rfl⟩ | ⟨rfl, rfl⟩
    · exact .inl rfl
    · exact .inl rfl
    · exact .inl rfl
    · exact .inr ⟨rfl, rfl⟩
    · exact .inl rfl
  · rintro (rfl | ⟨rfl, rfl⟩)
    · cases level <;> rfl
    · rfl

theorem parseLevel_eq_ok_iff {level : LogLevel} :
    LogLevel.parse value = .ok level ↔ IsLevel value level := by
  rw [IsLevel, ← lookup_names, LogLevel.parse]
  cases LogLevel.names.lookup (LogLevel.lowercase value) <;> simp

theorem parseLevel_eq_error (strange : ∀ level, ¬ IsLevel value level) :
    LogLevel.parse value = .error (LogLevel.lowercase value) := by
  rw [LogLevel.parse]
  cases found : LogLevel.names.lookup (LogLevel.lowercase value) with
  | none => rfl
  | some level => exact absurd (lookup_names.mp found) (strange level)

/-! ### Groups -/

/-- What a group sets. -/
inductive Assignment where
  | workers (n : Nat)
  | workload (w : Workload)
  | diskRoot (path : String)
  | logLevel (level : LogLevel)
  | quiet

/-- The fields of a configuration that arguments can set. -/
inductive Field where
  | workers
  | workload
  | diskRoot
  | logLevel
  | echo
  deriving DecidableEq

namespace Assignment

/-- The field that is set. -/
def field : Assignment → Field
  | workers _ => .workers
  | workload _ => .workload
  | diskRoot _ => .diskRoot
  | logLevel _ => .logLevel
  | quiet => .echo

/-- Sets the field. -/
def apply (c : PoolConfig) : Assignment → PoolConfig
  | workers n => { c with workers := n }
  | workload w => { c with workload := w }
  | diskRoot path => { c with diskRoot := some path }
  | logLevel level => { c with logLevel := level }
  | quiet => { c with echo := false }

/-- The number of workers that is set. -/
def workers? : Assignment → Option Nat
  | workers n => some n
  | _ => none

/-- The workload that is set. -/
def workload? : Assignment → Option Workload
  | workload w => some w
  | _ => none

/-- The directory that is set. -/
def diskRoot? : Assignment → Option (Option String)
  | diskRoot path => some (some path)
  | _ => none

/-- The level that is set. -/
def logLevel? : Assignment → Option LogLevel
  | logLevel level => some level
  | _ => none

/-- Whether lines are echoed, if that is set. -/
def echo? : Assignment → Option Bool
  | quiet => some false
  | _ => none

theorem apply_comm {a b : Assignment} (apart : a.field ≠ b.field) (c : PoolConfig) :
    b.apply (a.apply c) = a.apply (b.apply c) := by
  cases a <;> cases b <;> first | rfl | exact absurd rfl apart

end Assignment

/-- A value that an option takes, and what it sets. -/
inductive Reads (load : Loader) : Setting → String → Assignment → Prop
  | workers {value : String} {n : Nat} (count : IsCount value n) :
      Reads load .workers value (.workers n)
  | workload {path : String} {w : Workload} (loaded : load path = .ok w) :
      Reads load .workload path (.workload w)
  | diskRoot (path : String) : Reads load .diskRoot path (.diskRoot path)
  | logLevel {value : String} {level : LogLevel} (known : IsLevel value level) :
      Reads load .logLevel value (.logLevel level)

/-- A value that an option does not take, and the error that says so. -/
inductive Refuses (load : Loader) : Setting → String → Error → Prop
  | workers {value : String} (strange : ∀ n, ¬ IsCount value n) :
      Refuses load .workers value (.invalidWorkerCount value)
  | workload {path : String} {e : WorkloadError} (failed : load path = .error e) :
      Refuses load .workload path (.workload e)
  | logLevel {value : String} (strange : ∀ level, ¬ IsLevel value level) :
      Refuses load .logLevel value (.unknownLogLevel (LogLevel.lowercase value))

/-- The arguments of a group, and what the group sets: the switch alone, or an option and a value
that it takes. -/
inductive Group (load : Loader) : List String → Assignment → Prop
  | quiet : Group load ["--quiet"] .quiet
  | setting {s : Setting} {name value : String} {a : Assignment} (named : name ∈ s.spellings)
      (reads : Reads load s value a) : Group load [name, value] a

/-- Arguments that are groups one after the other. -/
inductive Splits (load : Loader) : List String → List Assignment → Prop
  | nil : Splits load [] []
  | cons {group rest : List String} {a : Assignment} {as : List Assignment}
      (first : Group load group a) (more : Splits load rest as) :
      Splits load (group ++ rest) (a :: as)

/-- Arguments that go on with a bad group, and its error: nothing that is known, an option at the
end, or an option and a value that it does not take. -/
inductive Bad (load : Loader) : List String → Error → Prop
  | unknown {arg : String} (strange : ¬ Known arg) (rest : List String) :
      Bad load (arg :: rest) (.unknownOption arg)
  | missing {s : Setting} {name : String} (named : name ∈ s.spellings) :
      Bad load [name] (.missingValue s)
  | value {s : Setting} {name value : String} {e : Error} (named : name ∈ s.spellings)
      (refuses : Refuses load s value e) (rest : List String) : Bad load (name :: value :: rest) e

variable {a b : Assignment} {as : List Assignment}

theorem apply_of_reads (reads : Reads load s value a) (c : PoolConfig) :
    s.apply load c value = .ok (a.apply c) := by
  cases reads with
  | workers count =>
    rw [Setting.apply, workerCount?_eq_some_iff.mpr count]
    rfl
  | workload loaded =>
    rw [Setting.apply, loaded]
    rfl
  | diskRoot => rfl
  | logLevel known =>
    rw [Setting.apply, parseLevel_eq_ok_iff.mpr known]
    rfl

theorem apply_of_refuses (refuses : Refuses load s value e) (c : PoolConfig) :
    s.apply load c value = .error e := by
  cases refuses with
  | workers strange =>
    have none : workerCount? value = none :=
      Option.eq_none_iff_forall_ne_some.mpr fun n read =>
        strange n (workerCount?_eq_some_iff.mp read)
    rw [Setting.apply, none]
  | workload failed => rw [Setting.apply, failed]
  | logLevel strange => rw [Setting.apply, parseLevel_eq_error strange]

/-- An option takes a value, or it does not. -/
theorem reads_or_refuses (load : Loader) (s : Setting)
    (value : String) : (∃ a, Reads load s value a) ∨ ∃ e, Refuses load s value e := by
  cases s with
  | workers =>
    by_cases count : ∃ n, IsCount value n
    · obtain ⟨n, count⟩ := count
      exact .inl ⟨_, .workers count⟩
    · exact .inr ⟨_, .workers (not_exists.mp count)⟩
  | workload =>
    cases loaded : load value with
    | ok w => exact .inl ⟨_, .workload loaded⟩
    | error e => exact .inr ⟨_, .workload loaded⟩
  | diskRoot => exact .inl ⟨_, .diskRoot value⟩
  | logLevel =>
    by_cases known : ∃ level, IsLevel value level
    · obtain ⟨level, known⟩ := known
      exact .inl ⟨_, .logLevel known⟩
    · exact .inr ⟨_, .logLevel (not_exists.mp known)⟩

/-! ### Reading in groups -/

/-- A group sets its field, and the reading goes on after it. -/
theorem parse_group (group : Group load words a) (c : PoolConfig) (rest : List String) :
    parse load c (words ++ rest) = parse load (a.apply c) rest := by
  cases group with
  | quiet => rfl
  | setting named reads =>
    rw [List.cons_append, List.cons_append, List.nil_append, parse, ofArgument_spelling named]
    simp only [apply_of_reads reads c]

theorem parse_splits (splits : Splits load words as) (c : PoolConfig) (rest : List String) :
    parse load c (words ++ rest) = parse load (as.foldl Assignment.apply c) rest := by
  induction splits generalizing c with
  | nil => rfl
  | cons first _ ih => rw [List.append_assoc, parse_group first, ih, List.foldl_cons]

theorem parse_bad (bad : Bad load args e) (c : PoolConfig) : parse load c args = .error e := by
  cases bad with
  | unknown strange rest => rw [parse, ofArgument_unknown strange]
  | missing named => rw [parse, ofArgument_spelling named]
  | value named refuses rest =>
    rw [parse, ofArgument_spelling named]
    simp only [apply_of_refuses refuses c]

/-- Where the reading of groups stops, and what it comes to: at the end, at a bad group, or where
help is asked for. -/
inductive Stops (load : Loader) (c : PoolConfig) : List String → Except Error Request → Prop
  | done : Stops load c [] (.ok (.run c))
  | bad {rest : List String} {e : Error} (bad : Bad load rest e) : Stops load c rest (.error e)
  | help {arg : String} (asked : arg ∈ helpSpellings) (rest : List String) :
      Stops load c (arg :: rest) (.ok .help)

theorem parse_of_stops {r : Except Error Request} (stops : Stops load c args r) :
    parse load c args = r := by
  cases stops with
  | done => rfl
  | bad bad => exact parse_bad bad c
  | help asked rest => rw [parse, ofArgument_help asked]

/-- Arguments go on with a group, or the reading stops. -/
theorem stops_or_group (load : Loader) (args : List String) : (∀ c, ∃ r, Stops load c args r)
    ∨ ∃ group rest a, args = group ++ rest ∧ rest.length < args.length ∧ Group load group a := by
  cases args with
  | nil => exact .inl fun c => ⟨_, .done⟩
  | cons arg rest =>
    by_cases known : Known arg
    · rcases known with ⟨s, named⟩ | rfl | asked
      · cases rest with
        | nil => exact .inl fun c => ⟨_, .bad (.missing named)⟩
        | cons value more =>
          have shorter : more.length < (arg :: value :: more).length := by
            simp only [List.length_cons]
            omega
          rcases reads_or_refuses load s value with ⟨a, reads⟩ | ⟨e, refuses⟩
          · exact .inr ⟨[arg, value], more, a, rfl, shorter, .setting named reads⟩
          · exact .inl fun c => ⟨_, .bad (.value named refuses more)⟩
      · exact .inr ⟨["--quiet"], rest, _, rfl, by simp, .quiet⟩
      · exact .inl fun c => ⟨_, .help asked rest⟩
    · exact .inl fun c => ⟨_, .bad (.unknown known rest)⟩

/-- Arguments are groups up to where the reading stops. -/
theorem divides (load : Loader) (args : List String) : ∃ words rest as,
    args = words ++ rest ∧ Splits load words as ∧ ∀ c, ∃ r, Stops load c rest r := by
  rcases stops_or_group load args with stops | ⟨group, rest, a, args_eq, shorter, first⟩
  · exact ⟨[], args, [], rfl, .nil, stops⟩
  · obtain ⟨words, ending, as, rest_eq, splits, stops⟩ := divides load rest
    refine ⟨group ++ words, ending, a :: as, ?_, .cons first splits, stops⟩
    rw [args_eq, rest_eq, List.append_assoc]
termination_by args.length

/-- What arguments come to: groups set their fields, one after the other, up to where the reading
stops. -/
theorem parse_eq_iff {r : Except Error Request} : parse load c args = r
    ↔ ∃ words rest as, args = words ++ rest ∧ Splits load words as
      ∧ Stops load (as.foldl Assignment.apply c) rest r := by
  constructor
  · intro read
    obtain ⟨words, rest, as, rfl, splits, stops⟩ := divides load args
    obtain ⟨q, stopped⟩ := stops (as.foldl Assignment.apply c)
    have : q = r := by rw [← parse_of_stops stopped, ← parse_splits splits, read]
    exact ⟨words, rest, as, rfl, splits, this ▸ stopped⟩
  · rintro ⟨words, rest, as, rfl, splits, stopped⟩
    rw [parse_splits splits, parse_of_stops stopped]

theorem parse_eq_run_iff : parse load c args = .ok (.run d)
    ↔ ∃ as, Splits load args as ∧ d = as.foldl Assignment.apply c := by
  rw [parse_eq_iff]
  constructor
  · rintro ⟨words, rest, as, rfl, splits, ⟨⟩⟩
    exact ⟨as, (List.append_nil words).symm ▸ splits, rfl⟩
  · rintro ⟨as, splits, rfl⟩
    exact ⟨args, [], as, (List.append_nil args).symm, splits, .done⟩

/-- The error is the one of the first bad group. -/
theorem parse_eq_error_iff : parse load c args = .error e
    ↔ ∃ words rest as, args = words ++ rest ∧ Splits load words as ∧ Bad load rest e := by
  rw [parse_eq_iff]
  constructor
  · rintro ⟨words, rest, as, rfl, splits, ⟨⟩ | bad⟩
    exact ⟨words, rest, as, rfl, splits, bad⟩
  · rintro ⟨words, rest, as, rfl, splits, bad⟩
    exact ⟨words, rest, as, rfl, splits, .bad bad⟩

theorem parse_eq_help_iff : parse load c args = .ok .help
    ↔ ∃ words arg rest as, args = words ++ arg :: rest ∧ Splits load words as
      ∧ arg ∈ helpSpellings := by
  rw [parse_eq_iff]
  constructor
  · rintro ⟨words, rest, as, rfl, splits, stops⟩
    cases stops with
    | @help arg asked more => exact ⟨words, arg, more, as, rfl, splits, asked⟩
  · rintro ⟨words, arg, rest, as, rfl, splits, asked⟩
    exact ⟨words, arg :: rest, as, rfl, splits, .help asked rest⟩

/-- Groups next to each other that set different fields may change places. -/
theorem parse_swap {before first second : List String} (splits : Splits load before as)
    (left : Group load first a) (right : Group load second b) (apart : a.field ≠ b.field)
    (c : PoolConfig) (after : List String) :
    parse load c (before ++ (first ++ (second ++ after)))
      = parse load c (before ++ (second ++ (first ++ after))) := by
  rw [parse_splits splits, parse_splits splits, parse_group left, parse_group right,
    parse_group right, parse_group left, Assignment.apply_comm apart]

/-! ### The last group of each field -/

/-- What the last setting of a field sets. -/
def lastSet {α : Type} (get : Assignment → Option α) (as : List Assignment) : Option α :=
  (as.filterMap get).getLast?

theorem lastSet_concat {α : Type} (get : Assignment → Option α) (as : List Assignment)
    (a : Assignment) : lastSet get (as ++ [a]) = (get a).or (lastSet get as) := by
  unfold lastSet
  rw [List.filterMap_append]
  cases found : get a <;> simp [found]

theorem field_foldl {α : Type} (read : PoolConfig → α) (get : Assignment → Option α)
    (sets : ∀ c a, read (a.apply c) = (get a).getD (read c)) (as : List Assignment)
    (c : PoolConfig) : read (as.foldl Assignment.apply c) = (lastSet get as).getD (read c) := by
  induction as using List.reverseRecOn with
  | nil => rfl
  | append_singleton as a ih =>
    rw [List.foldl_append, List.foldl_cons, List.foldl_nil, sets, ih, lastSet_concat]
    cases get a <;> rfl

theorem foldl_apply (as : List Assignment) (c : PoolConfig) : as.foldl Assignment.apply c =
    { workers := (lastSet Assignment.workers? as).getD c.workers
      maxWorkers := c.maxWorkers
      workload := (lastSet Assignment.workload? as).getD c.workload
      echo := (lastSet Assignment.echo? as).getD c.echo
      diskRoot := (lastSet Assignment.diskRoot? as).getD c.diskRoot
      logLevel := (lastSet Assignment.logLevel? as).getD c.logLevel } := by
  have workers := field_foldl PoolConfig.workers Assignment.workers?
    (fun c a => by cases a <;> rfl) as c
  have maxWorkers := field_foldl PoolConfig.maxWorkers (fun _ => none)
    (fun c a => by cases a <;> rfl) as c
  have workload := field_foldl PoolConfig.workload Assignment.workload?
    (fun c a => by cases a <;> rfl) as c
  have echo := field_foldl PoolConfig.echo Assignment.echo?
    (fun c a => by cases a <;> rfl) as c
  have diskRoot := field_foldl PoolConfig.diskRoot Assignment.diskRoot?
    (fun c a => by cases a <;> rfl) as c
  have logLevel := field_foldl PoolConfig.logLevel Assignment.logLevel?
    (fun c a => by cases a <;> rfl) as c
  have never : lastSet (fun _ => (none : Option Nat)) as = none := by simp [lastSet]
  rw [never, Option.getD_none] at maxWorkers
  rw [← workers, ← maxWorkers, ← workload, ← echo, ← diskRoot, ← logLevel]

/-! ### Reading by positions -/

/-- Reads arguments from a position on; none if it looks at a position that is not there. -/
def parseFrom (load : Loader) (args : List String) (c : PoolConfig)
    (i : Nat) : Option (Except Error Request) :=
  if i < args.length then
    match args[i]? with
    | none => none
    | some arg =>
      match Switch.ofArgument arg with
      | .unknown => some (.error (.unknownOption arg))
      | .help => some (.ok .help)
      | .quiet => parseFrom load args { c with echo := false } (i + 1)
      | .setting s =>
        if args.length ≤ i + 1 then some (.error (.missingValue s))
        else
          match args[i + 1]? with
          | none => none
          | some value =>
            match s.apply load c value with
            | .ok c => parseFrom load args c (i + 2)
            | .error e => some (.error e)
  else some (.ok (.run c))
termination_by args.length - i

theorem drop_of_getElem? {l : List String} {i : Nat} (there : l[i]? = some arg) :
    l.drop i = arg :: l.drop (i + 1) := by
  obtain ⟨inside, rfl⟩ := List.getElem?_eq_some_iff.mp there
  exact List.drop_eq_getElem_cons inside

/-- No position that is not there is looked at. -/
theorem parseFrom_eq (load : Loader) (args : List String)
    (c : PoolConfig) (i : Nat) : parseFrom load args c i = some (parse load c (args.drop i)) := by
  fun_induction parseFrom load args c i with
  | case1 c i inside none =>
    exact absurd inside (Nat.not_lt.mpr (List.getElem?_eq_none_iff.mp none))
  | case2 c i inside arg there unknown => rw [drop_of_getElem? there, parse, unknown]
  | case3 c i inside arg there help => rw [drop_of_getElem? there, parse, help]
  | case4 c i inside arg there quiet ih => rw [ih, drop_of_getElem? there, parse, quiet]
  | case5 c i inside arg there s setting last =>
    rw [drop_of_getElem? there, List.drop_eq_nil_of_le last, parse, setting]
  | case6 c i inside arg there s setting more none =>
    exact absurd (List.getElem?_eq_none_iff.mp none) more
  | case7 c i inside arg there s setting more value next d applied ih =>
    rw [ih, drop_of_getElem? there, drop_of_getElem? next, parse, setting]
    simp only [applied]
  | case8 c i inside arg there s setting more value next e refused =>
    rw [drop_of_getElem? there, drop_of_getElem? next, parse, setting]
    simp only [refused]
  | case9 c i outside => rw [List.drop_eq_nil_of_le (Nat.not_lt.mp outside), parse]

/-! ### What arguments come to -/

/-- **Arguments are read group by group, and the last one of a field counts.** They are taken
exactly if they are groups up to the end, and then each field has what the last group that sets it
sets, or its default. An error is the one of the first bad group, after good ones only; and help
is given if it is asked for where a group could begin. So good groups that stand next to each
other and set different fields may change places, whatever comes after them. Read by positions,
the arguments after the program's name come to the same, and no position past the end is looked
at. -/
theorem reads_groups (load : Loader) (n : Nat) (args : List String) :
    (∀ d, parse load (.ofWorkers n) args = .ok (.run d) ↔ ∃ as, Splits load args as
      ∧ d = { workers := (lastSet Assignment.workers? as).getD n
              maxWorkers := 4
              workload := (lastSet Assignment.workload? as).getD ⟨["alpha", "beta"], 2, 0⟩
              echo := (lastSet Assignment.echo? as).getD true
              diskRoot := (lastSet Assignment.diskRoot? as).getD none
              logLevel := (lastSet Assignment.logLevel? as).getD .warn })
    ∧ (∀ e, parse load (.ofWorkers n) args = .error e ↔
      ∃ words rest as, args = words ++ rest ∧ Splits load words as ∧ Bad load rest e)
    ∧ (parse load (.ofWorkers n) args = .ok .help ↔
      ∃ words arg rest as, args = words ++ arg :: rest ∧ Splits load words as
        ∧ arg ∈ ["--help", "-h"])
    ∧ (∀ before as first a second b, Splits load before as → Group load first a →
      Group load second b → a.field ≠ b.field → ∀ c after,
      parse load c (before ++ (first ++ (second ++ after)))
        = parse load c (before ++ (second ++ (first ++ after))))
    ∧ ∀ program, parseFrom load (program :: args) (.ofWorkers n) 1
      = some (parse load (.ofWorkers n) args) := by
  refine ⟨fun d => ?_, fun e => parse_eq_error_iff, parse_eq_help_iff,
    fun before as first a second b splits left right apart c after =>
      parse_swap splits left right apart c after,
    fun program => parseFrom_eq load (program :: args) (.ofWorkers n) 1⟩
  rw [parse_eq_run_iff]
  simp only [foldl_apply]
  rfl

/-- A value that looks like a call for help, and a number with a sign. -/
theorem reads_groups_helpAsRoot :
    let load : Loader := fun _ => .ok .standard
    Splits load ["--quiet"] [.quiet]
    ∧ Group load ["--disk-root", "--help"] (.diskRoot "--help")
    ∧ Group load ["-w", "+3"] (.workers 3)
    ∧ parse load (.ofWorkers 2) ["--quiet", "--disk-root", "--help", "-w", "+3"]
      = parse load (.ofWorkers 2) ["--quiet", "-w", "+3", "--disk-root", "--help"]
    ∧ parse load (.ofWorkers 2) ["--quiet", "--disk-root", "--help", "-w", "+3"]
      = .ok (.run ⟨3, 4, ⟨["alpha", "beta"], 2, 0⟩, false, some "--help", .warn⟩) := by
  intro load
  have quiet : Splits load ["--quiet"] [.quiet] := .cons .quiet .nil
  have root : Group load ["--disk-root", "--help"] (.diskRoot "--help") :=
    .setting (s := .diskRoot) (by simp [Setting.spellings]) (.diskRoot "--help")
  have digit : ∀ ch ∈ ['3'], ch.isDigit = true := fun ch hch => by
    rw [List.mem_singleton.mp hch]
    rfl
  have count : IsCount "+3" 3 := ⟨['3'], by simp, digit, .inr rfl, rfl, by decide⟩
  have workers : Group load ["-w", "+3"] (.workers 3) :=
    .setting (s := .workers) (by simp [Setting.spellings]) (.workers count)
  have all : Splits load ["--quiet", "--disk-root", "--help", "-w", "+3"]
      [.quiet, .diskRoot "--help", .workers 3] := .cons .quiet (.cons root (.cons workers .nil))
  obtain ⟨taken, -, -, swap, -⟩ :=
    reads_groups load 2 ["--quiet", "--disk-root", "--help", "-w", "+3"]
  exact ⟨quiet, root, workers, swap _ _ _ _ _ _ quiet root workers (by decide) _ [],
    (taken _).mpr ⟨_, all, rfl⟩⟩

end CommandLine
end TaskHost
