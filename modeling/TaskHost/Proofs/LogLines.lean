/-
# The lines of a printed log

The text of an entry ends with a line feed, and has another one for each that stands in its
message or in one of its fields, since these are printed as they are
(`LogEntry.count_render`). So an entry is one line if it is plain, that is, if there is no line
feed in it (`LogEntry.IsPlain`), and a log that was printed can be cut into its entries, one
line for each, exactly if all of them are plain (`LogEntry.length_splitOn_text`,
`LogEntry.splitOn_text`).

What a loop logs of a drain is plain; what it logs of failures and skipped tasks is plain as far
as task tokens and texts of errors are (`LogEntry.isPlain_taskFailed` and others).

Key definitions: `LogEntry.line`, `LogEntry.breaks`, `LogEntry.IsPlain`, `LogEntry.text`,
`Minutes.printedEntries`, `Minutes.logText`.
Key theorems: `LogEntry.count_render`, `LogEntry.length_splitOn_text`,
`LogEntry.splitOn_text`, `LogEntry.one_line_iff_plain`.
-/
import TaskHost.Proofs.Outputs
import TaskHost.Proofs.Transcripts

namespace TaskHost
namespace LogEntry

/-! ### The line of an entry -/

/-- What stands before the message. -/
def head (e : LogEntry) : List Char :=
  '[' :: e.level.name.toList ++ ']' :: (match e.source with
    | some w => " worker ".toList ++ w.short.toList
    | none => []) ++ [' ']

/-- What is printed of a field. -/
def fieldText (f : String × String) : List Char := ' ' :: f.1.toList ++ '=' :: f.2.toList

/-- What is printed of an entry before the line feed at the end. -/
def line (e : LogEntry) : List Char := e.head ++ e.message.toList ++ e.fields.flatMap fieldText

/-- The line feeds in the message and in the fields. -/
def breaks (e : LogEntry) : Nat :=
  e.message.toList.count '\n'
    + (e.fields.map fun f => f.1.toList.count '\n' + f.2.toList.count '\n').sum

/-- Whether there is no line feed in an entry. -/
structure IsPlain (e : LogEntry) : Prop where
  message : '\n' ∉ e.message.toList
  fields : ∀ f ∈ e.fields, '\n' ∉ f.1.toList ∧ '\n' ∉ f.2.toList

theorem render_eq (e : LogEntry) : e.render.toList = e.line ++ ['\n'] := by
  have field : String.toList ∘ renderField = fieldText := by
    funext f
    simp [renderField, fieldText]
  obtain ⟨level, source, message, fields⟩ := e
  simp only [render, String.toList_append, String.toList_join, line, head, List.flatMap_map]
  rw [← field]
  cases source <;> simp [Function.comp_def]

theorem printable_head (e : LogEntry) : Printable e.head := by
  have short (w : WorkerId) : Printable w.short.toList := by
    rw [WorkerId.short, String.toList_ofList]
    exact fun c member => Printable.fixed 32 w.uuid.bits.toNat c (List.mem_of_mem_take member)
  have level : Printable e.level.name.toList := by
    cases e.level <;> decide
  refine ((level.cons (by decide)).append (Printable.cons (by decide) ?_)).append (by decide)
  cases e.source with
  | none => decide
  | some w => exact Printable.append (by decide) (short w)

theorem notMem_of_printable {s : List Char} (printable : Printable s) : '\n' ∉ s :=
  fun member => absurd (printable '\n' member) (by decide)

theorem count_line (e : LogEntry) : e.line.count '\n' = e.breaks := by
  have head : e.head.count '\n' = 0 :=
    List.count_eq_zero.mpr (notMem_of_printable e.printable_head)
  have field (f : String × String) :
      (fieldText f).count '\n' = f.1.toList.count '\n' + f.2.toList.count '\n' := by
    simp [fieldText]
  rw [line, List.count_append, List.count_append, head, List.count_flatMap, Nat.zero_add, breaks]
  simp [Function.comp_def, field]

/-- The text of an entry ends with a line feed, and has another one for each in the entry. -/
theorem count_render (e : LogEntry) : e.render.toList.count '\n' = e.breaks + 1 := by
  rw [render_eq, List.count_append, count_line]
  rfl

theorem isPlain_iff (e : LogEntry) : e.IsPlain ↔ e.breaks = 0 := by
  rw [breaks, Nat.add_eq_zero_iff, List.count_eq_zero, List.sum_eq_zero_iff_forall_eq_nat]
  constructor
  · rintro ⟨message, fields⟩
    refine ⟨message, fun n member => ?_⟩
    obtain ⟨f, listed, rfl⟩ := List.mem_map.mp member
    rw [List.count_eq_zero.mpr (fields f listed).1, List.count_eq_zero.mpr (fields f listed).2]
  · rintro ⟨message, fields⟩
    refine ⟨message, fun f member => ?_⟩
    obtain ⟨key, value⟩ := Nat.add_eq_zero_iff.mp (fields _ (List.mem_map_of_mem member))
    exact ⟨List.count_eq_zero.mp key, List.count_eq_zero.mp value⟩

instance (e : LogEntry) : Decidable e.IsPlain := decidable_of_iff _ e.isPlain_iff.symm

/-! ### The text of a log -/

/-- The texts of entries, one after the other. -/
def text (es : List LogEntry) : List Char := es.flatMap fun e => e.render.toList

theorem length_splitOn (s : List Char) : (s.splitOn '\n').length = s.count '\n' + 1 := by
  induction s with
  | nil => rfl
  | cons c rest ih =>
    rw [List.splitOn_cons_eq_if_modifyHead]
    by_cases feed : c = '\n' <;> simp [feed, ih]

/-- The text of entries is cut into the entries, what stands after the last one, and one piece
more for each line feed in an entry. -/
theorem length_splitOn_text (es : List LogEntry) :
    ((text es).splitOn '\n').length = es.length + 1 + (es.map breaks).sum := by
  have feeds : (text es).count '\n' = es.length + (es.map breaks).sum := by
    induction es with
    | nil => rfl
    | cons e rest ih =>
      rw [text, List.flatMap_cons, List.count_append, count_render, List.length_cons,
        List.map_cons, List.sum_cons]
      rw [text] at ih
      omega
  rw [length_splitOn, feeds]
  omega

/-- The text of plain entries is cut into their lines. -/
theorem splitOn_text {es : List LogEntry} (plain : ∀ e ∈ es, e.IsPlain) :
    (text es).splitOn '\n' = es.map line ++ [[]] := by
  induction es with
  | nil => rfl
  | cons e rest ih =>
    have own : '\n' ∉ e.line := by
      rw [← List.count_eq_zero, count_line]
      exact e.isPlain_iff.mp (plain e List.mem_cons_self)
    rw [text, List.flatMap_cons, render_eq, List.append_assoc, List.singleton_append,
      List.splitOn_append_cons_self_of_not_mem own, List.map_cons, List.cons_append]
    exact congrArg (e.line :: ·) (ih fun d member => plain d (List.mem_cons_of_mem e member))

/-! ### What loops log -/

theorem isPlain_ofMessage (level : LogLevel) {message : String} (plain : '\n' ∉ message.toList) :
    (ofMessage level message).IsPlain := ⟨plain, fun _ member => nomatch member⟩

theorem isPlain_withField (e : LogEntry) (key value : String) :
    (e.withField key value).IsPlain
      ↔ e.IsPlain ∧ '\n' ∉ key.toList ∧ '\n' ∉ value.toList := by
  constructor
  · rintro ⟨message, fields⟩
    refine ⟨⟨message, fun f member => fields f (List.mem_append_left _ member)⟩, ?_⟩
    exact fields (key, value) (List.mem_append_right _ (List.mem_singleton_self _))
  · rintro ⟨⟨message, fields⟩, new⟩
    refine ⟨message, fun f member => ?_⟩
    rcases List.mem_append.mp member with old | last
    · exact fields f old
    · exact List.mem_singleton.mp last ▸ new

theorem notMem_toString (n : Nat) : '\n' ∉ (toString n).toList := by
  rw [show toString n = n.repr from rfl, Nat.toList_repr]
  exact notMem_of_printable (Printable.toDigits n)

theorem isPlain_drainFinished (r : DrainReport) : (drainFinished r).IsPlain := by
  have message : (ofMessage .info "drain finished").IsPlain := isPlain_ofMessage _ (by decide)
  simp only [drainFinished, isPlain_withField]
  exact ⟨⟨⟨message, by decide, notMem_toString _⟩, by decide, notMem_toString _⟩, by decide,
    notMem_toString _⟩

theorem isPlain_taskSkipped (task : TaskId) :
    (taskSkipped task).IsPlain ↔ '\n' ∉ task.token.toList := by
  have message : (ofMessage .debug "pulled task has no callback").IsPlain :=
    isPlain_ofMessage _ (by decide)
  simp [taskSkipped, isPlain_withField, message]

/-- What is logged of a failed task is plain if its token and the text of the error are. -/
theorem isPlain_taskFailed (task : TaskId) (e : TaskError) :
    (taskFailed task e).IsPlain ↔ '\n' ∉ task.token.toList ∧ '\n' ∉ e.message.toList := by
  have message : (ofMessage .error "task failed").IsPlain := isPlain_ofMessage _ (by decide)
  simp [taskFailed, isPlain_withField, message]

/-- What is logged of a failed timer is plain if the text of the error is, and the token of the
task that it belongs to. -/
theorem isPlain_timerFailed (timer : TimerId) (e : TaskError) (origin : Option TaskId) :
    (timerFailed timer e origin).IsPlain
      ↔ '\n' ∉ e.message.toList ∧ ∀ task ∈ origin, '\n' ∉ task.token.toList := by
  have message : (ofMessage .error "timer callback failed").IsPlain :=
    isPlain_ofMessage _ (by decide)
  have named : '\n' ∉ timer.toText.toList := by
    have prefixed : timer.toText = "timer:" ++ toString timer.number := rfl
    rw [prefixed, String.toList_append, List.mem_append]
    rintro (own | digits)
    · exact absurd own (by decide)
    · exact notMem_toString _ digits
  cases origin <;> simp [timerFailed, isPlain_withField, message, named]

end LogEntry

/-! ### What is printed of logs -/

/-- The entry that is printed, with its source. -/
def Notice.printed? : Notice → Option LogEntry
  | .entry source threshold e =>
    if threshold.rank ≤ e.level.rank then some (e.ofSource source) else none
  | _ => none

namespace Minutes

/-- The entries that are printed. -/
def printedEntries (m : Minutes) : List LogEntry := m.filterMap fun n => n.2.printed?

/-- The minutes of what is logged. -/
def ofLogs (m : Minutes) : Minutes := m.filter fun n => n.2.recorded?.isSome

/-- What is printed of logs. -/
def logText (m : Minutes) : List Char := m.ofLogs.lines.flatMap fun l => l.line.toList

/-- What is printed of logs is the text of the entries that are printed. -/
theorem logText_eq (m : Minutes) : m.logText = LogEntry.text m.printedEntries := by
  induction m with
  | nil => rfl
  | cons n rest ih =>
    obtain ⟨who, n⟩ := n
    cases n with
    | entry source threshold e =>
      have text : logText ((who, .entry source threshold e) :: rest)
          = (Notice.entry source threshold e).lines.flatMap (fun l => l.line.toList)
            ++ logText rest := List.flatMap_append
      rw [text, ih, Notice.lines]
      by_cases reached : threshold.rank ≤ e.level.rank
      · have printed : printedEntries ((who, .entry source threshold e) :: rest)
            = e.ofSource source :: printedEntries rest :=
          List.filterMap_cons_some (if_pos reached)
        rw [if_pos reached, printed, List.flatMap_singleton]
        rfl
      · have kept : printedEntries ((who, .entry source threshold e) :: rest)
            = printedEntries rest := List.filterMap_cons_none (if_neg reached)
        rw [if_neg reached, kept]
        rfl
    | _ => exact ih

end Minutes

/-- **An entry is one line exactly if it is plain.** The text of an entry ends with a line feed
and has another one for each in its message and its fields, whatever they come from; so it is
one line if and only if there is none. What is printed of the logs of workers on a floor is cut
at its line feeds into one piece for each entry, with nothing after the last one, if and only if
all of these entries are plain; the pieces are then their lines. What a loop logs of a drain is
plain; what it logs of failures and skipped tasks is plain as far as task tokens and the texts
of errors are. -/
theorem LogEntry.one_line_iff_plain (e : LogEntry) (f : Floor) (is : List Floor.Incident) :
    (e.render.toList = e.line ++ ['\n'] ∧ e.line.count '\n' = e.breaks
      ∧ (e.render.toList.count '\n' = 1 ↔ e.IsPlain))
    ∧ (((f.minutes is).logText.splitOn '\n').length
          = (f.minutes is).printedEntries.length + 1
            + ((f.minutes is).printedEntries.map breaks).sum
        ∧ ((f.minutes is).logText.splitOn '\n' = (f.minutes is).printedEntries.map line ++ [[]]
          ↔ ∀ d ∈ (f.minutes is).printedEntries, d.IsPlain))
    ∧ (∀ r, (drainFinished r).IsPlain)
    ∧ (∀ task, (taskSkipped task).IsPlain ↔ '\n' ∉ task.token.toList)
    ∧ (∀ task error, (taskFailed task error).IsPlain
      ↔ '\n' ∉ task.token.toList ∧ '\n' ∉ error.message.toList)
    ∧ ∀ timer error origin, (timerFailed timer error origin).IsPlain
      ↔ '\n' ∉ error.message.toList ∧ ∀ task ∈ origin, '\n' ∉ task.token.toList := by
  refine ⟨⟨e.render_eq, e.count_line, ?_⟩, ?_, isPlain_drainFinished, isPlain_taskSkipped,
    isPlain_taskFailed, isPlain_timerFailed⟩
  · rw [count_render, isPlain_iff]
    omega
  · rw [Minutes.logText_eq]
    refine ⟨length_splitOn_text _, fun cut d member => ?_, fun plain => splitOn_text plain⟩
    have pieces := congrArg List.length cut
    rw [length_splitOn_text, List.length_append, List.length_map, List.length_singleton] at pieces
    have none : ((f.minutes is).printedEntries.map breaks).sum = 0 := by omega
    exact d.isPlain_iff.mpr
      (List.sum_eq_zero_iff_forall_eq_nat.mp none _ (List.mem_map_of_mem member))

/-- Two entries of a worker, which others print in between, are two lines. -/
theorem LogEntry.one_line_iff_plain_twoPrinters :
    (Floor.minutes ⟨.empty, []⟩ twoPrinters).logText.splitOn '\n'
      = ["[info] worker 0000000 seen", "[error] worker 0000000 task failed task=task error=no",
        ""].map String.toList := by
  rw [(one_line_iff_plain (.ofMessage .info "seen") ⟨.empty, []⟩ twoPrinters).2.1.2.mpr
    (by decide +kernel)]
  decide +kernel

/-- A worker that runs a task whose token holds a line feed. -/
def brokenToken : List Floor.Incident :=
  [.event (.spawn ⟨"worker", none⟩ none),
    .event (.begins 0 (.act (.register ⟨"two\nlines"⟩ [.fail "no"]))), .event (.turns 0),
    .event (.begins 0 .drain)] ++ List.replicate 12 (.event (.turns 0))

/-- An entry with a line feed in its message is more than one line, and so is the entry of a task
that fails whose token holds one. -/
theorem LogEntry.broken_lines :
    ¬ ((∀ e : LogEntry, e.render.toList.count '\n' = 1)
      ∨ ∀ is : List Floor.Incident,
        ((Floor.minutes ⟨.empty, []⟩ is).logText.splitOn '\n').length
          = (Floor.minutes ⟨.empty, []⟩ is).printedEntries.length + 1) := by
  rintro (entries | runs)
  · exact absurd (entries (.ofMessage .info "a\nb")) (by decide +kernel)
  · exact absurd (runs brokenToken) (by decide +kernel)

end TaskHost
