/-
# A console transcript tells the calls apart

What the console prints for a sequence of calls can be taken apart again: into
lines, since a line holds no line feed but its last character, and each line into
the stream and the arguments, since an argument is read back from its text
whatever stands in its strings.

Key definitions: `ConsoleStream.transcript`.
Key theorems: `ConsoleStream.joinArgs_append_inj`, `ConsoleStream.printable_line`,
`ConsoleStream.transcript_decodes`.
-/
import TaskHost.Console
import TaskHost.Proofs.JsonTexts

namespace TaskHost

/-! ### No control characters in the text of a value -/

/-- No control characters: space and everything above it. -/
def Printable (s : List Char) : Prop := ∀ c ∈ s, 32 ≤ c.toNat

instance (s : List Char) : Decidable (Printable s) := List.decidableBAll _ s

namespace Printable

theorem cons {c : Char} {s : List Char} (hc : 32 ≤ c.toNat) (hs : Printable s) : Printable (c :: s) :=
  List.forall_mem_cons.mpr ⟨hc, hs⟩

theorem append {s t : List Char} (hs : Printable s) (ht : Printable t) : Printable (s ++ t) :=
  List.forall_mem_append.mpr ⟨hs, ht⟩

theorem fixed (width n : Nat) : Printable (Hex.fixed width n) := by
  have digit : ∀ n < 16, 32 ≤ (Hex.digit n).toNat := by decide
  induction width generalizing n with
  | zero => exact fun c hc => absurd hc List.not_mem_nil
  | succ width ih =>
    exact (ih (n / 16)).append (cons (digit _ (Nat.mod_lt n (by decide))) (by decide))

theorem escapeChar (c : Char) : Printable (Json.escapeChar c) := by
  unfold Json.escapeChar
  repeat' split
  all_goals first
    | decide
    | skip
  · exact cons (by decide) (cons (by decide) (fixed 4 c.toNat))
  · exact cons (by omega) (by decide)

theorem quote (s : List Char) : Printable (Json.quote s) := by
  refine cons (by decide) (append ?_ (by decide))
  intro c hc
  obtain ⟨d, -, hd⟩ := List.mem_flatMap.mp hc
  exact escapeChar d c hd

theorem toDigits (n : Nat) : Printable (Nat.toDigits 10 n) := by
  intro c hc
  have digit := Nat.isDigit_of_mem_toDigits (by decide) (by decide) hc
  simp only [Char.isDigit, Bool.and_eq_true, decide_eq_true_eq] at digit
  exact Nat.le_trans (by decide) (UInt32.le_iff_toNat_le.mp digit.1)

theorem renderWhole (n : Int) : Printable (Json.renderWhole n) := by
  cases n with
  | ofNat n => exact toDigits n
  | negSucc n => exact cons (by decide) (toDigits (n + 1))

theorem renderItems {items : List Json} (each : ∀ j ∈ items, Printable j.render) :
    Printable (Json.renderItems items) := by
  induction items with
  | nil => decide
  | cons j items ih =>
    exact cons (by decide) ((each j (by simp)).append (ih fun i hi => each i (by simp [hi])))

theorem renderFields {fields : List (String × Json)} (each : ∀ f ∈ fields, Printable f.2.render) :
    Printable (Json.renderFields fields) := by
  induction fields with
  | nil => decide
  | cons f fields ih =>
    refine cons (by decide) ((quote f.1.toList).append (cons (by decide) ?_))
    exact (each f (by simp)).append (ih fun g hg => each g (by simp [hg]))

theorem render {j : Json} (h : j.Canonical) : Printable j.render := by
  induction h with
  | null => decide
  | bool b => cases b <;> decide
  | whole _ => exact renderWhole _
  | string s => exact quote s.toList
  | @array items _ each =>
    cases items with
    | nil => decide
    | cons j items =>
      exact cons (by decide) ((each j (by simp)).append (renderItems fun i hi => each i (by simp [hi])))
  | @object fields _ _ each =>
    cases fields with
    | nil => decide
    | cons f fields =>
      refine cons (by decide) ((quote f.1.toList).append (cons (by decide) ?_))
      exact (each f (by simp)).append (renderFields fun g hg => each g (by simp [hg]))

end Printable

namespace ConsoleStream

theorem toList_tag (s : ConsoleStream) :
    s.tag.toList = ['['] ++ (match s with | .out => ['o', 'u', 't'] | .err => ['e', 'r', 'r'])
      ++ [']', ':', ' '] := by
  cases s <;> exact String.toList_ofList

/-! ### Lines -/

theorem printable_joinArgs {args : List Json} (canonical : ∀ j ∈ args, j.Canonical) :
    Printable (joinArgs args) := by
  induction args with
  | nil => decide
  | cons j args ih =>
    have first : Printable j.render := .render (canonical j (by simp))
    cases args with
    | nil => exact first
    | cons i args => exact first.append (.cons (by decide) (ih fun k hk => canonical k (by simp [hk])))

/-- A line holds no control character but the line feed at its end. -/
theorem printable_line (s : ConsoleStream) {args : List Json} (canonical : ∀ j ∈ args, j.Canonical) :
    ∃ body, (s.line args).toList = body ++ ['\n'] ∧ Printable body := by
  refine ⟨s.tag.toList ++ joinArgs args, String.toList_ofList, .append ?_ (printable_joinArgs canonical)⟩
  rw [toList_tag]
  cases s <;> decide

/-! ### Taking a line apart -/

/-- What stands after the first argument of a line. -/
def afterFirst (rest : List Json) (s : List Char) : List Char :=
  match rest with
  | [] => '\n' :: s
  | _ :: _ => ' ' :: (joinArgs rest ++ '\n' :: s)

theorem joinArgs_cons_append (j : Json) (rest : List Json) (s : List Char) :
    joinArgs (j :: rest) ++ '\n' :: s = j.render ++ afterFirst rest s := by
  cases rest <;> simp [joinArgs, afterFirst]

theorem closes_afterFirst (rest : List Json) (s : List Char) : Json.Closes (afterFirst rest s) := by
  cases rest <;> simp [afterFirst, Json.Closes]

theorem joinArgs_cons_ne {j : Json} (h : j.Canonical) (rest : List Json) (s t : List Char) :
    joinArgs (j :: rest) ++ '\n' :: s ≠ '\n' :: t := by
  intro same
  obtain ⟨c, cs, hj, hc⟩ := h.opens
  rw [joinArgs_cons_append, hj, List.cons_append] at same
  exact hc.2.1 (List.cons.inj same).1

/-- The arguments of a line can be read off it, whatever lines follow. -/
theorem joinArgs_append_inj {args args' : List Json} (h : ∀ j ∈ args, j.Canonical)
    (h' : ∀ j ∈ args', j.Canonical) {s t : List Char}
    (same : joinArgs args ++ '\n' :: s = joinArgs args' ++ '\n' :: t) : args = args' ∧ s = t := by
  induction args generalizing args' with
  | nil =>
    cases args' with
    | nil => simpa [joinArgs] using same
    | cons j' rest' => exact absurd same.symm (joinArgs_cons_ne (h' j' (by simp)) rest' t s)
  | cons j rest ih =>
    cases args' with
    | nil => exact absurd same (joinArgs_cons_ne (h j (by simp)) rest s t)
    | cons j' rest' =>
      rw [joinArgs_cons_append, joinArgs_cons_append] at same
      obtain ⟨first, after⟩ := (h j (by simp)).render_append_inj (h' j' (by simp))
        (closes_afterFirst rest s) (closes_afterFirst rest' t) same
      subst first
      cases rest with
      | nil =>
        cases rest' with
        | nil => simpa [afterFirst] using after
        | cons _ _ => simp [afterFirst] at after
      | cons i rest =>
        cases rest' with
        | nil => simp [afterFirst] at after
        | cons i' rest' =>
          obtain ⟨args, lines⟩ := ih (fun k hk => h k (List.mem_cons_of_mem j hk))
            (fun k hk => h' k (List.mem_cons_of_mem j hk)) (List.cons.inj after).2
          exact ⟨congrArg (j :: ·) args, lines⟩

/-- The two tags are equally long and different. -/
theorem tag_append_inj {a b : ConsoleStream} {s t : List Char}
    (same : a.tag.toList ++ s = b.tag.toList ++ t) : a = b ∧ s = t := by
  rw [toList_tag, toList_tag] at same
  cases a <;> cases b <;> simp at same ⊢
  all_goals exact same

/-! ### Transcripts -/

/-- What the console prints for calls, one after the other. -/
def transcript (calls : List (ConsoleStream × List Json)) : String :=
  String.join (calls.map fun c => c.1.line c.2)

theorem toList_transcript_cons (c : ConsoleStream × List Json) (calls : List (ConsoleStream × List Json)) :
    (transcript (c :: calls)).toList =
      c.1.tag.toList ++ (joinArgs c.2 ++ '\n' :: (transcript calls).toList) := by
  simp [transcript, line]

theorem transcript_cons_ne_nil (c : ConsoleStream × List Json) (calls : List (ConsoleStream × List Json)) :
    transcript (c :: calls) ≠ transcript [] := by
  intro same
  have texts := congrArg String.toList same
  rw [toList_transcript_cons] at texts
  simp [transcript] at texts

/-- A transcript tells which calls were made, with which arguments; and each line
of it ends with its only line feed. -/
theorem transcript_decodes {calls calls' : List (ConsoleStream × List Json)}
    (h : ∀ c ∈ calls, ∀ j ∈ c.2, j.Canonical) (h' : ∀ c ∈ calls', ∀ j ∈ c.2, j.Canonical) :
    (transcript calls = transcript calls' → calls = calls') ∧
      ∀ c ∈ calls, ∃ body, (c.1.line c.2).toList = body ++ ['\n'] ∧ Printable body := by
  refine ⟨fun same => ?_, fun c hc => printable_line c.1 (h c hc)⟩
  induction calls generalizing calls' with
  | nil =>
    cases calls' with
    | nil => rfl
    | cons c' calls' => exact absurd same.symm (transcript_cons_ne_nil c' calls')
  | cons c calls ih =>
    cases calls' with
    | nil => exact absurd same (transcript_cons_ne_nil c calls)
    | cons c' calls' =>
      have texts := congrArg String.toList same
      rw [toList_transcript_cons, toList_transcript_cons] at texts
      obtain ⟨stream, texts⟩ := tag_append_inj texts
      obtain ⟨args, rest⟩ := joinArgs_append_inj (h c (by simp)) (h' c' (by simp)) texts
      have tail := ih (fun d hd => h d (by simp [hd])) (fun d hd => h' d (by simp [hd]))
        (String.toList_inj.mp rest)
      rw [tail, Prod.ext stream args]

/-- A string that holds a whole line, and the calls that it was made up from, do
not print the same. -/
theorem transcript_decodes_quoted :
    let calls := [(ConsoleStream.out, [Json.string "a\"\n[err]: \x7b\"k\":[1]\x7d", .null]), (.err, [])]
    let calls' := [(ConsoleStream.out, [Json.string "a"]),
      (.err, [.object [("k", .array [.number (.whole (-0x8000000000000000)), .bool true])], .null])]
    transcript calls ≠ transcript calls' ∧
      ∀ c ∈ calls, ∃ body, (c.1.line c.2).toList = body ++ ['\n'] ∧ Printable body := by
  intro calls calls'
  have h : ∀ c ∈ calls, ∀ j ∈ c.2, j.Canonical := by
    simp only [calls, List.forall_mem_cons, List.not_mem_nil, false_imp_iff, implies_true, and_true]
    exact ⟨.string _, .null⟩
  have h' : ∀ c ∈ calls', ∀ j ∈ c.2, j.Canonical := by
    simp only [calls', List.forall_mem_cons, List.not_mem_nil, false_imp_iff, implies_true, and_true]
    refine ⟨.string _, .object (by simp) ?_, .null⟩
    simp only [List.forall_mem_cons, List.not_mem_nil, false_imp_iff, implies_true, and_true]
    refine .array ?_
    simp only [List.forall_mem_cons, List.not_mem_nil, false_imp_iff, implies_true, and_true]
    exact ⟨.whole ⟨by decide, by decide⟩, .bool true⟩
  have decodes := transcript_decodes h h'
  exact ⟨fun same => absurd (decodes.1 same) (by simp [calls, calls']), decodes.2⟩

end ConsoleStream
end TaskHost
