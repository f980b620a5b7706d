/-
# The segments of a path

A path is cut at its slashes; parts that are empty or a single dot name no step, the others
are its segments (`HostPath.segmentsOf`). Whether a path leads somewhere can be read off its
segments (`HostPath.IsValid`), and parsing gives them or tells why not
(`HostPath.parse_eq`). No segment is empty or holds a slash, so the segments can be read back
from the text that joins them (`HostPath.segmentsOf_toText`): different segments have
different texts, and one file has one text (`HostPath.toText_inj`).

Key definitions: `HostPath.segmentsOf`, `HostPath.IsValid`.
Key theorems: `HostPath.parse_eq`, `HostPath.segmentsOf_toText`, `HostPath.toText_inj`.
-/
import TaskHost.Host.Path

namespace TaskHost
namespace HostPath

/-! ### Segments -/

/-- The segments of a path: its parts between slashes, less the empty ones and the single
dots. -/
def segmentsOf (path : String) : List String :=
  ((path.toList.splitOn '/').filter fun part => ¬ (part = [] ∨ part = ['.'])).map String.ofList

/-- Whether a path leads to a place below the root: it has a segment, and none that leads
upwards. -/
def IsValid (path : String) : Prop := segmentsOf path ≠ [] ∧ ".." ∉ segmentsOf path

instance (path : String) : Decidable (IsValid path) := inferInstanceAs (Decidable (_ ∧ _))

theorem parts_eq_splitOn (l : List Char) : parts l = l.splitOn '/' := by
  induction l with
  | nil => rfl
  | cons c rest ih =>
    rw [parts, ih, List.splitOn_cons_eq_if_modifyHead]
    simp only [beq_iff_eq]
    split
    · rfl
    · cases cut : rest.splitOn '/' with
      | nil => exact absurd cut (List.splitOn_ne_nil '/' rest)
      | cons part more => rfl

theorem isIdle_iff (part : List Char) : isIdle part = true ↔ part = [] ∨ part = ['.'] := by
  simp [isIdle]

/-- Parsing gives the segments, unless one of them leads upwards or there is none. -/
theorem parse_eq (path : String) :
    parse path = if ".." ∈ segmentsOf path then .error .escapesRoot
      else if segmentsOf path = [] then .error .emptyPath
      else .ok ⟨segmentsOf path⟩ := by
  have steps : (parts path.toList).filter (fun p => !isIdle p)
      = (path.toList.splitOn '/').filter fun part => ¬ (part = [] ∨ part = ['.']) := by
    rw [parts_eq_splitOn]
    refine List.filter_congr fun part _ => ?_
    rw [Bool.eq_iff_iff, Bool.not_eq_true', Bool.eq_false_iff, ne_eq, isIdle_iff,
      decide_eq_true_iff]
  have upwards (steps : List (List Char)) :
      steps.any (· == ['.', '.']) = true ↔ ".." ∈ steps.map String.ofList := by
    have dots : ".." = String.ofList ['.', '.'] := rfl
    rw [List.any_eq_true, List.mem_map]
    refine exists_congr fun part => and_congr_right fun _ => ?_
    rw [beq_iff_eq, dots, String.ofList_inj]
  unfold parse
  simp only [steps, upwards, List.isEmpty_iff, segmentsOf, List.map_eq_nil_iff]

theorem parse_ok_iff {path : String} {p : HostPath} :
    parse path = .ok p ↔ IsValid path ∧ p = ⟨segmentsOf path⟩ := by
  rw [parse_eq, IsValid]
  split
  · next up => simp [up]
  · next plain =>
    split
    · next none => simp [none]
    · next some => simp [plain, some, eq_comm]

/-! ### The text that joins segments -/

/-- What a segment of a path looks like. -/
structure IsSegment (name : String) : Prop where
  slash : '/' ∉ name.toList
  nonempty : name ≠ ""
  step : name ≠ "."

/-- What is cut off holds no slash, and no other characters than the whole. -/
theorem splitOn_part {l part : List Char} (member : part ∈ l.splitOn '/') :
    '/' ∉ part ∧ part ⊆ l := by
  induction l generalizing part with
  | nil => simp_all
  | cons c rest ih =>
    rw [List.splitOn_cons_eq_if_modifyHead] at member
    split at member
    · rcases List.mem_cons.mp member with rfl | later
      · exact ⟨List.not_mem_nil, List.nil_subset _⟩
      · exact ⟨(ih later).1, List.subset_cons_of_subset c (ih later).2⟩
    · next other =>
      cases cut : rest.splitOn '/' with
      | nil => exact absurd cut (List.splitOn_ne_nil '/' rest)
      | cons first more =>
        rw [cut] at member ih
        rcases List.mem_cons.mp member with rfl | later
        · have apart : '/' ≠ c := fun same => other (beq_iff_eq.mpr same.symm)
          obtain ⟨plain, within⟩ := ih List.mem_cons_self
          exact ⟨List.not_mem_cons_of_ne_of_not_mem apart plain, List.cons_subset_cons c within⟩
        · obtain ⟨plain, within⟩ := ih (List.mem_cons_of_mem first later)
          exact ⟨plain, List.subset_cons_of_subset c within⟩

theorem isSegment_of_mem {path name : String} (member : name ∈ segmentsOf path) :
    IsSegment name := by
  obtain ⟨part, kept, rfl⟩ := List.mem_map.mp member
  obtain ⟨cut, named⟩ := List.mem_filter.mp kept
  obtain ⟨nonempty, step⟩ := not_or.mp (of_decide_eq_true named)
  refine ⟨?_, fun e => nonempty ?_, fun e => step ?_⟩
  · rw [String.toList_ofList]
    exact (splitOn_part cut).1
  · exact String.ofList_inj.mp e
  · exact String.ofList_inj.mp e

theorem toList_subset_of_mem {path name : String} (member : name ∈ segmentsOf path) :
    name.toList ⊆ path.toList := by
  obtain ⟨part, kept, rfl⟩ := List.mem_map.mp member
  rw [String.toList_ofList]
  exact (splitOn_part (List.mem_filter.mp kept).1).2

/-- The segments can be read back from their text. -/
theorem segmentsOf_toText {p : HostPath} (segments : ∀ name ∈ p.segments, IsSegment name) :
    segmentsOf p.toText = p.segments := by
  obtain ⟨names⟩ := p
  have text : (toText ⟨names⟩).toList = ['/'].intercalate (names.map String.toList) := by
    rw [toText, String.toList_intercalate]
    rfl
  have named : (names.map String.toList).filter (fun part => ¬ (part = [] ∨ part = ['.']))
      = names.map String.toList := by
    refine List.filter_eq_self.mpr fun part member => ?_
    obtain ⟨name, listed, rfl⟩ := List.mem_map.mp member
    obtain ⟨-, nonempty, step⟩ := segments name listed
    refine decide_eq_true (not_or.mpr ⟨fun e => nonempty ?_, fun e => step ?_⟩)
    · exact String.toList_inj.mp e
    · exact String.toList_inj.mp e
  have back : (names.map String.toList).map String.ofList = names := by
    simp [List.map_map, Function.comp_def]
  unfold segmentsOf
  rw [text]
  cases names with
  | nil => rfl
  | cons name rest =>
    have slashes : ∀ part ∈ (name :: rest).map String.toList, '/' ∉ part := by
      intro part member
      obtain ⟨name, listed, rfl⟩ := List.mem_map.mp member
      exact (segments name listed).slash
    have some : (name :: rest).map String.toList ≠ [] := nofun
    rw [List.splitOn_intercalate '/' slashes some, named, back]

/-- Paths with different segments have different texts. -/
theorem toText_inj {p q : HostPath} (hp : ∀ name ∈ p.segments, IsSegment name)
    (hq : ∀ name ∈ q.segments, IsSegment name) : p.toText = q.toText ↔ p.segments = q.segments := by
  constructor
  · intro same
    rw [← segmentsOf_toText hp, ← segmentsOf_toText hq, same]
  · intro same
    rw [toText, toText, same]

end HostPath
end TaskHost
