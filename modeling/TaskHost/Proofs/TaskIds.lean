/-
# Ids of the tasks of a workload

The ids of a workload stand family by family, in each family by number: the id of a member is
found at the number of ids of the families before its own, plus its own number
(`Workload.getElem?_taskIds`). The number after the last hyphen of an id tells the member, and
what stands before that hyphen the family, also if the family's name has hyphens and digits of
its own (`Workload.taskId_eq_iff`). So an id occurs as often as its family is named
(`Workload.count_taskIds`), and ids collide only when names do (`Workload.ids_collide_with_names`).

Key theorems: `Workload.taskId_eq_iff`, `Workload.getElem?_taskIds`, `Workload.count_taskIds`,
`Workload.nodup_taskIds_iff`, `Workload.ids_collide_with_names`.
-/
import Mathlib.Data.List.Nodup
import Mathlib.Data.List.Range
import TaskHost.Workload

namespace TaskHost

/-- What stands before and after the last separator. -/
theorem append_cons_inj {α : Type} {sep : α} {a b x y : List α} (hx : sep ∉ x) (hy : sep ∉ y)
    (h : a ++ sep :: x = b ++ sep :: y) : a = b ∧ x = y := by
  induction a generalizing b with
  | nil =>
    cases b with
    | nil => exact ⟨rfl, (List.cons.inj h).2⟩
    | cons c rest =>
      have tail : x = rest ++ sep :: y := (List.cons.inj h).2
      exact absurd (tail ▸ List.mem_append_right _ List.mem_cons_self) hx
  | cons c rest ih =>
    cases b with
    | nil =>
      have tail : rest ++ sep :: x = y := (List.cons.inj h).2
      exact absurd (tail ▸ List.mem_append_right _ List.mem_cons_self) hy
    | cons d others =>
      obtain ⟨rfl, tail⟩ := List.cons.inj h
      obtain ⟨rfl, same⟩ := ih tail
      exact ⟨rfl, same⟩

/-- In rows of `n` items each, the item `k` of row `i` has `i * n + k` items before it. -/
theorem getElem?_rows {α β : Type} (f : α → Nat → β) (rows : List α) {n k : Nat} (hk : k < n)
    (i : Nat) : (rows.flatMap fun a => (List.range n).map (f a))[i * n + k]?
      = rows[i]?.map fun a => f a k := by
  induction rows generalizing i with
  | nil => simp
  | cons a rest ih =>
    cases i with
    | zero =>
      have first : k < ((List.range n).map (f a)).length := by simpa using hk
      rw [Nat.zero_mul, Nat.zero_add, List.flatMap_cons, List.getElem?_append_left first]
      simp [hk]
    | succ i =>
      have length : ((List.range n).map (f a)).length = n := by simp
      have place : (i + 1) * n + k = n + (i * n + k) := by
        rw [Nat.succ_mul]
        omega
      have beyond : ((List.range n).map (f a)).length ≤ n + (i * n + k) := by
        rw [length]
        omega
      rw [place, List.flatMap_cons, List.getElem?_append_right beyond, length,
        Nat.add_sub_cancel_left, ih, List.getElem?_cons_succ]

namespace Workload

variable {w : Workload} {family other : String} {m n : Nat}

theorem hyphen_not_mem_repr (n : Nat) : '-' ∉ n.repr.toList := by
  intro h
  rw [Nat.toList_repr] at h
  have digit := Nat.isDigit_of_mem_toDigits (by decide) (by decide) h
  exact absurd digit (by decide)

theorem taskId_inj (h : taskId family m = taskId other n) : family = other ∧ m = n := by
  have texts := congrArg (fun task => task.token.toList) h
  simp only [taskId, String.toList_append, List.append_assoc] at texts
  obtain ⟨families, members⟩ :=
    append_cons_inj (hyphen_not_mem_repr m) (hyphen_not_mem_repr n) texts
  have numbers := congrArg (fun digits => Nat.ofDigitChars 10 digits 0) members
  simp only [Nat.toList_repr, Nat.ofDigitChars_ten_toDigits] at numbers
  exact ⟨String.toList_inj.mp families, numbers⟩

theorem taskId_eq_iff : taskId family m = taskId other n ↔ family = other ∧ m = n := by
  constructor
  · exact taskId_inj
  · rintro ⟨rfl, rfl⟩
    rfl

/-- The ids stand family by family. -/
theorem getElem?_taskIds (w : Workload) (i : Nat) (hm : m < w.subTasks) :
    w.taskIds[i * w.subTasks + m]? = w.mainTasks[i]?.map fun family => taskId family m :=
  getElem?_rows taskId w.mainTasks hm i

theorem length_taskIds (w : Workload) : w.taskIds.length = w.mainTasks.length * w.subTasks := by
  unfold taskIds
  induction w.mainTasks with
  | nil => simp
  | cons family rest ih => simp [ih, Nat.succ_mul, Nat.add_comm]

/-- Among the ids of one family, those of another do not occur, and its own once. -/
theorem count_family (family other : String) (m n : Nat) :
    ((List.range n).map (taskId family)).count (taskId other m)
      = if family = other ∧ m < n then 1 else 0 := by
  induction n with
  | zero => simp
  | succ n ih =>
    rw [List.range_succ, List.map_append, List.count_append, ih, List.map_singleton,
      List.count_singleton]
    by_cases same : family = other
    · by_cases last : n = m
      · simp [same, last]
      · have longer : m < n + 1 ↔ m < n := by omega
        simp [same, last, longer, taskId_eq_iff]
    · simp [same, taskId_eq_iff]

/-- An id occurs as often as its family is named. -/
theorem count_taskIds (w : Workload) (family : String) (m : Nat) :
    w.taskIds.count (taskId family m) = if m < w.subTasks then w.mainTasks.count family else 0 := by
  unfold taskIds
  induction w.mainTasks with
  | nil => simp
  | cons first rest ih =>
    rw [List.flatMap_cons, List.count_append, ih, count_family, List.count_cons]
    by_cases member : m < w.subTasks
    · by_cases same : first = family
      · simp [member, same, Nat.add_comm]
      · simp [member, same]
    · simp [member]

/-- No id occurs twice, unless a family with members does. -/
theorem nodup_taskIds_iff : w.taskIds.Nodup ↔ w.subTasks = 0 ∨ w.mainTasks.Nodup := by
  by_cases empty : w.subTasks = 0
  · have none : w.taskIds = [] := by
      rw [← List.length_eq_zero_iff, length_taskIds, empty, Nat.mul_zero]
    simp [none, empty]
  · have first : 0 < w.subTasks := Nat.pos_of_ne_zero empty
    simp only [empty, false_or, List.nodup_iff_count_le_one]
    constructor
    · intro once family
      have := once (taskId family 0)
      rwa [count_taskIds, if_pos first] at this
    · intro once task
      by_cases there : task ∈ w.taskIds
      · obtain ⟨family, -, member⟩ := List.mem_flatMap.mp there
        obtain ⟨m, -, rfl⟩ := List.mem_map.mp member
        rw [count_taskIds]
        split
        · exact once family
        · exact Nat.zero_le 1
      · rw [List.count_eq_zero.mpr there]
        exact Nat.zero_le 1

/-- **Ids collide only when the names of families do.** There are as many ids as families times
members, family by family, and each is written with its family's name, a hyphen and the member's
number. Two ids are the same only if they are of one name and one number, whatever the names
are; so an id occurs as often as its family is named, and none twice exactly if no family is
named twice or families have no members. -/
theorem ids_collide_with_names (w : Workload) :
    w.taskIds.length = w.mainTasks.length * w.subTasks
    ∧ (∀ (i : Fin w.mainTasks.length) (m : Fin w.subTasks),
      w.taskIds[i * w.subTasks + m]? = some ⟨w.mainTasks[i] ++ "-" ++ toString m.val⟩)
    ∧ (∀ family other m n, taskId family m = taskId other n ↔ family = other ∧ m = n)
    ∧ (∀ family m, w.taskIds.count (taskId family m)
      = if m < w.subTasks then w.mainTasks.count family else 0)
    ∧ (w.taskIds.Nodup ↔ w.subTasks = 0 ∨ w.mainTasks.Nodup) := by
  refine ⟨length_taskIds w, fun i m => ?_, fun _ _ _ _ => taskId_eq_iff, count_taskIds w,
    nodup_taskIds_iff⟩
  rw [getElem?_taskIds w i m.isLt]
  simp [taskId]

/-- Names that end in a hyphen and digits, as ids do. -/
example : taskIds ⟨["a", "a-1", "a-1-1"], 2, 0⟩
    = [⟨"a-0"⟩, ⟨"a-1"⟩, ⟨"a-1-0"⟩, ⟨"a-1-1"⟩, ⟨"a-1-1-0"⟩, ⟨"a-1-1-1"⟩] := by decide +kernel

end Workload
end TaskHost
