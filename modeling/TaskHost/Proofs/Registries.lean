/-
# Facts about registries

A registry is an association list. Tasks that are registered are the keys of the
list (`Registry.tasks`); adding a callback for a new task puts its key at the end,
taking a callback out removes its key.

Key definitions: `Registry.tasks`.
Key theorems: `Registry.isSome_callback?_iff`, `Registry.callback?_add`,
`Registry.callback?_take`, `Registry.refusal?_eq_none_iff`.
-/
import Mathlib.Tactic.Common
import TaskHost.Worker.Registry

namespace TaskHost
namespace Registry

variable {φ : Type} {r : Registry φ} {task key : TaskId} {callback : φ}

/-- The registered tasks, in the order in which they were registered. -/
def tasks (r : Registry φ) : List TaskId := r.callbacks.map Prod.fst

theorem isSome_callback?_iff : (r.callback? task).isSome ↔ task ∈ r.tasks := by
  obtain ⟨callbacks, running⟩ := r
  simp only [callback?, tasks]
  induction callbacks with
  | nil => simp
  | cons c rest ih =>
    obtain ⟨k, f⟩ := c
    by_cases hk : task = k
    · subst hk
      simp
    · have hne : (task == k) = false := by simpa using hk
      simp only [List.lookup_cons, hne, List.map_cons, List.mem_cons, hk, false_or]
      exact ih

theorem callback?_eq_none_iff : r.callback? task = none ↔ task ∉ r.tasks := by
  rw [← isSome_callback?_iff]
  cases r.callback? task <;> simp

theorem mem_of_callback? (h : r.callback? task = some callback) : (task, callback) ∈ r.callbacks := by
  obtain ⟨callbacks, running⟩ := r
  simp only [callback?] at h
  induction callbacks with
  | nil => simp at h
  | cons c rest ih =>
    obtain ⟨k, f⟩ := c
    by_cases hk : task = k
    · subst hk
      simp only [List.lookup_cons, beq_self_eq_true, Option.some.injEq] at h
      subst h
      exact List.mem_cons_self
    · have hne : (task == k) = false := by simpa using hk
      simp only [List.lookup_cons, hne] at h
      exact List.mem_cons_of_mem _ (ih h)

/-! ### Adding and taking -/

theorem tasks_add : (r.add task callback).tasks = r.tasks ++ [task] := by
  simp [tasks, add]

theorem tasks_take : (r.take task).2.tasks = r.tasks.filter fun t => t ≠ task := by
  simp only [tasks, take, List.filter_map]
  rfl

theorem callback?_add (fresh : r.callback? task = none) (key : TaskId) :
    (r.add task callback).callback? key = if key = task then some callback else r.callback? key := by
  simp only [callback?, add, List.lookup_append] at fresh ⊢
  by_cases hk : key = task
  · subst hk
    simp [fresh]
  · have hne : (key == task) = false := by simpa using hk
    cases r.callbacks.lookup key <;> simp [List.lookup_cons, hne, hk]

theorem callback?_take (key : TaskId) :
    (r.take task).2.callback? key = if key = task then none else r.callback? key := by
  obtain ⟨callbacks, running⟩ := r
  simp only [callback?, take]
  induction callbacks with
  | nil => simp
  | cons c rest ih =>
    obtain ⟨k, f⟩ := c
    by_cases hk : k = task
    · subst hk
      simp only [List.filter_cons, ne_eq, not_true_eq_false, decide_false, Bool.false_eq_true,
        if_false, List.lookup_cons]
      rw [ih]
      by_cases hkey : key = k
      · simp [hkey]
      · have hne : (key == k) = false := by simpa using hkey
        simp [hkey, hne]
    · simp only [List.filter_cons, ne_eq, hk, not_false_eq_true, decide_true, if_true,
        List.lookup_cons]
      rw [ih]
      by_cases hkey : key = k
      · subst hkey
        simp [hk]
      · have hne : (key == k) = false := by simpa using hkey
        simp [hne]

/-! ### Refusals -/

/-- A registry refuses a task that is registered or running, and no other. -/
theorem refusal?_eq_none_iff :
    r.refusal? task = none ↔ task ∉ r.tasks ∧ r.running ≠ some task := by
  rw [← isSome_callback?_iff]
  unfold refusal? contains
  by_cases hc : (r.callback? task).isSome
  · simp [hc]
  · by_cases hr : r.running = some task <;> simp [hc, hr]

end Registry
end TaskHost
