/-
# The registry of callbacks

A registry holds one callback for each registered task and the task that is
running. Registering a task also queues its id with the host; if the host
refuses, the callback is taken out again, and the registry has what it had
(`Registry.register_eq`).

Key definitions: `Registry`, `Registry.refusal?`, `Registry.take`, `Registry.register`.
-/
import TaskHost.Host.Basic
import TaskHost.Worker.Error

namespace TaskHost

/-- Callbacks by task, in the order in which they were registered, and the task
whose callback is running. -/
structure Registry (φ : Type) where
  callbacks : List (TaskId × φ)
  running : Option TaskId

namespace Registry

variable {φ : Type}

/-- No callback, and nothing running. -/
def empty : Registry φ := ⟨[], none⟩

def callback? (r : Registry φ) (task : TaskId) : Option φ := r.callbacks.lookup task

def contains (r : Registry φ) (task : TaskId) : Bool := (r.callback? task).isSome

def size (r : Registry φ) : Nat := r.callbacks.length

def isEmpty (r : Registry φ) : Bool := r.callbacks.isEmpty

/-- Puts an id before the first larger one. -/
def insertId (id : TaskId) : List TaskId → List TaskId
  | [] => [id]
  | a :: rest => if (id.compare a).isLE then id :: a :: rest else a :: insertId id rest

/-- The registered tasks, sorted. -/
def ids (r : Registry φ) : List TaskId :=
  (r.callbacks.map Prod.fst).foldr insertId []

/-- Why a registry itself refuses a task: it is registered, or it is running. -/
def refusal? (r : Registry φ) (task : TaskId) : Option RegistryError :=
  if r.contains task then some (.duplicateTask task)
  else if r.running = some task then some (.taskRunning task)
  else none

def add (r : Registry φ) (task : TaskId) (callback : φ) : Registry φ :=
  { r with callbacks := r.callbacks ++ [(task, callback)] }

/-- Takes the callback of a task out. -/
def take (r : Registry φ) (task : TaskId) : Option φ × Registry φ :=
  (r.callback? task, { r with callbacks := r.callbacks.filter fun c => c.1 ≠ task })

/-- Registers a callback and queues its task for a context. The callback is added
first, and taken out again if the host refuses. -/
def register (r : Registry φ) (h : Host) (context : ContextId) (task : TaskId) (callback : φ) :
    Registry φ × Host × Except RegistryError Unit :=
  match r.refusal? task with
  | some e => (r, h, .error e)
  | none =>
    let added := r.add task callback
    match h.registerTask context task with
    | (h, .error e) => ((added.take task).2, h, .error (.host e))
    | (h, .ok ()) => (added, h, .ok ())

def begin (r : Registry φ) (task : TaskId) : Registry φ := { r with running := some task }

def finish (r : Registry φ) : Registry φ := { r with running := none }

/-! ### Taking back what was added -/

theorem callback?_eq_none_of_refusal? {r : Registry φ} {task : TaskId} (h : r.refusal? task = none) :
    r.callback? task = none := by
  unfold refusal? contains at h
  cases hc : r.callback? task with
  | none => rfl
  | some f => simp [hc] at h

theorem take_add {r : Registry φ} {task : TaskId} (fresh : r.callback? task = none) (callback : φ) :
    ((r.add task callback).take task).2 = r := by
  have others : ∀ c ∈ r.callbacks, c.1 ≠ task := by
    intro c hc same
    have absent := List.lookup_eq_none_iff.mp fresh c hc
    simp [same] at absent
  obtain ⟨callbacks, running⟩ := r
  have kept : callbacks.filter (fun c => decide (c.1 ≠ task)) = callbacks :=
    List.filter_eq_self.mpr fun c hc => decide_eq_true (others c hc)
  simp only [take, add, List.filter_append, kept]
  simp

/-- A registration that the host refuses leaves the registry as it was. -/
theorem register_eq (r : Registry φ) (h : Host) (context : ContextId) (task : TaskId) (callback : φ) :
    r.register h context task callback =
      match r.refusal? task with
      | some e => (r, h, .error e)
      | none =>
        match h.registerTask context task with
        | (h, .error e) => (r, h, .error (.host e))
        | (h, .ok ()) => (r.add task callback, h, .ok ()) := by
  unfold register
  cases hf : r.refusal? task with
  | some e => rfl
  | none =>
    obtain ⟨k, _ | u⟩ := h.registerTask context task
    · simp only [take_add (callback?_eq_none_of_refusal? hf)]
    · rfl

end Registry
end TaskHost
