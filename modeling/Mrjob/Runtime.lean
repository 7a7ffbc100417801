import Mrjob.Text

/-!
# The Python runtime a task runs in

A task runs the job's own methods for their effects: they read and set attributes of the
job object, write to stdout and stderr, and raise exceptions. `Exec σ` is such a
computation over `World σ`, where `σ` is the job object's own state. As in Python an
exception keeps every effect that came before it: a failure is `EStateM.Result.error`
with the world as the exception left it.

The mapping of step keys that protocol selection builds is a `PyDict`, an insertion-ordered
association list whose keys are distinct by construction.
-/

namespace Mrjob

/-- Why `open(path, 'rb')` fails: the subclass of `OSError` it raises. -/
inductive OpenFailure
  | fileNotFound
  | isADirectory
  | permission
  deriving DecidableEq

/-- The exceptions the modelled code raises, by class and arguments. -/
inductive PyError
  | valueError (msg : PyStr)
  | typeError (args : List PyStr)
  | unicodeEncodeError
  /-- `FileNotFoundError`, `IsADirectoryError` or `PermissionError` from `open`, naming the
  path. -/
  | osError (failure : OpenFailure) (path : PyStr)
  /-- Any other exception, raised by the job's own methods. -/
  | other (cls msg : PyStr)
  deriving DecidableEq

/-- What a task can change: the job object's own attributes, stdout and stderr. -/
structure World (σ : Type) where
  job : σ
  stdout : Bytes
  stderr : Bytes

/-- Python code run in a task; an exception keeps the effects that preceded it. -/
abbrev Exec (σ : Type) := EStateM PyError (World σ)

variable {σ α β : Type}

/-- Go on with the value of a pure computation, or raise its exception. -/
def liftExcept : Except PyError α → Exec σ α
  | .ok a => pure a
  | .error e => throw e

/-- `self.stdout.write(b)`. -/
def writeStdout (b : Bytes) : Exec σ Unit :=
  modify fun w => { w with stdout := w.stdout ++ b }

/-- `self.stderr.write(b)`. -/
def writeStderr (b : Bytes) : Exec σ Unit :=
  modify fun w => { w with stderr := w.stderr ++ b }

/-- A value returns as it is. -/
@[simp] theorem liftExcept_ok (a : α) : (liftExcept (.ok a) : Exec σ α) = pure a := rfl

/-- An exception is raised. -/
@[simp] theorem liftExcept_error (e : PyError) : (liftExcept (.error e) : Exec σ α) = throw e :=
  rfl

/-- Nothing runs after an exception. -/
@[simp] theorem throw_bind (e : PyError) (f : α → Exec σ β) : (throw e >>= f : Exec σ β) = throw e :=
  rfl

/-- After a step that returned, the rest runs from where it left the world. -/
theorem run_bind_of_ok {x : Exec σ α} {f : α → Exec σ β} {w w' : World σ} {a : α}
    (h : x.run w = .ok a w') : (x >>= f).run w = (f a).run w' := by
  change x w = _ at h
  change EStateM.bind x f w = f a w'
  simp only [EStateM.bind, h]

/-- After a step that raised, nothing else runs. -/
theorem run_bind_of_error {x : Exec σ α} {f : α → Exec σ β} {w w' : World σ} {e : PyError}
    (h : x.run w = .error e w') : (x >>= f).run w = .error e w' := by
  change x w = _ at h
  change EStateM.bind x f w = _
  simp only [EStateM.bind, h]

/-- An exception leaves the world as it found it. -/
@[simp] theorem run_throw (e : PyError) (w : World σ) : (throw e : Exec σ α).run w = .error e w :=
  rfl

@[simp] theorem writeStdout_run (b : Bytes) (w : World σ) :
    (writeStdout b).run w = .ok () { w with stdout := w.stdout ++ b } :=
  rfl

@[simp] theorem writeStderr_run (b : Bytes) (w : World σ) :
    (writeStderr b).run w = .ok () { w with stderr := w.stderr ++ b } :=
  rfl

/-! ### `dict` -/

/-- A Python `dict`, in insertion order; no key occurs twice. -/
structure PyDict (κ ν : Type) where
  entries : List (κ × ν)
  nodup : (entries.map Prod.fst).Nodup

namespace PyDict

variable {κ ν : Type} [DecidableEq κ]

/-- `{}` -/
def empty : PyDict κ ν := ⟨[], List.nodup_nil⟩

/-- The keys, in insertion order. -/
def keys (d : PyDict κ ν) : List κ := d.entries.map Prod.fst

/-- `len(d)` -/
def len (d : PyDict κ ν) : ℕ := d.entries.length

/-- `d[k]`, or `none` when `k not in d`. -/
def get? (d : PyDict κ ν) (k : κ) : Option ν := d.entries.lookup k

/-- `d[k] = v`: a present key keeps its place and takes the new value; a new key goes last. -/
def set (d : PyDict κ ν) (k : κ) (v : ν) : PyDict κ ν :=
  if hk : k ∈ d.keys then
    ⟨d.entries.map fun e => if e.1 = k then (k, v) else e, by
      have hkeys : (d.entries.map fun e => if e.1 = k then (k, v) else e).map Prod.fst =
          d.entries.map Prod.fst := by
        simp only [List.map_map]
        exact List.map_congr_left fun e _ => by by_cases h : e.1 = k <;> simp [h]
      exact hkeys ▸ d.nodup⟩
  else
    ⟨d.entries ++ [(k, v)], by
      rw [List.map_append, List.nodup_append]
      refine ⟨d.nodup, List.nodup_singleton _, fun a ha hb => ?_⟩
      simp only [List.map_cons, List.map_nil, List.mem_singleton] at hb
      exact hk (hb ▸ ha)⟩

/-- The value stored under a key is the one `d[k]` returns. -/
theorem get?_of_mem {d : PyDict κ ν} {k : κ} {v : ν} (h : (k, v) ∈ d.entries) :
    d.get? k = some v := by
  obtain ⟨entries, hnd⟩ := d
  simp only [get?] at h ⊢
  induction entries with
  | nil => cases h
  | cons e entries ih =>
    simp only [List.map_cons, List.nodup_cons] at hnd
    rw [List.lookup_cons]
    rcases List.mem_cons.mp h with rfl | h
    · simp
    · have hne : k ≠ e.1 := fun hk => hnd.1 (hk ▸ List.mem_map_of_mem Prod.fst h)
      rw [show (k == e.1) = false by simpa using hne, ih hnd.2 h]

/-- What `d[k]` returns is stored under `k`. -/
theorem mem_of_get? {d : PyDict κ ν} {k : κ} {v : ν} (h : d.get? k = some v) :
    (k, v) ∈ d.entries := by
  obtain ⟨l₁, l₂, he, -⟩ := List.lookup_eq_some_iff.mp h
  exact he ▸ List.mem_append_right l₁ (List.mem_cons_self _ _)

/-- A missing key is `not in d`. -/
theorem get?_eq_none {d : PyDict κ ν} {k : κ} (h : k ∉ d.keys) : d.get? k = none := by
  simp only [get?, List.lookup_eq_none_iff, bne_iff_ne, ne_eq]
  exact fun e he hk => h (hk ▸ List.mem_map_of_mem Prod.fst he)

/-- Setting a new key appends it. -/
theorem entries_set_of_not_mem {d : PyDict κ ν} {k : κ} (v : ν) (hk : k ∉ d.keys) :
    (d.set k v).entries = d.entries ++ [(k, v)] := by
  simp only [set, hk, dite_false]

end PyDict

end Mrjob
