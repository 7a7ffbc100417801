import Mrjob.Runtime
import Mathlib.Data.List.Sort

/-!
# The steps of a job that does not redefine `steps()`

`MRJob.steps()` builds the job's one step from the methods the job redefines. It collects
them by name into `kwargs`, in the order of `_JOB_STEP_FUNC_PARAMS` and then `spark`. A job
that redefines `spark` and nothing else gets one `SparkStep`; one that redefines `spark`
and a streaming method too is rejected with `ValueError`. Otherwise `steps()` calls each
`_cmd` and `_pre_filter` method once, keeps the command string it returns in the method's
place, and builds one `MRStep` from `kwargs`, or no step at all when nothing is redefined
(`defaultSteps_spec`).

`_JOB_STEP_FUNC_PARAMS` and the `MRStep` and `SparkStep` constructors live in `mrjob.step`,
which is not part of the source: the names are a parameter, and a step is given by the
arguments `steps()` passes to its constructor.
-/

namespace Mrjob

variable {M : Type}

/-- What `steps()` passes to `MRStep` under a name: the job's method itself, or the command
string a `_cmd` or `_pre_filter` method returned when `steps()` called it. -/
inductive StepArg (M : Type)
  | method (m : M)
  | command (cmd : PyStr)
  deriving DecidableEq

/-- A step `steps()` builds: `MRStep(**kwargs)`, by its keyword arguments in order, or
`SparkStep(spark=spark, spark_args=spark_args)`. -/
inductive StepCall (M : Type)
  | mrStep (kwargs : List (PyStr × StepArg M))
  | sparkStep (spark : M) (sparkArgs : List PyStr)
  deriving DecidableEq

/-- Python's `a <= b` on `str`: code point by code point, a prefix first. -/
def StrLe (a b : PyStr) : Prop := ¬ b < a

instance : DecidableRel StrLe := fun a b => inferInstanceAs (Decidable (¬ b < a))

/-- `sorted(names)` -/
def pySorted (names : List PyStr) : List PyStr := names.insertionSort StrLe

/-- `sorted` of a list is a one-element list exactly when the list is. -/
theorem pySorted_eq_singleton {names : List PyStr} {name : PyStr} :
    pySorted names = [name] ↔ names = [name] := by
  constructor
  · intro h
    exact List.perm_singleton.mp (h ▸ (List.perm_insertionSort StrLe names).symm)
  · rintro rfl
    rfl

/-- `k.endswith('_cmd') or k.endswith('_pre_filter')` -/
def isCommandName (name : PyStr) : Bool :=
  (PyStr.ofString "_cmd").isSuffixOf name || (PyStr.ofString "_pre_filter").isSuffixOf name

example : isCommandName (.ofString "mapper_pre_filter") ∧ ¬ isCommandName (.ofString "mapper") :=
  by decide

/-- What the loop over `kwargs.items()` leaves under a name: the string a `_cmd` or
`_pre_filter` method returns when called, and any other method as it is. -/
def resolveKwarg (call : M → Except PyError PyStr) (kwarg : PyStr × M) :
    Except PyError (PyStr × StepArg M) :=
  if isCommandName kwarg.1 then (fun cmd => (kwarg.1, .command cmd)) <$> call kwarg.2
  else pure (kwarg.1, .method kwarg.2)

/-- `steps()` of a job that does not redefine it. `funcParams` is `_JOB_STEP_FUNC_PARAMS`,
`redefined name` says whether the job's method `name` is not `MRJob`'s own, `attr name` is
`getattr(self, name)`, `call` calls a `_cmd` or `_pre_filter` method, and `sparkArgs` is what
`self.spark_args()` returns. -/
def defaultSteps (funcParams : List PyStr) (redefined : PyStr → Bool) (attr : PyStr → M)
    (call : M → Except PyError PyStr) (sparkArgs : List PyStr) :
    Except PyError (List (StepCall M)) := do
  let kwargs := ((funcParams ++ [PyStr.ofString "spark"]).filter redefined).map fun name =>
    (name, attr name)
  match kwargs.lookup (PyStr.ofString "spark") with
  | some spark =>
    if pySorted (kwargs.map Prod.fst) ≠ [PyStr.ofString "spark"] then
      throw (.valueError (.ofString "Can't mix spark() and streaming functions"))
    else
      pure [.sparkStep spark sparkArgs]
  | none =>
    let kwargs ← kwargs.mapM (resolveKwarg call)
    pure (if kwargs.isEmpty then [] else [.mrStep kwargs])

section Spec

variable (funcParams : List PyStr) (redefined : PyStr → Bool) (attr : PyStr → M)

/-- The names `steps()` collects: the redefined ones of `funcParams`, then `spark` when
redefined. -/
theorem filter_funcParams_spark :
    (funcParams ++ [PyStr.ofString "spark"]).filter redefined =
      funcParams.filter redefined ++
        if redefined (.ofString "spark") then [PyStr.ofString "spark"] else [] := by
  rw [List.filter_append, List.filter_singleton]
  cases redefined (.ofString "spark") <;> rfl

/-- A name that is not among the collected ones is not a key of `kwargs`. -/
theorem lookup_kwargs_of_not_mem {names : List PyStr} {name : PyStr} (h : name ∉ names) :
    (names.map fun n => (n, attr n)).lookup name = none := by
  induction names with
  | nil => rfl
  | cons n names ih =>
    simp only [List.mem_cons, not_or] at h
    obtain ⟨hne, h⟩ := h
    rw [List.map_cons, List.lookup_cons, show (name == n) = false from beq_false_of_ne hne, ih h]

/-- The redefined names of `funcParams` hold no `spark` when `funcParams` does not. -/
theorem spark_not_mem_filter (hspark : PyStr.ofString "spark" ∉ funcParams) :
    PyStr.ofString "spark" ∉ funcParams.filter redefined :=
  fun h => hspark (List.mem_of_mem_filter h)

/-- Resolving the names of a list of methods, each command among them returning `cmd name`. -/
theorem mapM_resolveKwarg_ok (call : M → Except PyError PyStr) (cmd : PyStr → PyStr) :
    ∀ names : List PyStr, (∀ name ∈ names, isCommandName name → call (attr name) = .ok (cmd name)) →
      (names.map fun n => (n, attr n)).mapM (resolveKwarg call) =
        .ok (names.map fun name =>
          (name, if isCommandName name then .command (cmd name) else .method (attr name)))
  | [], _ => rfl
  | name :: names, h => by
    have hrest := mapM_resolveKwarg_ok call cmd names fun n hn => h n (.tail _ hn)
    have hhead : resolveKwarg call (name, attr name) = .ok (name,
        if isCommandName name then .command (cmd name) else .method (attr name)) := by
      unfold resolveKwarg
      split
      · next hc => rw [h name (.head _) hc]; rfl
      · rfl
    rw [List.map_cons, List.mapM_cons, hhead, hrest, List.map_cons]
    rfl

/-- Resolving stops at the first command whose call raises, and raises what it raised. -/
theorem mapM_resolveKwarg_error (call : M → Except PyError PyStr) {name : PyStr} {e : PyError}
    (hname : isCommandName name) (hcall : call (attr name) = .error e) (post : List PyStr) :
    ∀ pre : List PyStr, (∀ n ∈ pre, isCommandName n → ∃ c, call (attr n) = .ok c) →
      ((pre ++ name :: post).map fun n => (n, attr n)).mapM (resolveKwarg call) = .error e
  | [], _ => by
    rw [List.nil_append, List.map_cons, List.mapM_cons]
    simp only [resolveKwarg, hname, if_true, hcall]
    rfl
  | n :: pre, h => by
    have hrest := mapM_resolveKwarg_error call hname hcall post pre fun n' hn => h n' (.tail _ hn)
    obtain ⟨arg, harg⟩ : ∃ arg, resolveKwarg call (n, attr n) = .ok arg := by
      unfold resolveKwarg
      split
      · next hc =>
        obtain ⟨c, hc'⟩ := h n (.head _) hc
        exact ⟨_, by rw [hc']; rfl⟩
      · exact ⟨_, rfl⟩
    rw [List.cons_append, List.map_cons, List.mapM_cons, harg, hrest]
    rfl

section Branches

variable (call : M → Except PyError PyStr) (sparkArgs : List PyStr)
  (hspark : PyStr.ofString "spark" ∉ funcParams)

include hspark in
/-- With `spark` redefined, `steps()` gives a `SparkStep` when nothing else is, and rejects
the job otherwise. -/
theorem defaultSteps_of_spark (hs : redefined (.ofString "spark")) :
    defaultSteps funcParams redefined attr call sparkArgs =
      if funcParams.filter redefined = [] then .ok [.sparkStep (attr (.ofString "spark")) sparkArgs]
      else .error (.valueError (.ofString "Can't mix spark() and streaming functions")) := by
  have hlookup : ((funcParams.filter redefined ++ [PyStr.ofString "spark"]).map fun n =>
      (n, attr n)).lookup (PyStr.ofString "spark") = some (attr (.ofString "spark")) := by
    rw [List.map_append, List.lookup_append,
      lookup_kwargs_of_not_mem attr (spark_not_mem_filter funcParams redefined hspark)]
    simp
  rw [defaultSteps, filter_funcParams_spark, if_pos hs]
  simp only [hlookup, List.map_map]
  by_cases hnil : funcParams.filter redefined = []
  · rw [if_pos hnil, hnil]
    rfl
  · rw [if_neg hnil, if_pos (by simpa [pySorted_eq_singleton] using hnil)]
    rfl

include hspark in
/-- Without `spark`, `steps()` resolves the redefined methods in order into one `MRStep`. -/
theorem defaultSteps_of_not_spark (hs : redefined (.ofString "spark") = false) :
    defaultSteps funcParams redefined attr call sparkArgs = (do
      let kwargs ← ((funcParams.filter redefined).map fun n => (n, attr n)).mapM
        (resolveKwarg call)
      pure (if kwargs.isEmpty then [] else [.mrStep kwargs])) := by
  rw [defaultSteps, filter_funcParams_spark, hs, if_neg Bool.false_ne_true, List.append_nil]
  simp only [lookup_kwargs_of_not_mem attr (spark_not_mem_filter funcParams redefined hspark)]

end Branches

/-- `steps()` of a job that does not redefine it. A job that redefines `spark` and a method
of `funcParams` is rejected with `ValueError`, and one that redefines only `spark` gets one
`SparkStep`. Otherwise `steps()` builds one `MRStep` from the redefined methods, in the
order of `funcParams`, each `_cmd` or `_pre_filter` method replaced by the command string
its call returns and every other passed as it is; no step when none is redefined. The first
such call that raises makes `steps()` raise. -/
theorem defaultSteps_spec (call : M → Except PyError PyStr) (sparkArgs : List PyStr)
    (hspark : PyStr.ofString "spark" ∉ funcParams) :
    (redefined (.ofString "spark") → funcParams.filter redefined ≠ [] →
      defaultSteps funcParams redefined attr call sparkArgs =
        .error (.valueError (.ofString "Can't mix spark() and streaming functions"))) ∧
    (redefined (.ofString "spark") → funcParams.filter redefined = [] →
      defaultSteps funcParams redefined attr call sparkArgs =
        .ok [.sparkStep (attr (.ofString "spark")) sparkArgs]) ∧
    (redefined (.ofString "spark") = false → ∀ cmd : PyStr → PyStr,
      (∀ name ∈ funcParams.filter redefined, isCommandName name →
        call (attr name) = .ok (cmd name)) →
      defaultSteps funcParams redefined attr call sparkArgs =
        .ok (if funcParams.filter redefined = [] then [] else
          [.mrStep ((funcParams.filter redefined).map fun name =>
            (name, if isCommandName name then .command (cmd name) else .method (attr name)))])) ∧
    (redefined (.ofString "spark") = false → ∀ pre name post e,
      funcParams.filter redefined = pre ++ name :: post →
      (∀ n ∈ pre, isCommandName n → ∃ c, call (attr n) = .ok c) → isCommandName name →
      call (attr name) = .error e →
      defaultSteps funcParams redefined attr call sparkArgs = .error e) := by
  refine ⟨fun hs hne => ?_, fun hs hnil => ?_, fun hs cmd hcmd => ?_,
    fun hs pre name post e hsplit hpre hname hcall => ?_⟩
  · rw [defaultSteps_of_spark funcParams redefined attr call sparkArgs hspark hs, if_neg hne]
  · rw [defaultSteps_of_spark funcParams redefined attr call sparkArgs hspark hs, if_pos hnil]
  · rw [defaultSteps_of_not_spark funcParams redefined attr call sparkArgs hspark hs,
      mapM_resolveKwarg_ok attr call cmd _ hcmd]
    simp [List.isEmpty_iff]
  · rw [defaultSteps_of_not_spark funcParams redefined attr call sparkArgs hspark hs, hsplit,
      mapM_resolveKwarg_error attr call hname hcall post pre hpre]
    rfl

end Spec

/-- The names of the mapper's and the reducer's methods, in `_JOB_STEP_FUNC_PARAMS` order. -/
def mapperReducerParams : List PyStr :=
  [.ofString "mapper", .ofString "mapper_cmd", .ofString "reducer", .ofString "reducer_cmd"]

/-- A job whose methods are their own names and whose `reducer_cmd` returns `'wc -l'`: with
`mapper` and `reducer_cmd` redefined it gets one `MRStep` of the method `mapper` and the
command `'wc -l'`, and with `spark` redefined too it is rejected. -/
theorem defaultSteps_mapper_reducerCmd :
    PyStr.ofString "spark" ∉ mapperReducerParams ∧
    defaultSteps mapperReducerParams
        (fun n => n = .ofString "mapper" || n = .ofString "reducer_cmd") id
        (fun _ => .ok (.ofString "wc -l")) [] =
      .ok [.mrStep [(.ofString "mapper", .method (.ofString "mapper")),
        (.ofString "reducer_cmd", .command (.ofString "wc -l"))]] ∧
    defaultSteps mapperReducerParams
        (fun n => n = .ofString "mapper" || n = .ofString "reducer_cmd" || n = .ofString "spark")
        id (fun _ => .ok (.ofString "wc -l")) [] =
      .error (.valueError (.ofString "Can't mix spark() and streaming functions")) :=
  ⟨by decide,
    ((defaultSteps_spec mapperReducerParams _ id _ [] (by decide)).2.2.1 rfl
      (fun _ => .ofString "wc -l") fun _ _ _ => rfl).trans rfl,
    (defaultSteps_spec mapperReducerParams _ id (fun _ => .ok (.ofString "wc -l")) [] (by decide)).1
      rfl (by decide)⟩

end Mrjob
