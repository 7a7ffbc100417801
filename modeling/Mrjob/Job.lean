import Mrjob.Runtime
import Mrjob.Json

/-!
# Steps, protocols and the job

What `job.py` reads of a job object: the list `self.steps()`, each step's description, the
input, internal and output protocols, `self.options.args`, and what it reaches of
`mrjob.launch`. `MRStep`, `SparkStep` and their descriptions live in `mrjob/step.py`, which is
not part of the source, so a step is given by what `step[...]` returns for it and its
description is a field of the job.

A job method that yields pairs is run against the consumer of those pairs (`Yields`): a
generator interleaves its own effects with its consumer's, and a method that returns
`None` is one that yields nothing. A combiner or reducer body reads the values of its key
from an iterator that `itertools.groupby` fills as it is pulled (`Pulls`), so the body can
meet the exception of an input record it has not been handed yet.
-/

namespace Mrjob

/-- `'mapper'`, `'combiner'` or `'reducer'`: the `step_type` of a task. -/
inductive StepType
  | mapper
  | combiner
  | reducer
  deriving DecidableEq, Repr

/-- The text of a step type. -/
def StepType.name : StepType → PyStr
  | .mapper => .ofString "mapper"
  | .combiner => .ofString "combiner"
  | .reducer => .ofString "reducer"

/-- A substep's entry in a step description, by its `'type'`, the only entry read. -/
structure SubstepDesc where
  type : PyStr
  deriving DecidableEq

/-- The `'type'` of a substep's entry, when the entry is a dict with a string `'type'`. -/
def substepType : Json → Option PyStr
  | .dict items =>
    match items.lookup (.ofString "type") with
    | some (.str type) => some type
    | _ => none
  | _ => none

/-- What `step.description(step_num)` returns: a dict, by its items in insertion order, with
no key twice, whose `'mapper'` and `'reducer'` entries, where present, are dicts with a
string `'type'`. -/
structure StepDesc where
  items : List (PyStr × Json)
  nodup : (items.map Prod.fst).Nodup
  substep_type : ∀ t ∈ [PyStr.ofString "mapper", .ofString "reducer"], ∀ entry,
    items.lookup t = some entry → (substepType entry).isSome

/-- `step[t]`, by its `'type'`, when `t in step`. -/
def StepDesc.substep (d : StepDesc) (t : PyStr) : Option SubstepDesc :=
  (d.items.lookup t).bind fun entry => (substepType entry).map SubstepDesc.mk

/-- `step['mapper']`, when `'mapper' in step`. -/
def StepDesc.mapper (d : StepDesc) : Option SubstepDesc :=
  d.substep (.ofString "mapper")

/-- `step['reducer']`, when `'reducer' in step`. -/
def StepDesc.reducer (d : StepDesc) : Option SubstepDesc :=
  d.substep (.ofString "reducer")

/-- The description as `json.dumps` prints it. -/
def StepDesc.toJson (d : StepDesc) : Json :=
  .dict d.items

/-- The entry `t: {'type': type}` of a substep present with the type `type`. -/
def substepEntry (t : String) (type : Option PyStr) : List (PyStr × Json) :=
  (type.map fun type => (.ofString t, .dict [(.ofString "type", .str type)])).toList

/-- The description of a streaming step with the given mapper and reducer types, as
`MRStep.description` gives it: `{'type': 'streaming', 'mapper': {'type': ...}, ...}`. -/
def StepDesc.streaming (mapper reducer : Option PyStr) : StepDesc where
  items := (.ofString "type", .str (.ofString "streaming")) ::
    (substepEntry "mapper" mapper ++ substepEntry "reducer" reducer)
  nodup := by
    cases mapper <;> cases reducer <;>
      simp only [substepEntry, Option.map_some', Option.map_none', Option.toList_some,
        Option.toList_none, List.map_cons, List.map_nil, List.cons_append, List.nil_append] <;>
      decide
  substep_type := by
    intro t ht entry h
    simp only [List.mem_cons, List.not_mem_nil, or_false] at ht
    rcases ht with rfl | rfl <;> cases mapper <;> cases reducer <;> cases h <;> rfl

/-- `'%d-%s' % (step_num, step_type)`, the key of a substep in `_script_step_mapping`. -/
def stepKey (stepNum : ℤ) (stepType : StepType) : PyStr :=
  decimal stepNum ++ .ofString "-" ++ stepType.name

/-- A job method that yields `(key, value)` pairs, run against the consumer of its pairs. -/
abbrev Yields (σ K V : Type) := (K × V → Exec σ Unit) → Exec σ Unit

/-- The values iterator a combiner or reducer body gets for one run of `itertools.groupby`:
the run's values, in order, and then the end of the run, or the exception that the pull
after the last value raises. -/
inductive Pulls (V : Type)
  | stop
  | raise (e : PyError)
  | next (v : V) (rest : Pulls V)

/-- The values `vs`, then `last`. -/
def Pulls.ofList {V : Type} (vs : List V) (last : Pulls V) : Pulls V :=
  vs.foldr .next last

/-- `list(values)`: every value, or the exception a pull raises. -/
def Pulls.toList {V : Type} : Pulls V → Except PyError (List V)
  | .stop => .ok []
  | .raise e => .error e
  | .next v rest => (v :: ·) <$> rest.toList

/-- No values leave only the end. -/
@[simp] theorem Pulls.ofList_nil {V : Type} (last : Pulls V) : Pulls.ofList [] last = last := rfl

/-- The first value is pulled first. -/
@[simp] theorem Pulls.ofList_cons {V : Type} (v : V) (vs : List V) (last : Pulls V) :
    Pulls.ofList (v :: vs) last = .next v (.ofList vs last) := rfl

/-- A run's iterator, pulled to its end, gives the run's values. -/
@[simp] theorem Pulls.toList_ofList_stop {V : Type} (vs : List V) :
    (Pulls.ofList vs .stop).toList = .ok vs := by
  induction vs with
  | nil => rfl
  | cons v vs ih =>
    rw [ofList_cons, toList, ih]
    rfl

/-- What `step[...]` returns for an `MRStep`; `MRStep` always fills the mapper slot. -/
structure MRStep (σ K V : Type) where
  mapper : K → V → Yields σ K V
  mapperInit : Option (Yields σ K V)
  mapperFinal : Option (Yields σ K V)
  mapperRaw : Option (PyStr → PyStr → Yields σ K V)
  combiner : Option (K → Pulls V → Yields σ K V)
  combinerInit : Option (Yields σ K V)
  combinerFinal : Option (Yields σ K V)
  reducer : Option (K → Pulls V → Yields σ K V)
  reducerInit : Option (Yields σ K V)
  reducerFinal : Option (Yields σ K V)

/-- `'combiner'` or `'reducer'`: the `mrc` of `_combine_or_reduce_pairs`. -/
inductive Mrc
  | combiner
  | reducer
  deriving DecidableEq

/-- The text of `mrc`. -/
def Mrc.name : Mrc → PyStr
  | .combiner => StepType.combiner.name
  | .reducer => StepType.reducer.name

variable {σ K V β : Type}

/-- `step[mrc]` -/
def MRStep.task (step : MRStep σ K V) : Mrc → Option (K → Pulls V → Yields σ K V)
  | .combiner => step.combiner
  | .reducer => step.reducer

/-- `step[mrc + '_init']` -/
def MRStep.taskInit (step : MRStep σ K V) : Mrc → Option (Yields σ K V)
  | .combiner => step.combinerInit
  | .reducer => step.reducerInit

/-- `step[mrc + '_final']` -/
def MRStep.taskFinal (step : MRStep σ K V) : Mrc → Option (Yields σ K V)
  | .combiner => step.combinerFinal
  | .reducer => step.reducerFinal

/-- An element of `self.steps()`. -/
inductive Step (σ K V : Type)
  | mrStep (step : MRStep σ K V)
  /-- A `SparkStep`, by its `spark(input_path, output_path)` method. -/
  | sparkStep (spark : PyStr → PyStr → Exec σ Unit)
  /-- A step of another class, such as `JarStep`: it runs no method of the job. -/
  | otherStep

/-- The step, when it is an `MRStep`. -/
def Step.asMRStep : Step σ K V → Option (MRStep σ K V)
  | .mrStep step => some step
  | _ => none

/-- The `spark` method, when the step is a `SparkStep`. -/
def Step.asSparkStep : Step σ K V → Option (PyStr → PyStr → Exec σ Unit)
  | .sparkStep spark => some spark
  | _ => none

/-- A protocol instance: `read(line)` and `write(key, value)`, each of which may raise. -/
structure Protocol (K V : Type) where
  read : Bytes → Except PyError (K × V)
  write : K → V → Except PyError Bytes

/-- What `job.py` reads of a job object; `rawValueProtocol` is `RawValueProtocol()`. -/
structure MRJob (σ K V : Type) where
  steps : List (Step σ K V)
  description : Step σ K V → ℕ → StepDesc
  inputProtocol : Protocol K V
  internalProtocol : Protocol K V
  outputProtocol : Protocol K V
  rawValueProtocol : Protocol K V
  args : List PyStr
  /-- `log.warning(msg)` once `set_up_logging` has set logging up, as `mrjob.launch` does. -/
  logWarning : PyStr → Exec σ Unit
  /-- `MRJobLauncher.execute(self)`, which runs the whole job through a runner. -/
  launch : Exec σ Unit

/-- `_steps_desc()`: each step's description, with its index. -/
def MRJob.stepsDesc (job : MRJob σ K V) : List StepDesc :=
  job.steps.mapIdx fun i step => job.description step i

/-- There is one description per step. -/
@[simp] theorem MRJob.length_stepsDesc (job : MRJob σ K V) :
    job.stepsDesc.length = job.steps.length :=
  List.length_mapIdx

/-- `_get_step(step_num, expected_type)`; `cast` picks out the steps of the expected class. -/
def getStep (steps : List (Step σ K V)) (stepNum : ℤ) (expectedType : PyStr)
    (cast : Step σ K V → Option β) : Except PyError β :=
  if 0 ≤ stepNum ∧ stepNum < steps.length then
    match (steps[stepNum.toNat]?).bind cast with
    | some step => .ok step
    | none => .error (.typeError [.ofString "Step %d is not a %s", expectedType])
  else
    .error (.valueError (.ofString "Out-of-range step: " ++ decimal stepNum))

/-- `self._get_step(step_num, MRStep)` -/
def MRJob.getMRStep (job : MRJob σ K V) (stepNum : ℤ) : Except PyError (MRStep σ K V) :=
  getStep job.steps stepNum (.ofString "MRStep") Step.asMRStep

/-- `self._get_step(step_num, SparkStep)` -/
def MRJob.getSparkStep (job : MRJob σ K V) (stepNum : ℤ) :
    Except PyError (PyStr → PyStr → Exec σ Unit) :=
  getStep job.steps stepNum (.ofString "SparkStep") Step.asSparkStep

/-- `_get_step` returns a step exactly when the index is in range and the step has the
expected class. -/
theorem getStep_eq_ok {steps : List (Step σ K V)} {stepNum : ℤ} {expectedType : PyStr}
    {cast : Step σ K V → Option β} {b : β} :
    getStep steps stepNum expectedType cast = .ok b ↔
      0 ≤ stepNum ∧ ∃ step, steps[stepNum.toNat]? = some step ∧ cast step = some b := by
  rw [← Option.bind_eq_some]
  unfold getStep
  split_ifs with h
  · split <;> rename_i hcast <;> simp [hcast, h.1]
  · simp only [reduceCtorEq, false_iff, not_and]
    intro h0 hb
    obtain ⟨step, hstep, -⟩ := Option.bind_eq_some.mp hb
    have := (List.getElem?_eq_some_iff.mp hstep).1
    omega

end Mrjob
