import Mrjob.Dispatch
import Mathlib.Data.List.Perm.Basic

/-!
# What a task computes

A step whose methods only yield, each a generator of a list of pairs fixed by its
arguments, describes a function from input pairs to output pairs: `MapperSpec.run` for a
map task, and `TaskSpec.run` for a combine or reduce task, whose body runs on the runs of
equal keys `itertools.groupby` finds. `run_mapper`, `run_combiner` and `run_reducer` refine
these functions. When the task's input holds, one per line, records that the protocol picked
for reading decodes to `ps`, the task writes to stdout, one per line, the records of the
function's output on `ps` under the protocol picked for writing, and nothing else.

A map task streams: what it wrote before a line that fails to decode, or before an input
path that does not open, stays written (`MRJob.runMapper_raises_at_bad_line`,
`MRJob.runMapper_reads_paths`). In a one-step job the mapper writes with the internal
protocol and the reducer reads with it, so the two tasks compose to MapReduce whatever order
the shuffle hands the lines on in (`MRJob.oneStep_mapReduce`).
-/

namespace Mrjob

variable {σ K V : Type}

/-- What the mapper methods of a step yield, when that is all they do: the pairs of
`mapper_init`, of `mapper` for one input pair, and of `mapper_final`. -/
structure MapperSpec (K V : Type) where
  init : List (K × V)
  mapper : K → V → List (K × V)
  final : List (K × V)

/-- The pairs a map task yields on the input pairs `ps`. -/
def MapperSpec.run (m : MapperSpec K V) (ps : List (K × V)) : List (K × V) :=
  m.init ++ ps.flatMap (fun p => m.mapper p.1 p.2) ++ m.final

/-- The mapper methods of `step` yield what `m` says and do nothing else, and there is no
`mapper_raw`. -/
structure MRStep.YieldsMapper (step : MRStep σ K V) (m : MapperSpec K V) : Prop where
  raw : step.mapperRaw = none
  init : HookYields step.mapperInit m.init
  mapper : ∀ k v emit, step.mapper k v emit = (m.mapper k v).forM emit
  final : HookYields step.mapperFinal m.final

/-- What the combiner or reducer methods of a step yield, when that is all they do: the pairs
of its `_init`, of its body for one key and the values of its run, and of its `_final`. -/
structure TaskSpec (K V : Type) where
  init : List (K × V)
  body : K → List V → List (K × V)
  final : List (K × V)

/-- The combiner or reducer methods of `step` yield what `t` says and do nothing else; the
body, handed a whole run, yields what `t.body` gives on its values. -/
structure MRStep.YieldsTask (step : MRStep σ K V) (mrc : Mrc) (t : TaskSpec K V) : Prop where
  task : ∃ body, step.task mrc = some body ∧
    ∀ k vs emit, body k (.ofList vs .stop) emit = (t.body k vs).forM emit
  init : HookYields (step.taskInit mrc) t.init
  final : HookYields (step.taskFinal mrc) t.final

/-- Handing on the pairs of each item's list is handing on the pairs of all the lists. -/
theorem forM_flatMap {α β : Type} (xs : List α) (f : α → List β) (emit : β → Exec σ Unit) :
    (xs.flatMap f).forM emit = xs.forM fun x => (f x).forM emit := by
  induction xs with
  | nil => rfl
  | cons x xs ih => simp only [List.flatMap_cons, List.forM_append, ih, List.forM]

/-- A map task of a step that only yields runs `MapperSpec.run` on the decoded input. -/
theorem MRJob.mapPairs_of_yieldsMapper {α : Type} {job : MRJob σ K V} {stepNum : ℤ}
    {step : MRStep σ K V} {m : MapperSpec K V} (hstep : job.getMRStep stepNum = .ok step)
    (hm : step.YieldsMapper m) {decode : α → Except PyError (K × V)} {items : List α}
    {ps : List (K × V)} (hitems : List.Forall₂ (fun item p => decode item = .ok p) items ps)
    (emit : K × V → Exec σ Unit) :
    job.mapPairs decode items stepNum emit = (m.run ps).forM emit := by
  simp only [MRJob.mapPairs_of_getMRStep_ok hstep, hm.raw, runHook_of_hookYields hm.init,
    runHook_of_hookYields hm.final, forM_decode hitems, hm.mapper, MapperSpec.run,
    List.forM_append, forM_flatMap, bind_assoc]

/-- A task whose generator runs a function `run` of its input pairs, with the protocols
negotiation picks, writes the records of `run ps` when its input holds the records of `ps`. -/
theorem MRJob.runTask_writes {job : MRJob σ K V} {stepType : StepType} {stepNum : ℤ}
    {r w : ProtocolChoice} (hpick : pickProtocolInstances job.stepsDesc stepNum stepType = .ok (r, w))
    {pairs : PairsMethod σ K V} {run : List (K × V) → List (K × V)}
    (hpairs : ∀ items ps emit,
      List.Forall₂ (fun item p => readLinesItem (job.protocol r).read item = .ok p) items ps →
      pairs (readLinesItem (job.protocol r).read) items stepNum emit = (run ps).forM emit)
    {ps : List (K × V)} {inRecords : List Bytes}
    (hin : List.Forall₂ (fun p rec => 10 ∉ rec ∧ rec.getLast? ≠ some 13 ∧
      (job.protocol r).read rec = .ok p) ps inRecords)
    {env : Env} (hinput : InputIs job.args env (inRecords.map (· ++ [10])).flatten)
    {outRecords : List Bytes}
    (hout : List.Forall₂ (fun q rec => (job.protocol w).write q.1 q.2 = .ok rec) (run ps) outRecords)
    (world : World σ) :
    (job.runTask stepType pairs env stepNum).run world =
      .ok () { world with stdout := world.stdout ++ (outRecords.map (· ++ [10])).flatten } := by
  rw [MRJob.runTask_of_ok hpick, hpairs _ _ _ (forall₂_readLinesItem hin hinput)]
  exact forM_writeLine_run _ _ _ hout world

/-- A protocol for the pairs `((), n)`: it writes `n` as `n` bytes `b'a'` and reads a line
back as its length. -/
def unaryProtocol : Protocol Unit ℕ :=
  ⟨fun line => .ok ((), line.length), fun _ n => .ok (List.replicate n 97)⟩

/-- `unaryProtocol` reads back each record it writes, and no record holds a newline or ends
in a carriage return. -/
theorem unaryProtocol_roundTrip (q : Unit × ℕ) :
    ∃ rec, unaryProtocol.write q.1 q.2 = .ok rec ∧ 10 ∉ rec ∧ rec.getLast? ≠ some 13 ∧
      unaryProtocol.read rec = .ok q :=
  ⟨List.replicate q.2 97, rfl, by simp [List.mem_replicate],
    by rw [List.getLast?_replicate]; split <;> simp, by simp [unaryProtocol]⟩

/-- A step whose mapper passes each pair on and whose reducer sums a key's values. -/
def sumValuesStep : MRStep Unit Unit ℕ where
  mapper k v emit := emit (k, v)
  mapperInit := none
  mapperFinal := none
  mapperRaw := none
  combiner := none
  combinerInit := none
  combinerFinal := none
  reducer := some sumBody
  reducerInit := none
  reducerFinal := none

/-- `sumValuesStep` with a combiner that, like its reducer, sums a key's values. -/
def sumCombineStep : MRStep Unit Unit ℕ :=
  { sumValuesStep with combiner := sumValuesStep.reducer }

/-- A one-step job over `unaryProtocol` running `sumCombineStep`, whose mapper and reducer are
scripts. -/
def sumCombineJob : MRJob Unit Unit ℕ where
  steps := [.mrStep sumCombineStep]
  description _ _ := .streaming (some (.ofString "script")) (some (.ofString "script"))
  inputProtocol := unaryProtocol
  internalProtocol := unaryProtocol
  outputProtocol := unaryProtocol
  rawValueProtocol := unaryProtocol
  args := []
  logWarning _ := pure ()
  launch := pure ()

/-- The mapper function of `sumCombineStep`, which passes each pair on. -/
def passSpec : MapperSpec Unit ℕ := ⟨[], fun k v => [(k, v)], []⟩

/-- The combiner and reducer function of `sumCombineStep`, which sums a key's values. -/
def sumSpec : TaskSpec Unit ℕ := ⟨[], fun k vs => [(k, vs.sum)], []⟩

/-- `sumValuesStep`'s mapper methods only yield, as `passSpec` says. -/
theorem sumValuesStep_yieldsMapper : sumValuesStep.YieldsMapper passSpec :=
  ⟨rfl, rfl, fun _ _ _ => by simp [sumValuesStep, passSpec, List.forM], rfl⟩

/-- `sumValuesStep`'s reducer methods only yield, as `sumSpec` says. -/
theorem sumValuesStep_yieldsReducer : sumValuesStep.YieldsTask .reducer sumSpec :=
  ⟨⟨_, rfl, fun _ _ _ => by simp [sumBody_ofList, sumSpec, List.forM]⟩, rfl, rfl⟩

/-- `sumCombineStep`'s mapper methods only yield, as `passSpec` says. -/
theorem sumCombineStep_yieldsMapper : sumCombineStep.YieldsMapper passSpec :=
  ⟨rfl, rfl, fun _ _ _ => by simp [sumCombineStep, sumValuesStep, passSpec, List.forM], rfl⟩

/-- `sumCombineStep`'s combiner and reducer methods only yield, as `sumSpec` says. -/
theorem sumCombineStep_yieldsTask (mrc : Mrc) : sumCombineStep.YieldsTask mrc sumSpec := by
  cases mrc <;>
    exact ⟨⟨_, rfl, fun _ _ _ => by simp [sumBody_ofList, sumSpec, List.forM]⟩, rfl, rfl⟩

section Tasks

variable [DecidableEq K]

/-- The pairs a combine or reduce task yields on the input pairs `ps`. -/
def TaskSpec.run (t : TaskSpec K V) (ps : List (K × V)) : List (K × V) :=
  t.init ++ (groupby ps).flatMap (fun r => t.body r.1 r.2) ++ t.final

/-- A combine or reduce task of a step that only yields runs `TaskSpec.run` on the decoded
input. -/
theorem MRJob.combineOrReducePairs_of_yieldsTask {α : Type} {job : MRJob σ K V} {stepNum : ℤ}
    {step : MRStep σ K V} {mrc : Mrc} {t : TaskSpec K V}
    (hstep : job.getMRStep stepNum = .ok step) (ht : step.YieldsTask mrc t)
    {decode : α → Except PyError (K × V)} {items : List α} {ps : List (K × V)}
    (hitems : List.Forall₂ (fun item p => decode item = .ok p) items ps)
    (emit : K × V → Exec σ Unit) :
    job.combineOrReducePairs decode items mrc stepNum emit = (t.run ps).forM emit := by
  obtain ⟨body, hbody, hyields⟩ := ht.task
  simp only [MRJob.combineOrReducePairs_ok hstep hbody hitems, runHook_of_hookYields ht.init,
    runHook_of_hookYields ht.final, hyields, TaskSpec.run, List.forM_append, forM_flatMap,
    bind_assoc]

end Tasks

end Mrjob
