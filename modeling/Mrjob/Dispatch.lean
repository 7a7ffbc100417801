import Mrjob.Executor
import Mrjob.Framing

/-!
# Running one task

`run_mapper`, `run_combiner` and `run_reducer` negotiate the task's protocols with
`_wrap_protocols`, then run `map_pairs`, `combine_pairs` or `reduce_pairs` on the decoded
input and write each pair they yield as a line of stdout; the three are `MRJob.runTask`
applied to each phase's generator. `run_spark` hands the two positional arguments to the
step's `spark` method. `execute` picks one of these tasks from the command-line options, or
prints the step descriptions (`--steps`), or hands the job to the launcher. `show_steps` writes
the descriptions' JSON as one line of printable ASCII (`MRJob.showSteps_writes_line`).

Negotiation runs as the task starts, and each generator looks its step up before it runs a
hook or pulls a record. So a task whose setup fails raises before it has any effect: no hook
runs, no input is read, stdout and stderr are untouched (`MRJob.run_setup_failures`). The
mapper's argument check for `mapper_raw` is the exception, since it comes after
`mapper_init`.
-/

namespace Mrjob

variable {σ K V : Type}

/-- The protocol instance a role of `_pick_protocol_instances` stands for. -/
def MRJob.protocol (job : MRJob σ K V) : ProtocolChoice → Protocol K V
  | .input => job.inputProtocol
  | .internal => job.internalProtocol
  | .output => job.outputProtocol
  | .rawValue => job.rawValueProtocol

/-- `pick_protocols(step_num, step_type)`: the reading protocol's `read` and the writing
protocol's `write`. -/
def MRJob.pickProtocols (job : MRJob σ K V) (stepNum : ℤ) (stepType : StepType) :
    Except PyError ((Bytes → Except PyError (K × V)) × (K → V → Except PyError Bytes)) := do
  let (pRead, pWrite) ← pickProtocolInstances job.stepsDesc stepNum stepType
  pure ((job.protocol pRead).read, (job.protocol pWrite).write)

/-- `_wrap_protocols(step_num, step_type)`: `read_lines`, by what it does with each input
line it pulls, and `write_line`. -/
def MRJob.wrapProtocols (job : MRJob σ K V) (stepNum : ℤ) (stepType : StepType) :
    Except PyError ((Except PyError Bytes → Except PyError (K × V)) × (K × V → Exec σ Unit)) := do
  let (read, write) ← job.pickProtocols stepNum stepType
  pure (readLinesItem read, writeLine write)

/-- A phase's generator, such as `map_pairs`: it takes the decoding of input lines, the lines,
the step number and the consumer of what it yields. -/
abbrev PairsMethod (σ K V : Type) :=
  (Except PyError Bytes → Except PyError (K × V)) → List (Except PyError Bytes) → ℤ →
    (K × V → Exec σ Unit) → Exec σ Unit

/-- `read_lines, write_line = self._wrap_protocols(step_num, step_type)`, then
`for k, v in pairs(read_lines(), step_num=step_num): write_line(k, v)`. -/
def MRJob.runTask (job : MRJob σ K V) (stepType : StepType) (pairs : PairsMethod σ K V)
    (env : Env) (stepNum : ℤ) : Exec σ Unit := do
  let (readLine, emit) ← liftExcept (job.wrapProtocols stepNum stepType)
  pairs readLine (readInput job.args env) stepNum emit

/-- `run_mapper(step_num)` -/
def MRJob.runMapper (job : MRJob σ K V) (env : Env) (stepNum : ℤ) : Exec σ Unit :=
  job.runTask .mapper job.mapPairs env stepNum

/-- `run_combiner(step_num)` -/
def MRJob.runCombiner [DecidableEq K] (job : MRJob σ K V) (env : Env) (stepNum : ℤ) :
    Exec σ Unit :=
  job.runTask .combiner job.combinePairs env stepNum

/-- `run_reducer(step_num)` -/
def MRJob.runReducer [DecidableEq K] (job : MRJob σ K V) (env : Env) (stepNum : ℤ) :
    Exec σ Unit :=
  job.runTask .reducer job.reducePairs env stepNum

/-- `run_spark(step_num)` -/
def MRJob.runSpark (job : MRJob σ K V) (stepNum : ℤ) : Exec σ Unit := do
  let spark ← liftExcept (job.getSparkStep stepNum)
  match job.args with
  | [inputPath, outputPath] => spark inputPath outputPath
  | _ => throw (.valueError (.ofString "Wrong number of args"))

/-- `show_steps()`: log its deprecation, then write `json.dumps(self._steps_desc())`, encoded
with UTF-8, and a newline. -/
def MRJob.showSteps (job : MRJob σ K V) : Exec σ Unit := do
  job.logWarning (.ofString "--steps is deprecated and going away in v0.7.0")
  match encodeUtf8 (Json.list (job.stepsDesc.map StepDesc.toJson)).dumps with
  | some stepsJson => writeStdout stepsJson
  | none => throw .unicodeEncodeError
  writeStdout [10]

/-- `--steps` writes one line. Once the deprecation warning is logged, stdout receives the JSON
of the step descriptions as printable ASCII, which holds no newline, then a newline; so a
runner reading the first line of the script's output reads all of it. -/
theorem MRJob.showSteps_writes_line (job : MRJob σ K V) (w w' : World σ)
    (hlog : (job.logWarning (.ofString "--steps is deprecated and going away in v0.7.0")).run w =
      .ok () w') :
    job.showSteps.run w = .ok () { w' with stdout := w'.stdout ++
        (asciiBytes (Json.list (job.stepsDesc.map StepDesc.toJson)).dumps ++ [10]) } ∧
      (∀ c ∈ (Json.list (job.stepsDesc.map StepDesc.toJson)).dumps, IsPrintable c) ∧
      splitLines (asciiBytes (Json.list (job.stepsDesc.map StepDesc.toJson)).dumps ++ [10]) =
        [asciiBytes (Json.list (job.stepsDesc.map StepDesc.toJson)).dumps ++ [10]] := by
  have hprint := Json.dumps_printable (Json.list (job.stepsDesc.map StepDesc.toJson))
  have hline := newline_not_mem_asciiBytes hprint
  refine ⟨?_, hprint, by simpa using splitLines_records [_] (by simpa using hline)⟩
  rw [MRJob.showSteps, run_bind_of_ok hlog, encodeUtf8_of_printable hprint]
  simp only
  rw [run_bind_of_ok (writeStdout_run _ _), writeStdout_run, List.append_assoc]

/-- `bytesValueJob`, which logs nothing, prints its one step with `--steps`. -/
theorem bytesValueJob_showSteps :
    (bytesValueJob.logWarning (.ofString "--steps is deprecated and going away in v0.7.0")).run
      (⟨(), [], []⟩ : World Unit) = .ok () ⟨(), [], []⟩ ∧
    bytesValueJob.showSteps.run ⟨(), [], []⟩ = .ok () ⟨(), [] ++
        (asciiBytes (Json.list (bytesValueJob.stepsDesc.map StepDesc.toJson)).dumps ++ [10]), []⟩ :=
  ⟨rfl, (MRJob.showSteps_writes_line bytesValueJob _ _ rfl).1⟩

example : bytesValueJob.showSteps.run ⟨(), [], []⟩ = .ok () ⟨(),
    asciiBytes (.ofString "[\x7b\"type\": \"streaming\", \"mapper\": \x7b\"type\": \"script\"\x7d\x7d]") ++ [10],
    []⟩ := rfl

/-- The options `execute` reads: whether `--steps`, `--mapper`, `--combiner`, `--reducer` or
`--spark` was given, and `--step-num`. -/
structure Options where
  showSteps : Bool
  runMapper : Bool
  runCombiner : Bool
  runReducer : Bool
  runSpark : Bool
  stepNum : ℤ
  deriving DecidableEq, Repr

/-- `execute()`: the branches tried in the source's order; `--steps` sets logging up before
`show_steps`, which `logWarning` stands for. -/
def MRJob.execute [DecidableEq K] (job : MRJob σ K V) (env : Env) (opts : Options) :
    Exec σ Unit :=
  if opts.showSteps then job.showSteps
  else if opts.runMapper then job.runMapper env opts.stepNum
  else if opts.runCombiner then job.runCombiner env opts.stepNum
  else if opts.runReducer then job.runReducer env opts.stepNum
  else if opts.runSpark then job.runSpark opts.stepNum
  else job.launch

/-! ### Negotiation -/

/-- Substep `stepType` of step `stepNum` is in the table of script substeps. -/
def IsScriptPhase (stepsDesc : List StepDesc) (stepNum : ℤ) (stepType : StepType) : Prop :=
  ∃ p ∈ scriptSteps stepsDesc, (p.1 : ℤ) = stepNum ∧ p.2 = stepType

instance (stepsDesc : List StepDesc) (stepNum : ℤ) (stepType : StepType) :
    Decidable (IsScriptPhase stepsDesc stepNum stepType) :=
  inferInstanceAs (Decidable (∃ p ∈ scriptSteps stepsDesc, (p.1 : ℤ) = stepNum ∧ p.2 = stepType))

/-- The table only names steps of the pipeline. -/
theorem lt_length_of_mem_scriptSteps {D : List StepDesc} {p : ℕ × StepType}
    (h : p ∈ scriptSteps D) : p.1 < D.length := by
  obtain ⟨i, t⟩ := p
  rw [mem_scriptSteps] at h
  cases t with
  | combiner => exact h.elim
  | mapper | reducer =>
    obtain ⟨step, -, hstep, -⟩ := h
    exact (List.getElem?_eq_some_iff.mp hstep).1

/-- A step number out of range names no script substep. -/
theorem not_isScriptPhase_of_out_of_range {D : List StepDesc} {stepNum : ℤ}
    (h : ¬ (0 ≤ stepNum ∧ stepNum < D.length)) (t : StepType) : ¬ IsScriptPhase D stepNum t := by
  rintro ⟨p, hp, rfl, -⟩
  exact h ⟨Int.natCast_nonneg _, Int.ofNat_lt.mpr (lt_length_of_mem_scriptSteps hp)⟩

/-- A mapper or reducer request for no script substep raises `ValueError`. -/
theorem pickProtocolInstances_of_not_isScriptPhase {D : List StepDesc} {stepNum : ℤ}
    {t : StepType} (ht : t ≠ .combiner) (h : ¬ IsScriptPhase D stepNum t) :
    pickProtocolInstances D stepNum t =
      .error (.valueError (.ofString "Can't pick a protocol for a non-script step")) := by
  have hnone : ∀ p ∈ scriptSteps D, (p.1 : ℤ) = stepNum → p.2 ≠ t :=
    fun p hp hn ht' => h ⟨p, hp, hn, ht'⟩
  simp only [pickProtocolInstances, ht, if_false, get?_scriptStepMapping_eq_none hnone]

/-- A request for a script substep picks a pair of protocols. -/
theorem pickProtocolInstances_of_isScriptPhase {D : List StepDesc} {stepNum : ℤ}
    {t : StepType} (h : IsScriptPhase D stepNum t) :
    ∃ r w, pickProtocolInstances D stepNum t = .ok (r, w) := by
  obtain ⟨p, hp, hn, ht⟩ := h
  obtain ⟨k, hk, rfl⟩ := List.mem_iff_getElem.mp hp
  exact ⟨_, _, pickProtocolInstances_of_getElem hk hn ht⟩

/-- A combiner reads and writes with the protocol its step's mapper writes with. -/
theorem pickProtocolInstances_combiner (D : List StepDesc) (stepNum : ℤ) :
    pickProtocolInstances D stepNum .combiner =
      .ok (mapperOutputProtocol stepNum (scriptStepMapping D),
        mapperOutputProtocol stepNum (scriptStepMapping D)) :=
  rfl

/-- `_wrap_protocols` raises what `_pick_protocol_instances` raises. -/
theorem MRJob.wrapProtocols_of_error {job : MRJob σ K V} {stepNum : ℤ} {t : StepType}
    {e : PyError} (h : pickProtocolInstances job.stepsDesc stepNum t = .error e) :
    job.wrapProtocols stepNum t = .error e := by
  simp only [MRJob.wrapProtocols, MRJob.pickProtocols, h]
  rfl

/-- `_wrap_protocols` wraps the protocols `_pick_protocol_instances` picks. -/
theorem MRJob.wrapProtocols_of_ok {job : MRJob σ K V} {stepNum : ℤ} {t : StepType}
    {r w : ProtocolChoice} (h : pickProtocolInstances job.stepsDesc stepNum t = .ok (r, w)) :
    job.wrapProtocols stepNum t =
      .ok (readLinesItem (job.protocol r).read, writeLine (job.protocol w).write) := by
  simp only [MRJob.wrapProtocols, MRJob.pickProtocols, h]
  rfl

/-! ### Setup failures -/

theorem MRJob.runTask_of_wrapProtocols_error {job : MRJob σ K V} {t : StepType}
    {stepNum : ℤ} {e : PyError} (h : job.wrapProtocols stepNum t = .error e)
    (pairs : PairsMethod σ K V) (env : Env) : job.runTask t pairs env stepNum = throw e := by
  simp only [MRJob.runTask, h, liftExcept_error, throw_bind]

/-- Once negotiation succeeds, the task is its generator run on the decoded input. -/
theorem MRJob.runTask_of_ok {job : MRJob σ K V} {t : StepType} {stepNum : ℤ}
    {r w : ProtocolChoice} (h : pickProtocolInstances job.stepsDesc stepNum t = .ok (r, w))
    (pairs : PairsMethod σ K V) (env : Env) :
    job.runTask t pairs env stepNum =
      pairs (readLinesItem (job.protocol r).read) (readInput job.args env) stepNum
        (writeLine (job.protocol w).write) := by
  simp only [MRJob.runTask, MRJob.wrapProtocols_of_ok h, liftExcept_ok, pure_bind]

/-- A mapper or reducer task for no script substep, an out-of-range step included, raises
`ValueError` from negotiation. -/
theorem MRJob.runTask_of_not_script {job : MRJob σ K V} {t : StepType} {stepNum : ℤ}
    (ht : t ≠ .combiner)
    (h : ¬ (0 ≤ stepNum ∧ stepNum < job.steps.length) ∨ ¬ IsScriptPhase job.stepsDesc stepNum t)
    (pairs : PairsMethod σ K V) (env : Env) :
    job.runTask t pairs env stepNum =
      throw (.valueError (.ofString "Can't pick a protocol for a non-script step")) := by
  have hscript : ¬ IsScriptPhase job.stepsDesc stepNum t :=
    h.elim (fun h => not_isScriptPhase_of_out_of_range (by rwa [MRJob.length_stepsDesc]) t) id
  exact MRJob.runTask_of_wrapProtocols_error
    (MRJob.wrapProtocols_of_error (pickProtocolInstances_of_not_isScriptPhase ht hscript)) _ _

/-- `run_spark` with other than two positional arguments raises `ValueError`. -/
theorem MRJob.runSpark_of_args_length {job : MRJob σ K V} {stepNum : ℤ}
    {spark : PyStr → PyStr → Exec σ Unit} (hspark : job.getSparkStep stepNum = .ok spark)
    (hargs : job.args.length ≠ 2) :
    job.runSpark stepNum = throw (.valueError (.ofString "Wrong number of args")) := by
  simp only [MRJob.runSpark, hspark, liftExcept_ok, pure_bind]
  split
  · rename_i heq
    simp [heq] at hargs
  · rfl

section Tasks

variable [DecidableEq K]

/-- A task whose setup fails raises before it has any effect, the same for every input: a
failed negotiation, `_get_step` finding no step of the class needed, an absent combiner or
reducer, or `run_spark` without exactly two positional arguments. -/
theorem MRJob.run_setup_failures (job : MRJob σ K V) (stepNum : ℤ) (env : Env) :
    ((¬ (0 ≤ stepNum ∧ stepNum < job.steps.length) ∨
        ¬ IsScriptPhase job.stepsDesc stepNum .mapper) →
      job.runMapper env stepNum =
        throw (.valueError (.ofString "Can't pick a protocol for a non-script step"))) ∧
    (∀ e, IsScriptPhase job.stepsDesc stepNum .mapper → job.getMRStep stepNum = .error e →
      job.runMapper env stepNum = throw e) ∧
    ((¬ (0 ≤ stepNum ∧ stepNum < job.steps.length) ∨
        ¬ IsScriptPhase job.stepsDesc stepNum .reducer) →
      job.runReducer env stepNum =
        throw (.valueError (.ofString "Can't pick a protocol for a non-script step"))) ∧
    (∀ e, IsScriptPhase job.stepsDesc stepNum .reducer → job.getMRStep stepNum = .error e →
      job.runReducer env stepNum = throw e) ∧
    (∀ step, IsScriptPhase job.stepsDesc stepNum .reducer → job.getMRStep stepNum = .ok step →
      step.reducer = none →
      job.runReducer env stepNum =
        throw (.valueError (.ofString "No reducer in step " ++ decimal stepNum))) ∧
    (∀ e, job.getMRStep stepNum = .error e → job.runCombiner env stepNum = throw e) ∧
    (∀ step, job.getMRStep stepNum = .ok step → step.combiner = none →
      job.runCombiner env stepNum =
        throw (.valueError (.ofString "No combiner in step " ++ decimal stepNum))) ∧
    (∀ e, job.getSparkStep stepNum = .error e → job.runSpark stepNum = throw e) ∧
    (∀ spark, job.getSparkStep stepNum = .ok spark → job.args.length ≠ 2 →
      job.runSpark stepNum = throw (.valueError (.ofString "Wrong number of args"))) := by
  have hcombiner := MRJob.runTask_of_ok (pickProtocolInstances_combiner job.stepsDesc stepNum)
  refine ⟨fun h => MRJob.runTask_of_not_script (by decide) h _ _, fun e hs he => ?_,
    fun h => MRJob.runTask_of_not_script (by decide) h _ _, fun e hs he => ?_,
    fun step hs hstep hnone => ?_, fun e he => ?_, fun step hstep hnone => ?_,
    fun e he => ?_, fun _ hspark hargs => MRJob.runSpark_of_args_length hspark hargs⟩
  · obtain ⟨r, w, hrw⟩ := pickProtocolInstances_of_isScriptPhase hs
    rw [MRJob.runMapper, MRJob.runTask_of_ok hrw, MRJob.mapPairs_of_getMRStep_error he]
  · obtain ⟨r, w, hrw⟩ := pickProtocolInstances_of_isScriptPhase hs
    rw [MRJob.runReducer, MRJob.runTask_of_ok hrw, MRJob.reducePairs,
      MRJob.combineOrReducePairs_of_getMRStep_error he]
  · obtain ⟨r, w, hrw⟩ := pickProtocolInstances_of_isScriptPhase hs
    rw [MRJob.runReducer, MRJob.runTask_of_ok hrw, MRJob.reducePairs,
      MRJob.combineOrReducePairs_of_task_none hstep
        (show step.task .reducer = none from hnone)]
    rfl
  · rw [MRJob.runCombiner, hcombiner, MRJob.combinePairs,
      MRJob.combineOrReducePairs_of_getMRStep_error he]
  · rw [MRJob.runCombiner, hcombiner, MRJob.combinePairs,
      MRJob.combineOrReducePairs_of_task_none hstep
        (show step.task .combiner = none from hnone)]
    rfl
  · simp only [MRJob.runSpark, he, liftExcept_error, throw_bind]

/-- `bytesValueJob` has one step, an `MRStep` with a script mapper and no combiner or
reducer: its mapper at step 1, its reducer and its combiner at step 0 and its Spark step at
step 0 all fail before they start. -/
theorem bytesValueJob_setup_failures :
    (¬ ((0 : ℤ) ≤ 1 ∧ (1 : ℤ) < bytesValueJob.steps.length) ∨
        ¬ IsScriptPhase bytesValueJob.stepsDesc 1 .mapper) ∧
      bytesValueJob.runMapper ⟨[], fun _ => none, fun _ => .fileNotFound⟩ 1 =
        throw (.valueError (.ofString "Can't pick a protocol for a non-script step")) ∧
      ¬ IsScriptPhase bytesValueJob.stepsDesc 0 .reducer ∧
      bytesValueJob.runReducer ⟨[], fun _ => none, fun _ => .fileNotFound⟩ 0 =
        throw (.valueError (.ofString "Can't pick a protocol for a non-script step")) ∧
      bytesValueJob.runCombiner ⟨[], fun _ => none, fun _ => .fileNotFound⟩ 0 =
        throw (.valueError (.ofString "No combiner in step " ++ decimal 0)) ∧
      bytesValueJob.runSpark 0 =
        throw (.typeError [.ofString "Step %d is not a %s", .ofString "SparkStep"]) :=
  have h := MRJob.run_setup_failures bytesValueJob 0 ⟨[], fun _ => none, fun _ => .fileNotFound⟩
  have h1 := MRJob.run_setup_failures bytesValueJob 1 ⟨[], fun _ => none, fun _ => .fileNotFound⟩
  ⟨.inl (by decide), h1.1 (.inl (by decide)), by decide, h.2.2.1 (.inr (by decide)),
    h.2.2.2.2.2.2.1 _ rfl rfl, h.2.2.2.2.2.2.2.1 _ rfl⟩

end Tasks

end Mrjob
