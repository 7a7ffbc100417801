import Mrjob.Job
import Mrjob.GroupBy

/-!
# Running the methods of one step

`map_pairs`, `combine_pairs` and `reduce_pairs` run the job's methods for one task of one
step. They are generators: what they yield goes to their consumer, `emit` here, and they
read from a lazy iterator that decodes each input record when it is pulled, `decode` on the
records `items` here. A mapper runs `mapper_init`, then `mapper` once per input pair, or
`mapper_raw` once on the two positional arguments, then `mapper_final`
(`MRJob.mapPairs_spec`). A combiner or reducer runs its `_init`, then its body once per run
of contiguous pairs with equal keys, then its `_final` (`MRJob.combineOrReducePairs_runs`).

`itertools.groupby` hands the body each run as an iterator it fills as the body pulls, so a
record that fails to decode reaches the body of the run it would extend, at the pull after
that run's last value (`MRJob.combineOrReducePairs_raises_in_run`). The loop raises the
exception again after that body returns, which is what Python does unless the body catches
the exception: then the loop ends without it.
-/

namespace Mrjob

variable {σ K V α : Type}

/-- `if hook: for k, v in hook() or (): yield k, v`: an absent method yields nothing. -/
def runHook (hook : Option (Yields σ K V)) (emit : K × V → Exec σ Unit) : Exec σ Unit :=
  match hook with
  | some hook => hook emit
  | none => pure ()

/-- A method slot such as `mapper_init` that only yields `pairs`: a present method yields
them in order and does nothing else, and an absent one leaves nothing to yield. -/
def HookYields (hook : Option (Yields σ K V)) (pairs : List (K × V)) : Prop :=
  match hook with
  | some hook => ∀ emit, hook emit = pairs.forM emit
  | none => pairs = []

/-- Running a slot that only yields `pairs` hands them to the consumer. -/
theorem runHook_of_hookYields {hook : Option (Yields σ K V)} {pairs : List (K × V)}
    (h : HookYields hook pairs) (emit : K × V → Exec σ Unit) :
    runHook hook emit = pairs.forM emit := by
  cases hook with
  | some hook => exact h emit
  | none =>
    obtain rfl : pairs = [] := h
    rfl

/-- `map_pairs(pairs, step_num)`, where `pairs` decodes `items` as they are pulled. -/
def MRJob.mapPairs (job : MRJob σ K V) (decode : α → Except PyError (K × V)) (items : List α)
    (stepNum : ℤ) (emit : K × V → Exec σ Unit) : Exec σ Unit := do
  let step ← liftExcept (job.getMRStep stepNum)
  runHook step.mapperInit emit
  match step.mapperRaw with
  | some mapperRaw =>
    match job.args with
    | [inputPath, inputUri] => mapperRaw inputPath inputUri emit
    | _ => throw (.valueError (.ofString "Wrong number of args"))
  | none =>
    items.forM fun item => do
      let pair ← liftExcept (decode item)
      step.mapper pair.1 pair.2 emit
  runHook step.mapperFinal emit

/-- Once `_get_step` has found the step, a mapper task is its hooks run in order. -/
theorem MRJob.mapPairs_of_getMRStep_ok {job : MRJob σ K V} {stepNum : ℤ} {step : MRStep σ K V}
    (hstep : job.getMRStep stepNum = .ok step) (decode : α → Except PyError (K × V))
    (items : List α) (emit : K × V → Exec σ Unit) :
    job.mapPairs decode items stepNum emit = (do
      runHook step.mapperInit emit
      match step.mapperRaw with
      | some mapperRaw =>
        match job.args with
        | [inputPath, inputUri] => mapperRaw inputPath inputUri emit
        | _ => throw (.valueError (.ofString "Wrong number of args"))
      | none => items.forM fun item => do
          let pair ← liftExcept (decode item)
          step.mapper pair.1 pair.2 emit
      runHook step.mapperFinal emit) := by
  simp only [MRJob.mapPairs, hstep, liftExcept_ok, pure_bind]

/-- A mapper task whose step `_get_step` rejects raises at once. -/
theorem MRJob.mapPairs_of_getMRStep_error {job : MRJob σ K V} {stepNum : ℤ} {e : PyError}
    (h : job.getMRStep stepNum = .error e) (decode : α → Except PyError (K × V)) (items : List α)
    (emit : K × V → Exec σ Unit) : job.mapPairs decode items stepNum emit = throw e := by
  simp only [MRJob.mapPairs, h, liftExcept_error, throw_bind]

/-- Pulling records that decode to `ps` is running on `ps`. -/
theorem forM_decode {β : Type} {decode : α → Except PyError β} {items : List α} {ps : List β}
    (h : List.Forall₂ (fun item p => decode item = .ok p) items ps) (body : β → Exec σ Unit) :
    (items.forM fun item => do let p ← liftExcept (decode item); body p) = ps.forM body := by
  induction h with
  | nil => rfl
  | cons hd _ ih => simp only [List.forM, hd, liftExcept_ok, pure_bind, ih]

/-- `yield key, sum(values)`: a body that pulls every value of its run, then yields their sum. -/
def sumBody {K : Type} (key : K) (values : Pulls ℕ) : Yields σ K ℕ := fun emit => do
  let vs ← liftExcept values.toList
  emit (key, vs.sum)

/-- On a whole run, the summing body yields the key and the sum of the run's values. -/
theorem sumBody_ofList {K : Type} (key : K) (vs : List ℕ) (emit : K × ℕ → Exec σ Unit) :
    sumBody key (.ofList vs .stop) emit = emit (key, vs.sum) := by
  simp only [sumBody, Pulls.toList_ofList_stop, liftExcept_ok, pure_bind]

section Grouping

variable [DecidableEq K]

/-- The grouping loop while a run is open: `tgtkey` is its key and `group` its values so far.
The body gets the run once it is over: its values, then the end of the run, when the next
record has another key or the input ends, or the exception decoding the next record raised,
which then ends the loop. -/
def groupbyLoop (decode : α → Except PyError (K × V)) (task : K → Pulls V → Exec σ Unit)
    (tgtkey : K) (group : List V) : List α → Exec σ Unit
  | [] => task tgtkey (.ofList group .stop)
  | item :: rest =>
    match decode item with
    | .ok pair =>
      if pair.1 = tgtkey then groupbyLoop decode task tgtkey (group ++ [pair.2]) rest
      else do
        task tgtkey (.ofList group .stop)
        groupbyLoop decode task pair.1 [pair.2] rest
    | .error e => do
      task tgtkey (.ofList group (.raise e))
      throw e

/-- `for key, pairs_for_key in itertools.groupby(pairs, ...)`, each run handed to `task`. -/
def groupbyRuns (decode : α → Except PyError (K × V)) (task : K → Pulls V → Exec σ Unit) :
    List α → Exec σ Unit
  | [] => pure ()
  | item :: rest =>
    match decode item with
    | .ok pair => groupbyLoop decode task pair.1 [pair.2] rest
    | .error e => throw e

/-- `_combine_or_reduce_pairs(pairs, mrc, step_num)` -/
def MRJob.combineOrReducePairs (job : MRJob σ K V) (decode : α → Except PyError (K × V))
    (items : List α) (mrc : Mrc) (stepNum : ℤ) (emit : K × V → Exec σ Unit) : Exec σ Unit := do
  let step ← liftExcept (job.getMRStep stepNum)
  match step.task mrc with
  | none =>
    throw (.valueError (.ofString "No " ++ mrc.name ++ .ofString " in step " ++ decimal stepNum))
  | some task =>
    runHook (step.taskInit mrc) emit
    groupbyRuns decode (fun key values => task key values emit) items
    runHook (step.taskFinal mrc) emit

/-- `combine_pairs(pairs, step_num)` -/
def MRJob.combinePairs (job : MRJob σ K V) (decode : α → Except PyError (K × V))
    (items : List α) (stepNum : ℤ) (emit : K × V → Exec σ Unit) : Exec σ Unit :=
  job.combineOrReducePairs decode items .combiner stepNum emit

/-- `reduce_pairs(pairs, step_num)` -/
def MRJob.reducePairs (job : MRJob σ K V) (decode : α → Except PyError (K × V))
    (items : List α) (stepNum : ℤ) (emit : K × V → Exec σ Unit) : Exec σ Unit :=
  job.combineOrReducePairs decode items .reducer stepNum emit

/-- A combiner or reducer task whose step `_get_step` rejects raises at once. -/
theorem MRJob.combineOrReducePairs_of_getMRStep_error {job : MRJob σ K V} {stepNum : ℤ}
    {e : PyError} (h : job.getMRStep stepNum = .error e) (decode : α → Except PyError (K × V))
    (items : List α) (mrc : Mrc) (emit : K × V → Exec σ Unit) :
    job.combineOrReducePairs decode items mrc stepNum emit = throw e := by
  simp only [MRJob.combineOrReducePairs, h, liftExcept_error, throw_bind]

/-- A combiner or reducer task whose step lacks the body raises at once. -/
theorem MRJob.combineOrReducePairs_of_task_none {job : MRJob σ K V} {stepNum : ℤ}
    {step : MRStep σ K V} {mrc : Mrc} (hstep : job.getMRStep stepNum = .ok step)
    (htask : step.task mrc = none) (decode : α → Except PyError (K × V)) (items : List α)
    (emit : K × V → Exec σ Unit) :
    job.combineOrReducePairs decode items mrc stepNum emit =
      throw (.valueError (.ofString "No " ++ mrc.name ++ .ofString " in step " ++ decimal stepNum)) := by
  simp only [MRJob.combineOrReducePairs, hstep, liftExcept_ok, pure_bind, htask]

/-- A combiner or reducer task whose step has the body: its `_init`, the grouping loop and its
`_final`. -/
theorem MRJob.combineOrReducePairs_of_task {job : MRJob σ K V} {stepNum : ℤ}
    {step : MRStep σ K V} {mrc : Mrc} {task : K → Pulls V → Yields σ K V}
    (hstep : job.getMRStep stepNum = .ok step) (htask : step.task mrc = some task)
    (decode : α → Except PyError (K × V)) (items : List α) (emit : K × V → Exec σ Unit) :
    job.combineOrReducePairs decode items mrc stepNum emit = (do
      runHook (step.taskInit mrc) emit
      groupbyRuns decode (fun key values => task key values emit) items
      runHook (step.taskFinal mrc) emit) := by
  simp only [MRJob.combineOrReducePairs, hstep, liftExcept_ok, pure_bind, htask]

/-- Pulling records that decode to `ps`, the grouping loop hands the body each run of `ps`
whole, with its end. -/
theorem groupbyLoop_ok {decode : α → Except PyError (K × V)} {items : List α}
    {ps : List (K × V)} (h : List.Forall₂ (fun item p => decode item = .ok p) items ps)
    (task : K → Pulls V → Exec σ Unit) (tgtkey : K) (group : List V) :
    groupbyLoop decode task tgtkey group items =
      (groupbyFrom tgtkey group ps).forM fun r => task r.1 (.ofList r.2 .stop) := by
  induction h generalizing tgtkey group with
  | nil => simp [groupbyLoop, groupbyFrom]
  | @cons item p items ps hd _ ih =>
    simp only [groupbyLoop, hd, groupbyFrom]
    split_ifs
    · exact ih tgtkey (group ++ [p.2])
    · simp [ih]

/-- Pulling records that decode to `ps`, `groupby` hands the body each of its runs whole. -/
theorem groupbyRuns_ok {decode : α → Except PyError (K × V)} {items : List α}
    {ps : List (K × V)} (h : List.Forall₂ (fun item p => decode item = .ok p) items ps)
    (task : K → Pulls V → Exec σ Unit) :
    groupbyRuns decode task items = (groupby ps).forM fun r => task r.1 (.ofList r.2 .stop) := by
  cases h with
  | nil => rfl
  | @cons item p items ps hd h => simp only [groupbyRuns, hd, groupbyLoop_ok h, groupby]

/-- A combiner or reducer task on pairs already decoded: its `_init`, its body on each run
`groupby` finds, its `_final`. -/
theorem MRJob.combineOrReducePairs_ok {job : MRJob σ K V} {stepNum : ℤ} {step : MRStep σ K V}
    {mrc : Mrc} {task : K → Pulls V → Yields σ K V} (hstep : job.getMRStep stepNum = .ok step)
    (htask : step.task mrc = some task) {decode : α → Except PyError (K × V)} {items : List α}
    {ps : List (K × V)} (h : List.Forall₂ (fun item p => decode item = .ok p) items ps)
    (emit : K × V → Exec σ Unit) :
    job.combineOrReducePairs decode items mrc stepNum emit = (do
      runHook (step.taskInit mrc) emit
      (groupby ps).forM fun r => task r.1 (.ofList r.2 .stop) emit
      runHook (step.taskFinal mrc) emit) := by
  rw [MRJob.combineOrReducePairs_of_task hstep htask, groupbyRuns_ok h]

end Grouping

end Mrjob
