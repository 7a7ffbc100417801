import Mrjob.Refinement

/-!
# A job as a pipeline of tasks

Hadoop Streaming runs a job's script substeps one after another, each as a task of its own:
the script with `--step-num` and `--mapper` or `--reducer`, which `execute` turns into the
substep's task (`MRJob.execute_phaseOptions`). The first task reads the job's input, and every
later one the lines the task before it wrote, in whatever order the shuffle or the part files
hand them on. Protocol negotiation makes this a composition (`MRJob.runPipeline_composes`):
the first task decodes with the input protocol, the last encodes with the output protocol,
and every task in between writes and reads with the internal protocol. So when the internal
protocol reads back each record it writes, a job whose methods only yield computes its
substeps' functions one after another, each on some reordering of what the one before it
gave, with one decoding of the input and one encoding of the output.

The orchestrator is not part of the source: `MRJob.runPipeline` stands for it, with the
reordering before each task a parameter. Combiners are left out, since Hadoop runs them any
number of times.
-/

namespace Mrjob

variable {σ K V : Type}

/-! ### Lists -/

/-- A relation total on the left relates every list to some list. -/
theorem exists_forall₂_of_forall {α β : Type} {R : α → β → Prop} (h : ∀ a, ∃ b, R a b) :
    ∀ l : List α, ∃ l', List.Forall₂ R l l'
  | [] => ⟨[], .nil⟩
  | a :: l =>
    have ⟨b, hb⟩ := h a
    have ⟨l', hl'⟩ := exists_forall₂_of_forall h l
    ⟨b :: l', .cons hb hl'⟩

/-- A list whose suffix from `k` starts with `a` has `a` at `k`. -/
theorem getElem_of_drop_eq_cons {α : Type} {l : List α} {k : ℕ} {a : α} {rest : List α}
    (h : l.drop k = a :: rest) : ∃ hk : k < l.length, l[k] = a ∧ l.drop (k + 1) = rest := by
  have hk : k < l.length := by
    by_contra hk
    rw [List.drop_eq_nil_of_le (by omega)] at h
    cases h
  rw [List.drop_eq_getElem_cons hk] at h
  exact ⟨hk, List.cons.inj h⟩

/-- Lines each holding a record and its newline are the lines of a list of records. -/
theorem exists_records_of_forall₂ {α : Type} {R : α → Bytes → Prop} {xs : List α}
    {lines : List Bytes}
    (h : List.Forall₂ (fun x line => ∃ rec, line = rec ++ [10] ∧ R x rec) xs lines) :
    ∃ recs, lines = recs.map (· ++ [10]) ∧ List.Forall₂ R xs recs := by
  induction h with
  | nil => exact ⟨[], rfl, .nil⟩
  | cons hx _ ih =>
    obtain ⟨rec, rfl, hr⟩ := hx
    obtain ⟨recs, rfl, hrecs⟩ := ih
    exact ⟨rec :: recs, rfl, .cons hr hrecs⟩

/-- The lines of the records of `xs`, reordered, are the lines of the records of a reordering
of `xs`. -/
theorem exists_records_of_perm {α : Type} {R : α → Bytes → Prop} {xs : List α}
    {recs lines : List Bytes} (h : List.Forall₂ R xs recs)
    (hperm : lines.Perm (recs.map (· ++ [10]))) :
    ∃ ys recs', ys.Perm xs ∧ lines = recs'.map (· ++ [10]) ∧ List.Forall₂ R ys recs' := by
  have hlines : List.Forall₂ (fun line x => ∃ rec, line = rec ++ [10] ∧ R x rec)
      (recs.map (· ++ [10])) xs :=
    List.forall₂_map_left_iff.mpr (h.flip.imp fun rec _ hr => ⟨rec, rfl, hr⟩)
  obtain ⟨ys, hys, hperm'⟩ := List.perm_comp_forall₂ hperm hlines
  obtain ⟨recs', rfl, hrecs'⟩ := exists_records_of_forall₂ hys.flip
  exact ⟨ys, recs', hperm', rfl, hrecs'⟩

/-! ### What a pipeline computes -/

/-- What the pipeline of functions `f :: fs` gives on `xs`: each function in turn, each after
the first on some reordering of what the one before it gave. -/
inductive PipelineResult {α : Type} :
    (List α → List α) → List (List α → List α) → List α → List α → Prop
  | last (f : List α → List α) (xs : List α) : PipelineResult f [] xs (f xs)
  | cons (f g : List α → List α) (fs : List (List α → List α)) (xs ys out : List α)
      (hperm : ys.Perm (f xs)) (hrest : PipelineResult g fs ys out) :
      PipelineResult f (g :: fs) xs out

section Tasks

variable [DecidableEq K]

/-! ### Tasks of script substeps -/

/-- The options the substep `(i, t)` is run with: `--step-num=i` and the flag of `t`. -/
def phaseOptions (p : ℕ × StepType) : Options where
  showSteps := false
  runMapper := decide (p.2 = .mapper)
  runCombiner := decide (p.2 = .combiner)
  runReducer := decide (p.2 = .reducer)
  runSpark := false
  stepNum := p.1

/-- The task of the substep `p`: `run_mapper`, `run_combiner` or `run_reducer` of its step. -/
def MRJob.phaseTask (job : MRJob σ K V) (env : Env) : ℕ × StepType → Exec σ Unit
  | (i, .mapper) => job.runMapper env i
  | (i, .combiner) => job.runCombiner env i
  | (i, .reducer) => job.runReducer env i

/-- `execute` run with a substep's options runs the substep's task. -/
theorem MRJob.execute_phaseOptions (job : MRJob σ K V) (env : Env) (p : ℕ × StepType) :
    job.execute env (phaseOptions p) = job.phaseTask env p := by
  obtain ⟨i, t⟩ := p
  cases t <;> rfl

/-- What the substep `p` computes when its step's methods only yield: `MapperSpec.run` for a
mapper, `TaskSpec.run` for a combiner or a reducer. -/
def MRJob.PhaseComputes (job : MRJob σ K V) :
    ℕ × StepType → (List (K × V) → List (K × V)) → Prop
  | (i, .mapper), f => ∃ step m, job.getMRStep i = .ok step ∧ step.YieldsMapper m ∧ f = m.run
  | (i, .combiner), f =>
    ∃ step t, job.getMRStep i = .ok step ∧ step.YieldsTask .combiner t ∧ f = t.run
  | (i, .reducer), f =>
    ∃ step t, job.getMRStep i = .ok step ∧ step.YieldsTask .reducer t ∧ f = t.run

/-- The task of a substep that computes `f` writes the records of `f ps` under the protocol
picked for writing, when its input holds, one per line, records that the protocol picked for
reading decodes to `ps`. -/
theorem MRJob.phaseTask_writes {job : MRJob σ K V} {p : ℕ × StepType}
    {f : List (K × V) → List (K × V)} (hf : job.PhaseComputes p f) {r w : ProtocolChoice}
    (hpick : pickProtocolInstances job.stepsDesc p.1 p.2 = .ok (r, w))
    {ps : List (K × V)} {inRecords : List Bytes}
    (hin : List.Forall₂ (fun q rec => 10 ∉ rec ∧ rec.getLast? ≠ some 13 ∧
      (job.protocol r).read rec = .ok q) ps inRecords)
    {env : Env} (hinput : InputIs job.args env (inRecords.map (· ++ [10])).flatten)
    {outRecords : List Bytes}
    (hout : List.Forall₂ (fun q rec => (job.protocol w).write q.1 q.2 = .ok rec) (f ps)
      outRecords)
    (world : World σ) :
    (job.phaseTask env p).run world =
      .ok () { world with stdout := world.stdout ++ (outRecords.map (· ++ [10])).flatten } := by
  obtain ⟨i, t⟩ := p
  cases t with
  | mapper =>
    obtain ⟨step, m, hstep, hm, rfl⟩ := hf
    exact MRJob.runTask_writes hpick
      (fun _ _ emit hitems => MRJob.mapPairs_of_yieldsMapper hstep hm hitems emit)
      hin hinput hout world
  | combiner | reducer =>
    obtain ⟨step, t, hstep, ht, rfl⟩ := hf
    exact MRJob.runTask_writes hpick
      (fun _ _ emit hitems => MRJob.combineOrReducePairs_of_yieldsTask hstep ht hitems emit)
      hin hinput hout world

/-! ### The orchestrator -/

/-- What the script run as the substep `p`, that is `execute` with `p`'s options, writes to
stdout when it runs from the job state `s` with `data` on stdin, or the exception it raises. -/
def MRJob.taskOutput (job : MRJob σ K V) (s : σ) (p : ℕ × StepType) (data : Bytes) :
    Except PyError Bytes :=
  match (job.execute ⟨data, fun _ => none, fun _ => .fileNotFound⟩ (phaseOptions p)).run
      ⟨s, [], []⟩ with
  | .ok _ w => .ok w.stdout
  | .error e _ => .error e

/-- Modelled from the spec: the orchestrator, which is not in the source, running the
substeps `p :: phases` in order, each as a task of its own from the job state `s` with its
input on stdin. The first task reads `data`; the task of each later substep `q` reads the
lines the task before it wrote, in the order `shuffle q` puts them in. The result is what the
last task wrote, or the first exception a task raised. -/
def MRJob.runPipeline (job : MRJob σ K V) (s : σ)
    (shuffle : ℕ × StepType → List Bytes → List Bytes) (p : ℕ × StepType) :
    List (ℕ × StepType) → Bytes → Except PyError Bytes
  | [], data => job.taskOutput s p data
  | q :: phases, data => do
    let out ← job.taskOutput s p data
    job.runPipeline s shuffle q phases (shuffle q (splitLines out)).flatten

/-- The substep at position `k` of the table reads with the role of `k`, and writes with the
output protocol when it is the last and with the internal one otherwise. -/
theorem pickProtocolInstances_of_drop {D : List StepDesc} {k : ℕ} {p : ℕ × StepType}
    {phases : List (ℕ × StepType)} (h : (scriptSteps D).drop k = p :: phases) :
    pickProtocolInstances D p.1 p.2 =
      .ok (readRole k, if phases = [] then .output else .internal) := by
  obtain ⟨hk, hp, -⟩ := getElem_of_drop_eq_cons h
  have hlen : (scriptSteps D).length - k = phases.length + 1 := by
    rw [← List.length_drop, h, List.length_cons]
  have hlast : k = (scriptSteps D).length - 1 ↔ phases = [] := by
    rw [← List.length_eq_zero]
    omega
  rw [pickProtocolInstances_of_getElem hk (by rw [hp]) (by rw [hp]), writeRole]
  simp only [hlast]

section Run

variable {job : MRJob σ K V} (hargs : job.args = [])
  (hinternal : ∀ q : K × V, ∃ rec, job.internalProtocol.write q.1 q.2 = .ok rec ∧ 10 ∉ rec ∧
    rec.getLast? ≠ some 13 ∧ job.internalProtocol.read rec = .ok q)
  (houtput : ∀ q : K × V, ∃ rec, job.outputProtocol.write q.1 q.2 = .ok rec)
  (s : σ) {shuffle : ℕ × StepType → List Bytes → List Bytes}
  (hshuffle : ∀ q lines, (shuffle q lines).Perm lines)

include hargs in
/-- One task of the pipeline: a substep that computes `f`, on stdin holding records that the
protocol picked for reading decodes to `ps`, writes the records of `f ps`. -/
theorem MRJob.taskOutput_of_computes {p : ℕ × StepType} {f : List (K × V) → List (K × V)}
    (hf : job.PhaseComputes p f) {r w : ProtocolChoice}
    (hpick : pickProtocolInstances job.stepsDesc p.1 p.2 = .ok (r, w))
    {ps : List (K × V)} {inRecords : List Bytes}
    (hin : List.Forall₂ (fun q rec => 10 ∉ rec ∧ rec.getLast? ≠ some 13 ∧
      (job.protocol r).read rec = .ok q) ps inRecords)
    {outRecords : List Bytes}
    (hout : List.Forall₂ (fun q rec => (job.protocol w).write q.1 q.2 = .ok rec) (f ps)
      outRecords) :
    job.taskOutput s p (inRecords.map (· ++ [10])).flatten =
      .ok (outRecords.map (· ++ [10])).flatten := by
  rw [MRJob.taskOutput, MRJob.execute_phaseOptions,
    MRJob.phaseTask_writes hf hpick hin (.inl ⟨.inl hargs, rfl⟩) hout]
  rfl

include hargs hinternal houtput hshuffle in
/-- The pipeline from the `k`-th script substep on: its tasks compute the composition of their
substeps' functions, the first decoding with the protocol of its read role. -/
theorem MRJob.runPipeline_from (phases : List (ℕ × StepType)) :
    ∀ (k : ℕ) (p : ℕ × StepType) (f : List (K × V) → List (K × V))
      (fs : List (List (K × V) → List (K × V))),
      (scriptSteps job.stepsDesc).drop k = p :: phases →
      List.Forall₂ job.PhaseComputes (p :: phases) (f :: fs) →
      ∀ (ps : List (K × V)) (inRecords : List Bytes),
      List.Forall₂ (fun q rec => 10 ∉ rec ∧ rec.getLast? ≠ some 13 ∧
        (job.protocol (readRole k)).read rec = .ok q) ps inRecords →
      ∃ result outRecords, PipelineResult f fs ps result ∧
        List.Forall₂ (fun q rec => job.outputProtocol.write q.1 q.2 = .ok rec) result
          outRecords ∧
        job.runPipeline s shuffle p phases (inRecords.map (· ++ [10])).flatten =
          .ok (outRecords.map (· ++ [10])).flatten := by
  induction phases with
  | nil =>
    intro k p f fs hdrop hcomp ps inRecords hin
    obtain ⟨hf, ⟨⟩⟩ := List.forall₂_cons.mp hcomp
    have hpick := pickProtocolInstances_of_drop hdrop
    rw [if_pos rfl] at hpick
    obtain ⟨outRecords, hout⟩ := exists_forall₂_of_forall houtput (f ps)
    exact ⟨f ps, outRecords, .last f ps, hout,
      MRJob.taskOutput_of_computes hargs s hf hpick hin hout⟩
  | cons q phases ih =>
    intro k p f fs hdrop hcomp ps inRecords hin
    obtain ⟨hf, _ | ⟨hg, hgs⟩⟩ := List.forall₂_cons.mp hcomp
    have hpick := pickProtocolInstances_of_drop hdrop
    rw [if_neg (List.cons_ne_nil _ _)] at hpick
    obtain ⟨recs, hrecs⟩ := exists_forall₂_of_forall hinternal (f ps)
    obtain ⟨qs, recs', hperm, hlines, hrecs'⟩ :=
      exists_records_of_perm (hrecs.imp fun _ _ h => h.2) (hshuffle q (recs.map (· ++ [10])))
    obtain ⟨result, outRecords, hresult, hout, hrun⟩ :=
      ih (k + 1) q _ _ (getElem_of_drop_eq_cons hdrop).2.2 (.cons hg hgs) qs recs' hrecs'
    refine ⟨result, outRecords, .cons f _ _ ps qs result hperm hresult, hout, ?_⟩
    have hnl : ∀ rec ∈ recs, 10 ∉ rec :=
      newline_not_mem_of_forall₂ (fun _ _ h => h.2.1) hrecs
    rw [MRJob.runPipeline, MRJob.taskOutput_of_computes hargs s hf hpick hin
      (hrecs.imp fun _ _ h => h.1)]
    simp only [bind, Except.bind]
    rw [splitLines_records recs hnl, hlines]
    exact hrun

include hargs hinternal houtput hshuffle in
/-- A job run as a pipeline of tasks computes the composition of its script substeps'
functions: its last task writes the output protocol's records of a result of `f :: fs` on
`ps`, each function after the first applied to a reordering of what the one before it gave. -/
theorem MRJob.runPipeline_composes (p : ℕ × StepType) (phases : List (ℕ × StepType))
    (hsteps : scriptSteps job.stepsDesc = p :: phases) (f : List (K × V) → List (K × V))
    (fs : List (List (K × V) → List (K × V)))
    (hcomp : List.Forall₂ job.PhaseComputes (p :: phases) (f :: fs))
    (ps : List (K × V)) (inRecords : List Bytes)
    (hin : List.Forall₂ (fun q rec => 10 ∉ rec ∧ rec.getLast? ≠ some 13 ∧
      job.inputProtocol.read rec = .ok q) ps inRecords) :
    ∃ result outRecords, PipelineResult f fs ps result ∧
      List.Forall₂ (fun q rec => job.outputProtocol.write q.1 q.2 = .ok rec) result outRecords ∧
      job.runPipeline s shuffle p phases (inRecords.map (· ++ [10])).flatten =
        .ok (outRecords.map (· ++ [10])).flatten :=
  MRJob.runPipeline_from hargs hinternal houtput s hshuffle phases 0 p f fs
    (by rw [List.drop_zero, hsteps]) hcomp ps inRecords hin

end Run

/-- A step with only a mapper, which doubles each value. -/
def doubleStep : MRStep Unit Unit ℕ where
  mapper k v emit := emit (k, 2 * v)
  mapperInit := none
  mapperFinal := none
  mapperRaw := none
  combiner := none
  combinerInit := none
  combinerFinal := none
  reducer := none
  reducerInit := none
  reducerFinal := none

/-- The mapper function of `doubleStep`, which doubles each value. -/
def doubleSpec : MapperSpec Unit ℕ := ⟨[], fun k v => [(k, 2 * v)], []⟩

/-- A two-step job over `unaryProtocol`: its first step sums the values, its second doubles
each value; the substeps present are scripts. -/
def sumDoubleJob : MRJob Unit Unit ℕ where
  steps := [.mrStep sumValuesStep, .mrStep doubleStep]
  description _ i :=
    .streaming (some (.ofString "script")) (if i = 0 then some (.ofString "script") else none)
  inputProtocol := unaryProtocol
  internalProtocol := unaryProtocol
  outputProtocol := unaryProtocol
  rawValueProtocol := unaryProtocol
  args := []
  logWarning _ := pure ()
  launch := pure ()

/-- The substeps of `sumDoubleJob` only yield: its mapper passes each pair on, its reducer
sums a key's values, and its second mapper doubles each value. -/
theorem sumDoubleJob_phaseComputes :
    List.Forall₂ sumDoubleJob.PhaseComputes [(0, .mapper), (0, .reducer), (1, .mapper)]
      [passSpec.run, sumSpec.run, doubleSpec.run] :=
  .cons ⟨sumValuesStep, passSpec, rfl, sumValuesStep_yieldsMapper, rfl⟩
    (.cons ⟨sumValuesStep, sumSpec, rfl, sumValuesStep_yieldsReducer, rfl⟩
      (.cons ⟨doubleStep, doubleSpec, rfl,
          ⟨rfl, rfl, fun _ _ _ => by simp [doubleStep, doubleSpec, List.forM], rfl⟩, rfl⟩
        .nil))

/-- `sumDoubleJob` on the values `1` and `2`, each task reading its input lines reversed, runs
its three script substeps and writes the output records of a result of summing and then
doubling. -/
theorem sumDoubleJob_pipeline :
    sumDoubleJob.args = [] ∧
    (∀ q : Unit × ℕ, ∃ rec, unaryProtocol.write q.1 q.2 = .ok rec ∧ 10 ∉ rec ∧
      rec.getLast? ≠ some 13 ∧ unaryProtocol.read rec = .ok q) ∧
    scriptSteps sumDoubleJob.stepsDesc = [(0, .mapper), (0, .reducer), (1, .mapper)] ∧
    List.Forall₂ sumDoubleJob.PhaseComputes [(0, .mapper), (0, .reducer), (1, .mapper)]
      [passSpec.run, sumSpec.run, doubleSpec.run] ∧
    ∃ result outRecords,
      PipelineResult passSpec.run [sumSpec.run, doubleSpec.run] [((), 1), ((), 2)] result ∧
      List.Forall₂ (fun q rec => unaryProtocol.write q.1 q.2 = .ok rec) result outRecords ∧
      sumDoubleJob.runPipeline () (fun _ lines => lines.reverse) (0, .mapper)
          [(0, .reducer), (1, .mapper)] ([[97], [97, 97]].map (· ++ [10])).flatten =
        .ok (outRecords.map (· ++ [10])).flatten :=
  ⟨rfl, unaryProtocol_roundTrip, rfl, sumDoubleJob_phaseComputes,
    MRJob.runPipeline_composes (show sumDoubleJob.args = [] from rfl) unaryProtocol_roundTrip
      (fun q => (unaryProtocol_roundTrip q).imp fun _ h => h.1) ()
      (fun _ lines => List.reverse_perm lines) (0, .mapper) [(0, .reducer), (1, .mapper)] rfl _ _
      sumDoubleJob_phaseComputes [((), 1), ((), 2)] [[97], [97, 97]]
      (.cons ⟨by decide, by decide, rfl⟩ (.cons ⟨by decide, by decide, rfl⟩ .nil))⟩

end Tasks

end Mrjob
