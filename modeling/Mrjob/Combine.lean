import Mrjob.Pipeline

/-!
# Combine rounds between a map and a reduce task

Between the map task and the reduce task of a step, Hadoop may run the step's combiner any
number of times, each time on chunks of the lines handed on, one `run_combiner` task per
chunk. Negotiation has the combiner read and write with the protocol the step's mapper
writes with (`_mapper_output_protocol`), so every round hands on lines of that one
protocol. When the protocol reads back each record it writes, the lines after any number of
rounds, cut in any way, are the records of what the combiner's function gives round after
round on chunks of a reordering of the map output (`MRJob.runCombineRounds_spec`), and the
reduce task reads them back (`MRJob.step_mapCombineReduce`). Over a whole job, with combine
rounds before any substep that follows a mapper, the tasks compute the composition of the
substeps' functions with combine rounds and a reordering between each two
(`MRJob.runPipelineCombining_composes`).

The orchestrator is not part of the source: `MRJob.runCombineRounds`,
`MRJob.runMapCombineReduce` and `MRJob.runPipelineCombining` stand for it, with the cutting of
each round and the shuffle as parameters. Whether the reducer's result is the same with and without combining depends on
the job's own functions, and is left open here.
-/

namespace Mrjob

variable {σ K V : Type}

/-! ### Lists -/

/-- A relation to a flattened list of lists cuts the left list along the same lengths. -/
theorem exists_forall₂_flatten {α β : Type} {R : α → β → Prop} {xs : List α} :
    ∀ {L : List (List β)}, List.Forall₂ R xs L.flatten →
      ∃ X : List (List α), X.flatten = xs ∧ List.Forall₂ (List.Forall₂ R) X L
  | [], h => ⟨[], (List.forall₂_nil_right_iff.mp h).symm, .nil⟩
  | l :: L, h =>
    have ⟨X, hX, hXL⟩ := exists_forall₂_flatten (List.forall₂_drop_append xs l L.flatten h)
    ⟨xs.take l.length :: X, by rw [List.flatten_cons, hX, List.take_append_drop],
      .cons (List.forall₂_take_append xs l L.flatten h) hXL⟩

/-! ### What combine rounds give -/

/-- `rec` is a record of `q` under `P`: a line without a newline, not ending in `b'\r'`,
that `P` reads back as `q`. -/
def Protocol.Reads (P : Protocol K V) (q : K × V) (rec : Bytes) : Prop :=
  10 ∉ rec ∧ rec.getLast? ≠ some 13 ∧ P.read rec = .ok q

/-- What the pairs `xs` handed from a map task to a reduce task can become when the combiner
function `c` runs on them any number of times: each round cuts a reordering of the pairs into
chunks and puts what `c` gives on each chunk in its place. -/
inductive CombineRounds {α : Type} (c : List α → List α) : List α → List α → Prop
  | done (xs : List α) : CombineRounds c xs xs
  | round (xs : List α) (chunks : List (List α)) (ys : List α)
      (hcut : chunks.flatten.Perm xs) (hrest : CombineRounds c (chunks.map c).flatten ys) :
      CombineRounds c xs ys

/-- What the pipeline of functions `f :: fs`, for the substeps `phases` after the first, gives
on `xs`, when what each function gives passes through `between q` before the function of the
substep `q` runs on it. -/
inductive PipelineThrough {α β : Type} (between : β → List α → List α → Prop) :
    (List α → List α) → List β → List (List α → List α) → List α → List α → Prop
  | last (f : List α → List α) (xs : List α) : PipelineThrough between f [] [] xs (f xs)
  | cons (f g : List α → List α) (q : β) (phases : List β) (fs : List (List α → List α))
      (xs zs out : List α) (hbetween : between q (f xs) zs)
      (hrest : PipelineThrough between g phases fs zs out) :
      PipelineThrough between f (q :: phases) (g :: fs) xs out

section Tasks

variable [DecidableEq K]

/-- The combiner of a step whose mapper is the `k`-th script substep reads and writes with
the mapper's write role. -/
theorem pickProtocolInstances_combiner_of_getElem {D : List StepDesc} {i k : ℕ}
    (hk : k < (scriptSteps D).length) (hmapper : (scriptSteps D)[k] = (i, .mapper)) :
    pickProtocolInstances D i .combiner =
      .ok (writeRole (scriptSteps D).length k, writeRole (scriptSteps D).length k) := by
  have hget := get?_scriptStepMapping hk
  rw [hmapper] at hget
  have hkeq : k ≥ (scriptSteps D).length - 1 ↔ k = (scriptSteps D).length - 1 := by omega
  simp only [pickProtocolInstances, if_true, mapperOutputProtocol, hget, len_scriptStepMapping,
    writeRole, hkeq]

/-! ### The orchestrator -/

/-- Modelled from the spec: Hadoop running the combine task of step `i` in rounds on the
lines between a map and a reduce task. Each round cuts the lines it is handed into chunks,
in an order of its choosing, and runs one combine task from the job state `s` with each
chunk on stdin; the next round is handed the lines those tasks wrote, task after task. -/
def MRJob.runCombineRounds (job : MRJob σ K V) (s : σ) (i : ℕ) :
    List (List Bytes → List (List Bytes)) → List Bytes → Except PyError (List Bytes)
  | [], lines => .ok lines
  | cut :: cuts, lines => do
    let outs ← (cut lines).mapM fun chunk => job.taskOutput s (i, .combiner) chunk.flatten
    job.runCombineRounds s i cuts (outs.flatMap splitLines)

/-- Modelled from the spec: the orchestrator running step `i`: its map task on `data`, the
combine rounds `cuts` on the lines the map task wrote, and its reduce task on the lines they
leave, in the order `shuffle` puts them in. -/
def MRJob.runMapCombineReduce (job : MRJob σ K V) (s : σ) (i : ℕ)
    (cuts : List (List Bytes → List (List Bytes))) (shuffle : List Bytes → List Bytes)
    (data : Bytes) : Except PyError Bytes := do
  let mapOut ← job.taskOutput s (i, .mapper) data
  let lines ← job.runCombineRounds s i cuts (splitLines mapOut)
  job.taskOutput s (i, .reducer) (shuffle lines).flatten

section Rounds

variable {job : MRJob σ K V} (hargs : job.args = []) (s : σ) {i : ℕ} {step : MRStep σ K V}
  (hstep : job.getMRStep i = .ok step) {c : TaskSpec K V} (hc : step.YieldsTask .combiner c)
  {P : ProtocolChoice} (hP : pickProtocolInstances job.stepsDesc i .combiner = .ok (P, P))
  (hround : ∀ q : K × V, ∃ rec, (job.protocol P).write q.1 q.2 = .ok rec ∧
    (job.protocol P).Reads q rec)

include hargs hstep hc hP hround in
/-- Combine tasks on chunks of lines, each line a record of the combiner's protocol, write
the records of what the combiner gives on each chunk. -/
theorem MRJob.combineChunks {X : List (List (K × V))} {L : List (List Bytes)}
    (h : List.Forall₂ (List.Forall₂ fun q line => ∃ rec, line = rec ++ [10] ∧
      (job.protocol P).Reads q rec) X L) :
    ∃ outRecss : List (List Bytes),
      List.Forall₂ (fun chunk outRecs => job.taskOutput s (i, .combiner) chunk.flatten =
        .ok (outRecs.map (· ++ [10])).flatten) L outRecss ∧
      List.Forall₂ (job.protocol P).Reads (X.map c.run).flatten outRecss.flatten := by
  induction h with
  | nil => exact ⟨[], .nil, .nil⟩
  | @cons xs chunk _ _ hchunk _ ih =>
    obtain ⟨outRecss, htasks, hreads⟩ := ih
    obtain ⟨recs, rfl, hrecs⟩ := exists_records_of_forall₂ hchunk
    obtain ⟨outRecs, hout⟩ := exists_forall₂_of_forall hround (c.run xs)
    exact ⟨outRecs :: outRecss,
      .cons (MRJob.taskOutput_of_computes hargs s
        (show job.PhaseComputes (i, .combiner) c.run from ⟨step, c, hstep, hc, rfl⟩) hP hrecs
        (hout.imp fun _ _ h => h.1)) htasks,
      List.rel_append (hout.imp fun _ _ h => h.2) hreads⟩

include hargs hstep hc hP hround in
/-- One combine round on lines holding the records of `xs` under the combiner's protocol
succeeds and hands on the records of what the combiner gives on the chunks of a reordering
of `xs`. -/
theorem MRJob.combineRound_spec {cut : List Bytes → List (List Bytes)}
    (hcut : ∀ lines, (cut lines).flatten.Perm lines) {xs : List (K × V)} {recs : List Bytes}
    (hin : List.Forall₂ (job.protocol P).Reads xs recs) :
    ∃ (outs : List Bytes) (chunks : List (List (K × V))) (recs' : List Bytes),
      ((cut (recs.map (· ++ [10]))).mapM fun chunk =>
        job.taskOutput s (i, .combiner) chunk.flatten) = .ok outs ∧
      outs.flatMap splitLines = recs'.map (· ++ [10]) ∧ chunks.flatten.Perm xs ∧
      List.Forall₂ (job.protocol P).Reads (chunks.map c.run).flatten recs' := by
  obtain ⟨ys, recs₁, hperm, hlines, hrecs₁⟩ := exists_records_of_perm hin (hcut _)
  have hys : List.Forall₂ (fun q line => ∃ rec, line = rec ++ [10] ∧ (job.protocol P).Reads q rec)
      ys (cut (recs.map (· ++ [10]))).flatten := by
    rw [hlines, List.forall₂_map_right_iff]
    exact hrecs₁.imp fun _ rec h => ⟨rec, rfl, h⟩
  obtain ⟨X, rfl, hX⟩ := exists_forall₂_flatten hys
  obtain ⟨outRecss, htasks, hreads⟩ := MRJob.combineChunks hargs s hstep hc hP hround hX
  refine ⟨outRecss.map fun outRecs => (outRecs.map (· ++ [10])).flatten, X, outRecss.flatten,
    mapM_eq_ok_of_forall₂ (List.forall₂_map_right_iff.mpr htasks),
    flatMap_splitLines_records (newline_not_mem_of_forall₂ (fun _ _ h => h.1) hreads),
    hperm, hreads⟩

include hargs hstep hc hP hround in
/-- Any number of combine rounds, each cutting the lines it is handed in any way, on lines
holding the records of `xs` under the combiner's protocol: they succeed and leave the records
of pairs that combine rounds of `c.run` give from `xs`. -/
theorem MRJob.runCombineRounds_spec (cuts : List (List Bytes → List (List Bytes)))
    (hcuts : ∀ cut ∈ cuts, ∀ lines, (cut lines).flatten.Perm lines) :
    ∀ {xs : List (K × V)} {recs : List Bytes}, List.Forall₂ (job.protocol P).Reads xs recs →
      ∃ ys recs', CombineRounds c.run xs ys ∧ List.Forall₂ (job.protocol P).Reads ys recs' ∧
        job.runCombineRounds s i cuts (recs.map (· ++ [10])) = .ok (recs'.map (· ++ [10])) := by
  induction cuts with
  | nil => exact fun {xs recs} hin => ⟨xs, recs, .done xs, hin, rfl⟩
  | cons cut cuts ih =>
    intro xs recs hin
    obtain ⟨outs, chunks, recs₁, houts, hsplit, hperm, hrecs₁⟩ :=
      MRJob.combineRound_spec hargs s hstep hc hP hround (hcuts cut (.head _)) hin
    obtain ⟨ys, recs', hrounds, hrecs', hrun⟩ :=
      ih (fun cut' h => hcuts cut' (.tail _ h)) hrecs₁
    refine ⟨ys, recs', .round xs chunks ys hperm hrounds, hrecs', ?_⟩
    simp only [MRJob.runCombineRounds, houts, bind, Except.bind, hsplit, hrun]

end Rounds

/-- One step with combining: whatever combine rounds run between its map and reduce tasks,
however each cuts the lines, and in whatever order the shuffle hands them on, the step
succeeds, and its reducer writes the records of `t.run qs`, `qs` a reordering of what combine
rounds of `c.run` give from `m.run ps`. -/
theorem MRJob.step_mapCombineReduce (job : MRJob σ K V) (hargs : job.args = [])
    (hinternal : ∀ q : K × V, ∃ rec, job.internalProtocol.write q.1 q.2 = .ok rec ∧
      job.internalProtocol.Reads q rec)
    (i k : ℕ) (hk : k + 1 < (scriptSteps job.stepsDesc).length)
    (hmapper : (scriptSteps job.stepsDesc)[k] = (i, .mapper))
    (hreducer : (scriptSteps job.stepsDesc)[k + 1] = (i, .reducer))
    (step : MRStep σ K V) (hstep : job.getMRStep i = .ok step)
    (m : MapperSpec K V) (hm : step.YieldsMapper m) (c : TaskSpec K V)
    (hc : step.YieldsTask .combiner c) (t : TaskSpec K V) (ht : step.YieldsTask .reducer t)
    (hwrite : ∀ q : K × V, ∃ rec,
      (job.protocol (writeRole (scriptSteps job.stepsDesc).length (k + 1))).write q.1 q.2 =
        .ok rec)
    (ps : List (K × V)) (inRecords : List Bytes)
    (hin : List.Forall₂ (job.protocol (readRole k)).Reads ps inRecords) (s : σ)
    (cuts : List (List Bytes → List (List Bytes)))
    (hcuts : ∀ cut ∈ cuts, ∀ lines, (cut lines).flatten.Perm lines)
    (shuffle : List Bytes → List Bytes) (hshuffle : ∀ lines, (shuffle lines).Perm lines) :
    ∃ ys qs outRecords, CombineRounds c.run (m.run ps) ys ∧ qs.Perm ys ∧
      List.Forall₂ (fun q rec =>
        (job.protocol (writeRole (scriptSteps job.stepsDesc).length (k + 1))).write q.1 q.2 =
          .ok rec) (t.run qs) outRecords ∧
      job.runMapCombineReduce s i cuts shuffle (inRecords.map (· ++ [10])).flatten =
        .ok (outRecords.map (· ++ [10])).flatten := by
  have hinner : writeRole (scriptSteps job.stepsDesc).length k = .internal :=
    if_neg (by omega)
  have hmap : pickProtocolInstances job.stepsDesc i .mapper = .ok (readRole k, .internal) := by
    rw [← hinner]
    exact pickProtocolInstances_of_getElem (by omega) (by rw [hmapper]) (by rw [hmapper])
  have hcomb : pickProtocolInstances job.stepsDesc i .combiner = .ok (.internal, .internal) := by
    rw [← hinner]
    exact pickProtocolInstances_combiner_of_getElem (by omega) hmapper
  have hred : pickProtocolInstances job.stepsDesc i .reducer =
      .ok (.internal, writeRole (scriptSteps job.stepsDesc).length (k + 1)) :=
    pickProtocolInstances_of_getElem hk (by rw [hreducer]) (by rw [hreducer])
  obtain ⟨mapRecs, hmapRecs⟩ := exists_forall₂_of_forall hinternal (m.run ps)
  have hmapOut := MRJob.taskOutput_of_computes hargs s
    (show job.PhaseComputes (i, .mapper) m.run from ⟨step, m, hstep, hm, rfl⟩) hmap hin
    (hmapRecs.imp fun _ _ h => h.1)
  obtain ⟨ys, recs, hrounds, hrecs, hcombine⟩ := MRJob.runCombineRounds_spec hargs s hstep hc
    hcomb hinternal cuts hcuts (hmapRecs.imp fun _ _ h => h.2)
  obtain ⟨qs, recs', hperm, hlines, hrecs'⟩ := exists_records_of_perm hrecs (hshuffle _)
  obtain ⟨outRecords, hout⟩ := exists_forall₂_of_forall hwrite (t.run qs)
  have hredOut := MRJob.taskOutput_of_computes hargs s
    (show job.PhaseComputes (i, .reducer) t.run from ⟨step, t, hstep, ht, rfl⟩) hred hrecs' hout
  refine ⟨ys, qs, outRecords, hrounds, hperm, hout, ?_⟩
  simp only [MRJob.runMapCombineReduce, hmapOut, bind, Except.bind,
    splitLines_records mapRecs (newline_not_mem_of_forall₂ (fun _ _ h => h.2.1) hmapRecs),
    hcombine, hlines, hredOut]

/-- A combine round that cuts the lines into the first and the rest. -/
def headCut (lines : List Bytes) : List (List Bytes) := [lines.take 1, lines.drop 1]

/-- `headCut` cuts the lines it is given without losing or adding any. -/
theorem headCut_perm (lines : List Bytes) : (headCut lines).flatten.Perm lines :=
  .of_eq (by simp only [headCut, List.flatten_cons, List.flatten_nil, List.append_nil,
    List.take_append_drop])

/-- `sumCombineJob` on the values `1` and `2`, with one combine round that cuts the map
output into its first line and the rest, and a shuffle that reverses the lines: the step
succeeds and its reducer writes the records of a reordering of what the combine round
leaves, summed. -/
theorem sumCombineJob_mapCombineReduce :
    sumCombineJob.args = [] ∧
    (∀ q : Unit × ℕ, ∃ rec, unaryProtocol.write q.1 q.2 = .ok rec ∧ unaryProtocol.Reads q rec) ∧
    0 + 1 < (scriptSteps sumCombineJob.stepsDesc).length ∧
    (scriptSteps sumCombineJob.stepsDesc)[0]? = some (0, .mapper) ∧
    (scriptSteps sumCombineJob.stepsDesc)[1]? = some (0, .reducer) ∧
    sumCombineStep.YieldsMapper ⟨[], fun k v => [(k, v)], []⟩ ∧
    sumCombineStep.YieldsTask .combiner ⟨[], fun k vs => [(k, vs.sum)], []⟩ ∧
    sumCombineStep.YieldsTask .reducer ⟨[], fun k vs => [(k, vs.sum)], []⟩ ∧
    ∃ ys qs outRecords,
      CombineRounds (TaskSpec.run ⟨[], fun k vs => [(k, vs.sum)], []⟩)
        (MapperSpec.run ⟨[], fun k v => [(k, v)], []⟩ [((), 1), ((), 2)]) ys ∧ qs.Perm ys ∧
      List.Forall₂ (fun q rec => unaryProtocol.write q.1 q.2 = .ok rec)
        (TaskSpec.run ⟨[], fun k vs => [(k, vs.sum)], []⟩ qs) outRecords ∧
      sumCombineJob.runMapCombineReduce () 0 [fun lines => [lines.take 1, lines.drop 1]]
          List.reverse ([[97], [97, 97]].map (· ++ [10])).flatten =
        .ok (outRecords.map (· ++ [10])).flatten :=
  ⟨rfl, unaryProtocol_roundTrip, by decide, rfl, rfl, sumCombineStep_yieldsMapper,
    sumCombineStep_yieldsTask .combiner, sumCombineStep_yieldsTask .reducer,
    MRJob.step_mapCombineReduce sumCombineJob rfl unaryProtocol_roundTrip 0 0 (by decide) rfl
      rfl sumCombineStep rfl _ sumCombineStep_yieldsMapper _ (sumCombineStep_yieldsTask .combiner)
      _ (sumCombineStep_yieldsTask .reducer)
      (fun q => (unaryProtocol_roundTrip q).imp fun _ h => h.1) [((), 1), ((), 2)]
      [[97], [97, 97]] (.cons ⟨by decide, by decide, rfl⟩ (.cons ⟨by decide, by decide, rfl⟩ .nil))
      () _ (fun _ h lines => List.mem_singleton.mp h ▸ headCut_perm lines) _ List.reverse_perm⟩

/-! ### A whole job with combine rounds -/

/-- Modelled from the spec: the orchestrator running the substeps `p :: phases` in order as
`MRJob.runPipeline` does, and before each later substep `q` the combine rounds `cuts q`, with
the combiner of the step of the substep before it, on the lines that substep wrote. -/
def MRJob.runPipelineCombining (job : MRJob σ K V) (s : σ)
    (shuffle : ℕ × StepType → List Bytes → List Bytes)
    (cuts : ℕ × StepType → List (List Bytes → List (List Bytes))) (p : ℕ × StepType) :
    List (ℕ × StepType) → Bytes → Except PyError Bytes
  | [], data => job.taskOutput s p data
  | q :: phases, data => do
    let out ← job.taskOutput s p data
    let lines ← job.runCombineRounds s p.1 (cuts q) (splitLines out)
    job.runPipelineCombining s shuffle cuts q phases (shuffle q lines).flatten

section Combining

variable {job : MRJob σ K V} (hargs : job.args = [])
  (hinternal : ∀ q : K × V, ∃ rec, job.internalProtocol.write q.1 q.2 = .ok rec ∧
    job.internalProtocol.Reads q rec)
  (houtput : ∀ q : K × V, ∃ rec, job.outputProtocol.write q.1 q.2 = .ok rec)
  (s : σ) {shuffle : ℕ × StepType → List Bytes → List Bytes}
  (hshuffle : ∀ q lines, (shuffle q lines).Perm lines)
  {cuts : ℕ × StepType → List (List Bytes → List (List Bytes))}
  (hcuts : ∀ q, ∀ cut ∈ cuts q, ∀ lines, (cut lines).flatten.Perm lines)
  {comb : ℕ × StepType → List (K × V) → List (K × V)}
  (hcomb : ∀ k p q rest, (scriptSteps job.stepsDesc).drop k = p :: q :: rest → cuts q ≠ [] →
    p.2 = .mapper ∧ job.PhaseComputes (p.1, .combiner) (comb q))

include hargs hinternal hcuts in
/-- The combine rounds before the substep `q`, on the records of `xs` that the substep `p`
before it wrote with the internal protocol: nothing when `cuts q` is empty, and otherwise
rounds of the combiner of `p`'s step, a mapper. -/
theorem MRJob.combineBefore {k : ℕ} {p q : ℕ × StepType} {rest : List (ℕ × StepType)}
    (hdrop : (scriptSteps job.stepsDesc).drop k = p :: q :: rest)
    (hcomb : cuts q ≠ [] → p.2 = .mapper ∧ job.PhaseComputes (p.1, .combiner) (comb q))
    {xs : List (K × V)} {recs : List Bytes}
    (hrecs : List.Forall₂ job.internalProtocol.Reads xs recs) :
    ∃ ys recs', CombineRounds (comb q) xs ys ∧ List.Forall₂ job.internalProtocol.Reads ys recs' ∧
      job.runCombineRounds s p.1 (cuts q) (recs.map (· ++ [10])) = .ok (recs'.map (· ++ [10])) := by
  by_cases hq : cuts q = []
  · exact ⟨xs, recs, .done xs, hrecs, by rw [hq]; rfl⟩
  · obtain ⟨hmapper, step, c, hstep, hc, hceq⟩ := hcomb hq
    obtain ⟨hk, hp, -⟩ := getElem_of_drop_eq_cons hdrop
    have hlen : (scriptSteps job.stepsDesc).length - k = rest.length + 2 := by
      rw [← List.length_drop, hdrop]
      rfl
    have hinner : writeRole (scriptSteps job.stepsDesc).length k = .internal := if_neg (by omega)
    have hP : pickProtocolInstances job.stepsDesc p.1 .combiner = .ok (.internal, .internal) := by
      rw [← hinner]
      exact pickProtocolInstances_combiner_of_getElem hk (by rw [hp, ← hmapper])
    rw [hceq]
    exact MRJob.runCombineRounds_spec hargs s hstep hc hP hinternal (cuts q) (hcuts q) hrecs

include hargs hinternal houtput hshuffle hcuts hcomb in
/-- The pipeline with combine rounds from the `k`-th script substep on: its tasks compute the
composition of their substeps' functions, with combine rounds and a reordering between each
two, the first task decoding with the protocol of its read role. -/
theorem MRJob.runPipelineCombining_from (phases : List (ℕ × StepType)) :
    ∀ (k : ℕ) (p : ℕ × StepType) (f : List (K × V) → List (K × V))
      (fs : List (List (K × V) → List (K × V))),
      (scriptSteps job.stepsDesc).drop k = p :: phases →
      List.Forall₂ job.PhaseComputes (p :: phases) (f :: fs) →
      ∀ (ps : List (K × V)) (inRecords : List Bytes),
      List.Forall₂ (job.protocol (readRole k)).Reads ps inRecords →
      ∃ result outRecords,
        PipelineThrough (fun q out zs => ∃ ys, CombineRounds (comb q) out ys ∧ zs.Perm ys)
          f phases fs ps result ∧
        List.Forall₂ (fun q rec => job.outputProtocol.write q.1 q.2 = .ok rec) result
          outRecords ∧
        job.runPipelineCombining s shuffle cuts p phases (inRecords.map (· ++ [10])).flatten =
          .ok (outRecords.map (· ++ [10])).flatten := by
  induction phases with
  | nil =>
    intro k p f fs hdrop hcomp ps inRecords hin
    obtain ⟨hf, ⟨⟩⟩ := List.forall₂_cons.mp hcomp
    have hpick := pickProtocolInstances_of_drop hdrop
    rw [if_pos rfl] at hpick
    obtain ⟨outRecords, hout⟩ := exists_forall₂_of_forall houtput (f ps)
    exact ⟨f ps, outRecords, .last f ps, hout,
      MRJob.taskOutput_of_computes hargs s hf hpick hin hout⟩
  | cons q phases ih =>
    intro k p f fs hdrop hcomp ps inRecords hin
    obtain ⟨hf, _ | ⟨hg, hgs⟩⟩ := List.forall₂_cons.mp hcomp
    have hpick := pickProtocolInstances_of_drop hdrop
    rw [if_neg (List.cons_ne_nil _ _)] at hpick
    obtain ⟨recs, hrecs⟩ := exists_forall₂_of_forall hinternal (f ps)
    obtain ⟨ys, recs₁, hrounds, hrecs₁, hcombine⟩ := MRJob.combineBefore hargs hinternal s hcuts
      hdrop (hcomb k p q phases hdrop) (hrecs.imp fun _ _ h => h.2)
    obtain ⟨zs, recs', hperm, hlines, hrecs'⟩ := exists_records_of_perm hrecs₁ (hshuffle q _)
    obtain ⟨result, outRecords, hresult, hout, hrun⟩ :=
      ih (k + 1) q _ _ (getElem_of_drop_eq_cons hdrop).2.2 (.cons hg hgs) zs recs' hrecs'
    refine ⟨result, outRecords,
      .cons f _ q phases _ ps zs result ⟨ys, hrounds, hperm⟩ hresult, hout, ?_⟩
    simp only [MRJob.runPipelineCombining, MRJob.taskOutput_of_computes hargs s hf hpick hin
        (hrecs.imp fun _ _ h => h.1), bind, Except.bind,
      splitLines_records recs (newline_not_mem_of_forall₂ (fun _ _ h => h.2.1) hrecs),
      hcombine, hlines, hrun]

include hargs hinternal houtput hshuffle hcuts hcomb in
/-- A whole job with combining computes the composition of its script substeps' functions:
its last task writes the output protocol's records of a result of `f :: fs` on `ps`, each
function after the first applied to a reordering of what combine rounds give from what the
one before it gave. -/
theorem MRJob.runPipelineCombining_composes (p : ℕ × StepType) (phases : List (ℕ × StepType))
    (hsteps : scriptSteps job.stepsDesc = p :: phases) (f : List (K × V) → List (K × V))
    (fs : List (List (K × V) → List (K × V)))
    (hcomp : List.Forall₂ job.PhaseComputes (p :: phases) (f :: fs))
    (ps : List (K × V)) (inRecords : List Bytes)
    (hin : List.Forall₂ job.inputProtocol.Reads ps inRecords) :
    ∃ result outRecords,
      PipelineThrough (fun q out zs => ∃ ys, CombineRounds (comb q) out ys ∧ zs.Perm ys)
        f phases fs ps result ∧
      List.Forall₂ (fun q rec => job.outputProtocol.write q.1 q.2 = .ok rec) result outRecords ∧
      job.runPipelineCombining s shuffle cuts p phases (inRecords.map (· ++ [10])).flatten =
        .ok (outRecords.map (· ++ [10])).flatten :=
  MRJob.runPipelineCombining_from hargs hinternal houtput s hshuffle hcuts hcomb phases 0 p f fs
    (by rw [List.drop_zero, hsteps]) hcomp ps inRecords hin

end Combining

/-- `sumCombineJob` run as a whole on the values `1` and `2`, with one combine round of
`headCut` before the reducer and a shuffle that reverses the lines. -/
theorem sumCombineJob_pipelineCombining :
    sumCombineJob.args = [] ∧
    (∀ q : Unit × ℕ, ∃ rec, unaryProtocol.write q.1 q.2 = .ok rec ∧ unaryProtocol.Reads q rec) ∧
    (∀ q : Unit × ℕ, ∃ rec, unaryProtocol.write q.1 q.2 = .ok rec) ∧
    (∀ (_ : ℕ × StepType) (lines : List Bytes), lines.reverse.Perm lines) ∧
    (∀ (_ : ℕ × StepType), ∀ cut ∈ [headCut], ∀ lines, (cut lines).flatten.Perm lines) ∧
    (∀ k p (q : ℕ × StepType) rest, (scriptSteps sumCombineJob.stepsDesc).drop k = p :: q :: rest →
      [headCut] ≠ [] → p.2 = .mapper ∧ sumCombineJob.PhaseComputes (p.1, .combiner) sumSpec.run) ∧
    scriptSteps sumCombineJob.stepsDesc = [(0, .mapper), (0, .reducer)] ∧
    List.Forall₂ sumCombineJob.PhaseComputes [(0, .mapper), (0, .reducer)]
      [passSpec.run, sumSpec.run] ∧
    List.Forall₂ unaryProtocol.Reads [((), 1), ((), 2)] [[97], [97, 97]] ∧
    ∃ result outRecords,
      PipelineThrough (fun _ out zs => ∃ ys, CombineRounds sumSpec.run out ys ∧ zs.Perm ys)
        passSpec.run [((0, .reducer) : ℕ × StepType)] [sumSpec.run] [((), 1), ((), 2)] result ∧
      List.Forall₂ (fun q rec => unaryProtocol.write q.1 q.2 = .ok rec) result outRecords ∧
      sumCombineJob.runPipelineCombining () (fun _ => List.reverse) (fun _ => [headCut])
          (0, .mapper) [(0, .reducer)] ([[97], [97, 97]].map (· ++ [10])).flatten =
        .ok (outRecords.map (· ++ [10])).flatten :=
  have hsteps : scriptSteps sumCombineJob.stepsDesc = [(0, .mapper), (0, .reducer)] := rfl
  have hshuffle : ∀ (_ : ℕ × StepType) (lines : List Bytes), lines.reverse.Perm lines :=
    fun _ _ => List.reverse_perm _
  have hcuts : ∀ (_ : ℕ × StepType), ∀ cut ∈ [headCut], ∀ lines, (cut lines).flatten.Perm lines :=
    fun _ _ h lines => List.mem_singleton.mp h ▸ headCut_perm lines
  have hcomb : ∀ k p (q : ℕ × StepType) rest,
      (scriptSteps sumCombineJob.stepsDesc).drop k = p :: q :: rest → [headCut] ≠ [] →
      p.2 = .mapper ∧ sumCombineJob.PhaseComputes (p.1, .combiner) sumSpec.run := by
    intro k p q rest h _
    rw [hsteps] at h
    match k, h with
    | 0, h =>
      obtain ⟨rfl, -⟩ := List.cons.inj h
      exact ⟨rfl, sumCombineStep, sumSpec, rfl, sumCombineStep_yieldsTask .combiner, rfl⟩
    | k + 1, h =>
      have hlen := congrArg List.length h
      simp only [List.length_drop, List.length_cons, List.length_nil] at hlen
      omega
  have hcomp : List.Forall₂ sumCombineJob.PhaseComputes [(0, .mapper), (0, .reducer)]
      [passSpec.run, sumSpec.run] :=
    .cons ⟨sumCombineStep, passSpec, rfl, sumCombineStep_yieldsMapper, rfl⟩
      (.cons ⟨sumCombineStep, sumSpec, rfl, sumCombineStep_yieldsTask .reducer, rfl⟩ .nil)
  have hin : List.Forall₂ unaryProtocol.Reads [((), 1), ((), 2)] [[97], [97, 97]] :=
    .cons ⟨by decide, by decide, rfl⟩ (.cons ⟨by decide, by decide, rfl⟩ .nil)
  ⟨rfl, unaryProtocol_roundTrip, fun q => (unaryProtocol_roundTrip q).imp fun _ h => h.1,
    hshuffle, hcuts, hcomb, hsteps, hcomp, hin,
    MRJob.runPipelineCombining_composes rfl unaryProtocol_roundTrip
      (fun q => (unaryProtocol_roundTrip q).imp fun _ h => h.1) () hshuffle hcuts hcomb
      (0, .mapper) [(0, .reducer)] hsteps passSpec.run [sumSpec.run] hcomp _ _ hin⟩

end Tasks

end Mrjob
