import Mrjob.Job

/-!
# Protocol selection

`_pick_protocol_instances` decides which protocol decodes a task's input and which encodes
its output. It numbers the script substeps of the whole pipeline in order
(`_script_step_mapping`): the first reads with the input protocol, the last writes with
the output protocol, and every other boundary uses the internal protocol. A combiner reads
and writes with its step's mapper's output protocol, or with `RawValueProtocol` when that
mapper is not a script.

`scriptSteps` is the spec's table of script substeps. The loop of `_script_step_mapping`
builds exactly that table keyed by `_step_key` (`scriptStepMapping_entries`), since no key
is written twice, and every protocol choice follows from the table.
-/

namespace Mrjob

/-- Which protocol of the job a task reads or writes with. -/
inductive ProtocolChoice
  | input
  | internal
  | output
  | rawValue
  deriving DecidableEq, Repr

/-- `step[t]['type'] == 'script'` for a present entry. -/
def isScript : Option SubstepDesc → Bool
  | some substep => decide (substep.type = .ofString "script")
  | none => false

/-- Substep `t` of step `i`, when its description entry is present with the type `'script'`. -/
def scriptEntry (i : ℕ) (t : StepType) : Option SubstepDesc → List (ℕ × StepType)
  | some substep => if substep.type = .ofString "script" then [(i, t)] else []
  | none => []

/-- The script substeps of a pipeline from step `i` on: by step, mapper before reducer. -/
def scriptStepsFrom : ℕ → List StepDesc → List (ℕ × StepType)
  | _, [] => []
  | i, step :: rest =>
    scriptEntry i .mapper step.mapper ++ scriptEntry i .reducer step.reducer ++
      scriptStepsFrom (i + 1) rest

/-- The table of script substeps of a pipeline. -/
def scriptSteps (stepsDesc : List StepDesc) : List (ℕ × StepType) :=
  scriptStepsFrom 0 stepsDesc

/-- One `if '<t>' in step and step['<t>']['type'] == 'script'` block of the loop. -/
def addScriptStep (i : ℕ) (t : StepType) (entry : Option SubstepDesc)
    (acc : PyDict PyStr ℕ × ℕ) : PyDict PyStr ℕ × ℕ :=
  if isScript entry then (acc.1.set (stepKey i t) acc.2, acc.2 + 1) else acc

/-- The loop of `_script_step_mapping` from step `i` on, with the mapping and
`script_step_num` built so far. -/
def scriptStepMappingLoop : ℕ → List StepDesc → PyDict PyStr ℕ × ℕ → PyDict PyStr ℕ × ℕ
  | _, [], acc => acc
  | i, step :: rest, acc =>
    scriptStepMappingLoop (i + 1) rest
      (addScriptStep i .reducer step.reducer (addScriptStep i .mapper step.mapper acc))

/-- `_script_step_mapping(steps_desc)` -/
def scriptStepMapping (stepsDesc : List StepDesc) : PyDict PyStr ℕ :=
  (scriptStepMappingLoop 0 stepsDesc (PyDict.empty, 0)).1

/-- `_mapper_output_protocol(step_num, step_map)` -/
def mapperOutputProtocol (stepNum : ℤ) (stepMap : PyDict PyStr ℕ) : ProtocolChoice :=
  match stepMap.get? (stepKey stepNum .mapper) with
  | some n => if n ≥ stepMap.len - 1 then .output else .internal
  | none => .rawValue

/-- `_pick_protocol_instances(step_num, step_type)`, on the job's step descriptions. -/
def pickProtocolInstances (stepsDesc : List StepDesc) (stepNum : ℤ) (stepType : StepType) :
    Except PyError (ProtocolChoice × ProtocolChoice) :=
  let stepMap := scriptStepMapping stepsDesc
  if stepType = .combiner then
    let previousMapperOutput := mapperOutputProtocol stepNum stepMap
    .ok (previousMapperOutput, previousMapperOutput)
  else
    match stepMap.get? (stepKey stepNum stepType) with
    | none => .error (.valueError (.ofString "Can't pick a protocol for a non-script step"))
    | some realNum =>
      let write := if realNum = stepMap.len - 1 then ProtocolChoice.output else .internal
      let read := if realNum = 0 then ProtocolChoice.input else .internal
      .ok (read, write)

/-! ### `_step_key` -/

theorem stepKey_eq (n : ℤ) (t : StepType) :
    stepKey n t = decimal n ++ (.ofString "-" ++ t.name) :=
  List.append_assoc _ _ _

/-- `_step_key` is injective: distinct substeps never share a key. -/
theorem stepKey_inj {n m : ℤ} {t u : StepType} : stepKey n t = stepKey m u ↔ n = m ∧ t = u := by
  refine ⟨fun h => ?_, fun h => h.1 ▸ h.2 ▸ rfl⟩
  rw [stepKey_eq, stepKey_eq] at h
  have ht : t = u := by
    have hs₁ := List.suffix_append (decimal n) (PyStr.ofString "-" ++ t.name)
    have hs₂ := List.suffix_append (decimal m) (PyStr.ofString "-" ++ u.name)
    rw [h] at hs₁
    cases t <;> cases u <;>
      first
      | rfl
      | exact absurd (List.suffix_of_suffix_length_le hs₁ hs₂ (by decide)) (by decide)
      | exact absurd (List.suffix_of_suffix_length_le hs₂ hs₁ (by decide)) (by decide)
  subst ht
  exact ⟨decimal_injective (List.append_cancel_right h), rfl⟩

/-! ### The mapping is the table -/

/-- The mapping entries of a table: each substep's key, with its position from `start`. -/
def tableEntries (start : ℕ) (S : List (ℕ × StepType)) : List (PyStr × ℕ) :=
  (S.enumFrom start).map fun jp => (stepKey jp.2.1 jp.2.2, jp.1)

/-- The entries of two tables in a row number the second after the first. -/
theorem tableEntries_append (start : ℕ) (S T : List (ℕ × StepType)) :
    tableEntries start (S ++ T) = tableEntries start S ++ tableEntries (start + S.length) T := by
  simp only [tableEntries, List.enumFrom_append, List.map_append]

/-- The keys of a table's entries are its substeps' keys. -/
theorem keys_tableEntries (start : ℕ) (S : List (ℕ × StepType)) :
    (tableEntries start S).map Prod.fst = S.map fun p => stepKey p.1 p.2 := by
  rw [tableEntries, List.map_map]
  conv_rhs => rw [← List.enumFrom_map_snd start S, List.map_map]
  rfl

/-- The table's entry for one substep is the loop's test of it. -/
theorem scriptEntry_eq (i : ℕ) (t : StepType) (entry : Option SubstepDesc) :
    scriptEntry i t entry = if isScript entry then [(i, t)] else [] := by
  cases entry <;> simp [scriptEntry, isScript]

/-- A substep is in its entry exactly when it is present with the type `'script'`. -/
theorem mem_scriptEntry_iff {i : ℕ} {t : StepType} {entry : Option SubstepDesc}
    {p : ℕ × StepType} :
    p ∈ scriptEntry i t entry ↔ p = (i, t) ∧ ∃ substep, entry = some substep ∧
      substep.type = .ofString "script" := by
  cases entry <;> simp [scriptEntry, and_comm]

/-- A substep's entry names only that substep. -/
theorem mem_scriptEntry {i : ℕ} {t : StepType} {entry : Option SubstepDesc} {p : ℕ × StepType}
    (h : p ∈ scriptEntry i t entry) : p = (i, t) :=
  (mem_scriptEntry_iff.mp h).1

/-- A substep's entry names no substep of another step. -/
theorem not_mem_scriptEntry {i j : ℕ} {t t' : StepType} {entry : Option SubstepDesc}
    (h : i ≠ j) : (i, t) ∉ scriptEntry j t' entry :=
  fun hm => h (congrArg Prod.fst (mem_scriptEntry hm))

/-- The table from step `i` on names only steps from `i` on. -/
theorem le_of_mem_scriptStepsFrom {i : ℕ} {D : List StepDesc} {p : ℕ × StepType}
    (h : p ∈ scriptStepsFrom i D) : i ≤ p.1 := by
  induction D generalizing i with
  | nil => cases h
  | cons step rest ih =>
    simp only [scriptStepsFrom, List.mem_append] at h
    rcases h with (h | h) | h
    · exact (mem_scriptEntry h ▸ le_refl i)
    · exact (mem_scriptEntry h ▸ le_refl i)
    · exact Nat.le_of_succ_le (ih h)

/-- One block of the loop appends its substep to the table when that is a script. -/
theorem addScriptStep_spec (i : ℕ) (t : StepType) (entry : Option SubstepDesc)
    (acc : PyDict PyStr ℕ × ℕ) (hfresh : ∀ p ∈ scriptEntry i t entry, stepKey p.1 p.2 ∉ acc.1.keys) :
    (addScriptStep i t entry acc).1.entries =
        acc.1.entries ++ tableEntries acc.2 (scriptEntry i t entry) ∧
      (addScriptStep i t entry acc).2 = acc.2 + (scriptEntry i t entry).length := by
  rw [scriptEntry_eq] at *
  unfold addScriptStep
  by_cases h : isScript entry
  · simp only [h, if_true, List.mem_singleton, forall_eq] at hfresh ⊢
    exact ⟨PyDict.entries_set_of_not_mem _ hfresh, rfl⟩
  · simp only [h, Bool.false_eq_true, if_false]
    exact ⟨(List.append_nil _).symm, rfl⟩

/-- The loop extends the mapping by the table of the remaining steps, numbered on from
`script_step_num`, as long as the mapping's keys and theirs are all distinct. -/
theorem scriptStepMappingLoop_spec (i : ℕ) (D : List StepDesc) (acc : PyDict PyStr ℕ × ℕ)
    (hnd : (acc.1.keys ++ (scriptStepsFrom i D).map fun p => stepKey p.1 p.2).Nodup) :
    (scriptStepMappingLoop i D acc).1.entries =
        acc.1.entries ++ tableEntries acc.2 (scriptStepsFrom i D) ∧
      (scriptStepMappingLoop i D acc).2 = acc.2 + (scriptStepsFrom i D).length := by
  induction D generalizing i acc with
  | nil => simp [scriptStepMappingLoop, scriptStepsFrom, tableEntries]
  | cons step rest ih =>
    have hkeys : ∀ (a : PyDict PyStr ℕ × ℕ) (S : List (ℕ × StepType)),
        a.1.entries = acc.1.entries ++ tableEntries acc.2 S →
          a.1.keys = acc.1.keys ++ S.map fun p => stepKey p.1 p.2 :=
      fun a S h => by rw [PyDict.keys, h, List.map_append, keys_tableEntries]; rfl
    simp only [scriptStepsFrom, List.map_append, ← List.append_assoc] at hnd
    obtain ⟨hM₁, hM₂⟩ := addScriptStep_spec i .mapper step.mapper acc fun p hp hk =>
      List.disjoint_of_nodup_append hnd.of_append_left.of_append_left hk
        (List.mem_map_of_mem _ hp)
    obtain ⟨hR₁, hR₂⟩ := addScriptStep_spec i .reducer step.reducer
      (addScriptStep i .mapper step.mapper acc) fun p hp hk =>
        List.disjoint_of_nodup_append hnd.of_append_left (hkeys _ _ hM₁ ▸ hk)
          (List.mem_map_of_mem _ hp)
    have hMR : (addScriptStep i .reducer step.reducer
        (addScriptStep i .mapper step.mapper acc)).1.entries = acc.1.entries ++
          tableEntries acc.2 (scriptEntry i .mapper step.mapper ++
            scriptEntry i .reducer step.reducer) := by
      rw [hR₁, hM₁, hM₂, tableEntries_append, List.append_assoc]
    obtain ⟨ih₁, ih₂⟩ := ih (i + 1) _ (by rwa [hkeys _ _ hMR, List.map_append, ← List.append_assoc])
    rw [scriptStepMappingLoop, ih₁, ih₂, hMR, hR₂, hM₂]
    simp only [scriptStepsFrom, tableEntries_append, List.append_assoc, List.length_append]
    constructor
    · simp only [Nat.add_assoc]
    · omega

/-! ### The table -/

/-- `D[i]` has a `t` entry of type `'script'`, for `t` one of `'mapper'` and `'reducer'`. -/
def HasScriptSubstep (D : List StepDesc) (i : ℕ) : StepType → Prop
  | .mapper => ∃ step substep, D[i]? = some step ∧ step.mapper = some substep ∧
      substep.type = .ofString "script"
  | .reducer => ∃ step substep, D[i]? = some step ∧ step.reducer = some substep ∧
      substep.type = .ofString "script"
  | .combiner => False

/-- Step `i + 1` of a pipeline is step `i` of its tail. -/
theorem hasScriptSubstep_cons_succ {step : StepDesc} {rest : List StepDesc} {i : ℕ}
    {t : StepType} : HasScriptSubstep (step :: rest) (i + 1) t ↔ HasScriptSubstep rest i t := by
  cases t <;> simp [HasScriptSubstep]

/-- The table from step `j` on names the script substeps of the steps from `j` on. -/
theorem mem_scriptStepsFrom {j : ℕ} {D : List StepDesc} {i : ℕ} {t : StepType} :
    (i, t) ∈ scriptStepsFrom j D ↔ j ≤ i ∧ HasScriptSubstep D (i - j) t := by
  induction D generalizing j with
  | nil => cases t <;> simp [scriptStepsFrom, HasScriptSubstep]
  | cons step rest ih =>
    simp only [scriptStepsFrom, List.mem_append, ih]
    rcases Nat.lt_trichotomy i j with hij | rfl | hij
    · simp only [not_mem_scriptEntry hij.ne, false_or]
      omega
    · cases t <;> simp [mem_scriptEntry_iff, HasScriptSubstep]
    · obtain ⟨d, rfl⟩ : ∃ d, i = j + 1 + d := ⟨i - (j + 1), by omega⟩
      rw [show j + 1 + d - j = d + 1 by omega, show j + 1 + d - (j + 1) = d by omega,
        hasScriptSubstep_cons_succ]
      simp only [not_mem_scriptEntry hij.ne', false_or]
      exact ⟨fun h => ⟨by omega, h.2⟩, fun h => ⟨by omega, h.2⟩⟩

/-- The table holds exactly the script substeps of the pipeline. -/
theorem mem_scriptSteps {D : List StepDesc} {i : ℕ} {t : StepType} :
    (i, t) ∈ scriptSteps D ↔ HasScriptSubstep D i t := by
  simp [scriptSteps, mem_scriptStepsFrom]

/-- Within the table, steps come in order and a step's mapper before its reducer. -/
theorem scriptStepsFrom_pairwise (j : ℕ) (D : List StepDesc) :
    (scriptStepsFrom j D).Pairwise fun p q =>
      p.1 < q.1 ∨ (p.1 = q.1 ∧ p.2 = .mapper ∧ q.2 = .reducer) := by
  induction D generalizing j with
  | nil => exact List.Pairwise.nil
  | cons step rest ih =>
    have hsingle : ∀ t e, (scriptEntry j t e).Pairwise fun p q : ℕ × StepType =>
        p.1 < q.1 ∨ (p.1 = q.1 ∧ p.2 = .mapper ∧ q.2 = .reducer) := fun t e => by
      rw [scriptEntry_eq]
      split_ifs <;> simp
    refine List.pairwise_append.mpr ⟨List.pairwise_append.mpr ⟨hsingle _ _, hsingle _ _, ?_⟩,
      ih (j + 1), ?_⟩
    · intro p hp q hq
      rw [mem_scriptEntry hp, mem_scriptEntry hq]
      exact .inr ⟨rfl, rfl, rfl⟩
    · intro p hp q hq
      have hpj : p.1 = j := by
        rcases List.mem_append.mp hp with h | h <;> rw [mem_scriptEntry h]
      exact .inl (hpj ▸ le_of_mem_scriptStepsFrom hq)

/-- `_step_key` gives the substeps of the table distinct keys. -/
theorem nodup_keys_scriptSteps (D : List StepDesc) :
    ((scriptSteps D).map fun p => stepKey p.1 p.2).Nodup :=
  (scriptStepsFrom_pairwise 0 D).map _ fun p q h hk => by
    have := stepKey_inj.mp hk
    rcases h with h | ⟨-, hp, hq⟩
    · omega
    · simp [hp, hq] at this

/-- The loop from an empty mapping builds the table's entries and counts them. -/
theorem scriptStepMappingLoop_empty (D : List StepDesc) :
    (scriptStepMappingLoop 0 D (PyDict.empty, 0)).1.entries = tableEntries 0 (scriptSteps D) ∧
      (scriptStepMappingLoop 0 D (PyDict.empty, 0)).2 = (scriptSteps D).length := by
  simpa using scriptStepMappingLoop_spec 0 D (PyDict.empty, 0) (nodup_keys_scriptSteps D)

/-- `_script_step_mapping` maps the key of the `j`-th script substep to `j`, and has no
other keys. -/
theorem scriptStepMapping_entries (D : List StepDesc) :
    (scriptStepMapping D).entries = tableEntries 0 (scriptSteps D) :=
  (scriptStepMappingLoop_empty D).1

/-- The mapping has one entry per script substep. -/
theorem len_scriptStepMapping (D : List StepDesc) :
    (scriptStepMapping D).len = (scriptSteps D).length := by
  simp [PyDict.len, scriptStepMapping_entries, tableEntries]

/-- `_script_step_mapping(D)` numbers the script substeps of `D` in pipeline order: its
entries are their `_step_key`s with the values `0, …, n - 1`, its size is the final
`script_step_num`, `_step_key` never gives two substeps one key, and every value is at
most `len(mapping) - 1`. -/
theorem scriptStepMapping_numbers_script_steps (D : List StepDesc) :
    (∀ i t, (i, t) ∈ scriptSteps D ↔ HasScriptSubstep D i t) ∧
    (scriptSteps D).Pairwise (fun p q => p.1 < q.1 ∨ (p.1 = q.1 ∧ p.2 = .mapper ∧ q.2 = .reducer)) ∧
    (scriptStepMapping D).entries =
      (scriptSteps D).enum.map (fun jp => (stepKey jp.2.1 jp.2.2, jp.1)) ∧
    (scriptStepMapping D).entries.map Prod.snd = List.range (scriptSteps D).length ∧
    (scriptStepMappingLoop 0 D (PyDict.empty, 0)).2 = (scriptStepMapping D).len ∧
    Function.Injective (fun p : ℤ × StepType => stepKey p.1 p.2) ∧
    ∀ k v, (scriptStepMapping D).get? k = some v → v ≤ (scriptStepMapping D).len - 1 := by
  have hentries := scriptStepMapping_entries D
  have hloop := (scriptStepMappingLoop_empty D).2
  refine ⟨fun i t => mem_scriptSteps, scriptStepsFrom_pairwise 0 D, hentries, ?_, ?_,
    fun p q h => Prod.ext (stepKey_inj.mp h).1 (stepKey_inj.mp h).2, fun k v h => ?_⟩
  · rw [hentries, tableEntries, List.map_map]
    exact (List.enumFrom_map_fst 0 (scriptSteps D)).trans (List.range_eq_range' ..).symm
  · rw [hloop, len_scriptStepMapping]
  · have hmem := PyDict.mem_of_get? h
    rw [hentries, tableEntries, List.mem_map] at hmem
    obtain ⟨⟨j, p⟩, hjp, hkv⟩ := hmem
    have := (List.mem_enumFrom hjp).2.1
    simp only [Prod.mk.injEq] at hkv
    rw [len_scriptStepMapping, ← hkv.2]
    omega

/-! ### Protocol roles -/

/-- The spec's read role of the `k`-th script substep. -/
def readRole (k : ℕ) : ProtocolChoice :=
  if k = 0 then .input else .internal

/-- The spec's write role of the `k`-th of `n` script substeps. -/
def writeRole (n k : ℕ) : ProtocolChoice :=
  if k = n - 1 then .output else .internal

/-- The table names no combiner. -/
theorem snd_ne_combiner_of_mem_scriptSteps {D : List StepDesc} {p : ℕ × StepType}
    (h : p ∈ scriptSteps D) : p.2 ≠ .combiner := fun hc => by
  have h' := mem_scriptSteps.mp (show (p.1, p.2) ∈ scriptSteps D from h)
  rw [hc] at h'
  exact h'

/-- The mapping gives the `k`-th script substep's key the value `k`. -/
theorem get?_scriptStepMapping {D : List StepDesc} {k : ℕ} (hk : k < (scriptSteps D).length) :
    (scriptStepMapping D).get? (stepKey (scriptSteps D)[k].1 (scriptSteps D)[k].2) = some k := by
  apply PyDict.get?_of_mem
  have hmem := List.getElem_mem (l := (scriptSteps D).enumFrom 0) (n := k) (by simpa using hk)
  rw [List.getElem_enumFrom, Nat.zero_add] at hmem
  rw [scriptStepMapping_entries, tableEntries, List.mem_map]
  exact ⟨_, hmem, rfl⟩

/-- A key of no script substep is not in the mapping. -/
theorem get?_scriptStepMapping_eq_none {D : List StepDesc} {n : ℤ} {t : StepType}
    (h : ∀ p ∈ scriptSteps D, (p.1 : ℤ) = n → p.2 ≠ t) :
    (scriptStepMapping D).get? (stepKey n t) = none := by
  apply PyDict.get?_eq_none
  rw [PyDict.keys, scriptStepMapping_entries, keys_tableEntries, List.mem_map]
  rintro ⟨p, hp, hkey⟩
  exact h p hp (stepKey_inj.mp hkey).1 (stepKey_inj.mp hkey).2

/-- The `k`-th script substep reads and writes with the roles its place gives it. -/
theorem pickProtocolInstances_of_getElem {D : List StepDesc} {stepNum : ℤ} {t : StepType} {k : ℕ}
    (hk : k < (scriptSteps D).length) (hn : ((scriptSteps D)[k].1 : ℤ) = stepNum)
    (ht : (scriptSteps D)[k].2 = t) :
    pickProtocolInstances D stepNum t = .ok (readRole k, writeRole (scriptSteps D).length k) := by
  have hget := get?_scriptStepMapping hk
  have htc := snd_ne_combiner_of_mem_scriptSteps (List.getElem_mem hk)
  rw [hn, ht] at hget
  rw [ht] at htc
  simp only [pickProtocolInstances, htc, if_false, hget, len_scriptStepMapping, readRole,
    writeRole]

/-- Protocol selection follows the table: the `k`-th of `n` script substeps reads with the
input protocol exactly when `k = 0` and writes with the output protocol exactly when
`k = n - 1`, else with the internal one; any other mapper or reducer request raises
`ValueError`, and a combiner uses its mapper's write protocol, or `RawValueProtocol`. -/
theorem pickProtocolInstances_roles (D : List StepDesc) (stepNum : ℤ) (t : StepType) :
    (∀ k (hk : k < (scriptSteps D).length), ((scriptSteps D)[k].1 : ℤ) = stepNum →
        (scriptSteps D)[k].2 = t →
        pickProtocolInstances D stepNum t = .ok (readRole k, writeRole (scriptSteps D).length k)) ∧
    (t ≠ .combiner → (∀ p ∈ scriptSteps D, (p.1 : ℤ) = stepNum → p.2 ≠ t) →
        pickProtocolInstances D stepNum t =
          .error (.valueError (.ofString "Can't pick a protocol for a non-script step"))) ∧
    (t = .combiner →
        (∀ k (hk : k < (scriptSteps D).length), ((scriptSteps D)[k].1 : ℤ) = stepNum →
          (scriptSteps D)[k].2 = .mapper →
          pickProtocolInstances D stepNum t =
            .ok (writeRole (scriptSteps D).length k, writeRole (scriptSteps D).length k)) ∧
        ((∀ p ∈ scriptSteps D, (p.1 : ℤ) = stepNum → p.2 ≠ .mapper) →
          pickProtocolInstances D stepNum t = .ok (.rawValue, .rawValue))) := by
  have hlen := len_scriptStepMapping D
  refine ⟨fun k hk hn ht => pickProtocolInstances_of_getElem hk hn ht, fun hc hnot => ?_,
    fun hc => ⟨fun k hk hn hm => ?_, fun hnot => ?_⟩⟩
  · simp only [pickProtocolInstances, hc, if_false, get?_scriptStepMapping_eq_none hnot]
  · have hget := get?_scriptStepMapping hk
    rw [hn, hm] at hget
    simp only [pickProtocolInstances, hc, if_true, mapperOutputProtocol, hget, hlen, writeRole]
    have hkeq : k ≥ (scriptSteps D).length - 1 ↔ k = (scriptSteps D).length - 1 := by omega
    simp only [hkeq]
  · simp only [pickProtocolInstances, hc, if_true, mapperOutputProtocol,
      get?_scriptStepMapping_eq_none hnot]

end Mrjob
