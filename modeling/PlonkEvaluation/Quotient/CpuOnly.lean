import PlonkEvaluation.Quotient.Permutation
import PlonkEvaluation.Quotient.Lookup
import Mathlib.Data.PNat.Basic

/-! `evaluate_h_cpu_only`, modelled as the relation between its inputs and the vectors its splits and
interleavings can return; each holds the Horner fold of every proof's residuals at each row. -/

namespace PlonkEvaluation

variable {F : Type} [CommRing F]

def rowRead (pk : ProvingKey F) (advice «instance» : List (List F)) (challenges : List F)
    (idx : Nat) (e : Expression F) : Option F :=
  evaluateRow e idx pk.vk.domain.rotScale (toI32 pk.vk.domain.extendedLen) pk.fixedCosets advice
    «instance» challenges

def gateValues (cs : ConstraintSystem F) (read : Expression F → Option F) : Option (List F) :=
  (cs.gates.flatMap (·.polynomials)).mapM read

section Gates

variable (ev : Evaluator F) (pk : ProvingKey F) (advice «instance» : List (List F))
  (challenges : List F) (beta gamma theta y : F) (rotScale isize : Int)

/-- The inputs of the custom-gate graph at a row: `previous_value` is the row's value. -/
def gateInputs (value : F) : Inputs F :=
  ⟨pk.fixedCosets, advice, «instance», challenges, beta, gamma, theta, y, value⟩

def gatesRow (data : EvaluationData F) (idx : Nat) (value : F) : F × EvaluationData F :=
  ev.customGates.evaluate data (gateInputs pk advice «instance» challenges beta gamma theta y value)
    idx rotScale isize

variable [DecidableEq F]

theorem gatesRow_good {cs : ConstraintSystem F} (hev : Evaluator.new cs = some ev)
    (hgates : ∀ p ∈ cs.gates.flatMap (·.polynomials), p.selectorFree) (data : EvaluationData F)
    (idx : Nat) (value : F) (hd : data.intermediates.length = ev.customGates.numIntermediates ∧
      data.rotations.length = ev.customGates.rotations.length) :
    (gatesRow ev pk advice «instance» challenges beta gamma theta y rotScale isize data idx value).1 =
      hornerFold y value ((gateValues cs fun e =>
        evaluateRow e idx rotScale isize pk.fixedCosets advice «instance» challenges).getD []) ∧
    ((gatesRow ev pk advice «instance» challenges beta gamma theta y rotScale isize data idx
        value).2.intermediates.length = ev.customGates.numIntermediates ∧
      (gatesRow ev pk advice «instance» challenges beta gamma theta y rotScale isize data idx
        value).2.rotations.length = ev.customGates.rotations.length) := by
  refine ⟨?_, ev.customGates.evaluate_sizes hd _ idx rotScale isize⟩
  obtain ⟨vs, hvs, hv⟩ := (GraphEvaluator.customGates_spec hev hgates).2 data hd.1 hd.2
    (gateInputs pk advice «instance» challenges beta gamma theta y value) idx rotScale isize
  rw [gatesRow, hv, gateValues]
  simp only [gateInputs] at hvs ⊢
  rw [hvs, Option.getD_some, hornerFold, foldl_horner]

theorem gatesPass_eq {cs : ConstraintSystem F} (hev : Evaluator.new cs = some ev)
    (hgates : ∀ p ∈ cs.gates.flatMap (·.polynomials), p.selectorFree) (lens order : List Nat)
    (values : List F) (hlens : lens.sum = values.length) :
    parallelPass (fun _ => ev.customGates.«instance»)
        (gatesRow ev pk advice «instance» challenges beta gamma theta y rotScale isize) lens order
        values =
      values.mapIdx fun idx value => hornerFold y value ((gateValues cs fun e =>
        evaluateRow e idx rotScale isize pk.fixedCosets advice «instance» challenges).getD []) :=
  parallelPass_eq (gatesRow_good ev pk advice «instance» challenges beta gamma theta y rotScale
    isize hev hgates) (fun _ => ⟨by simp, by simp⟩) lens order values hlens

end Gates

section Passes

variable (numThreads : ℕ+) (ev : Evaluator F) (pk : ProvingKey F) (challenges : List F)
  (y beta gamma theta : F)

/-- The lookup passes of one proof, each as `parallelize` runs it.  Pass `n` evaluates the `n`-th
lookup graph, where the source panics out of range. -/
def LookupPasses (advice «instance» : List (List F)) :
    List (Nat × Lookup.Committed F) → List F → List F → Prop
  | [], values, values' => values' = values
  | (n, lookup) :: lookups, values, values' =>
    ∃ (split : Split values.length) (order : List Nat),
      LookupPasses advice «instance» lookups
        (parallelPass (fun _ => (ev.lookups.getD n .default).«instance»)
          (lookupRow pk advice «instance» challenges beta gamma theta y
            (pk.vk.domain.coeffToExtended lookup.productPoly)
            (pk.vk.domain.coeffToExtended lookup.permutedInputPoly)
            (pk.vk.domain.coeffToExtended lookup.permutedTablePoly) pk.vk.domain.rotScale
            (toI32 pk.vk.domain.extendedLen) (ev.lookups.getD n .default)) split.lens order values)
        values'

variable [FieldExt F]

/-- The custom-gate pass over the chunks of `chunks_mut`, then the permutation pass when the
proof's permutation has sets: what both paths run before the lookups. -/
def GatesPermutationPasses (advice «instance» : List (List F))
    (permutation : Permutation.Committed F) (values permuted : List F) : Prop :=
  let size := pk.vk.domain.extendedLen
  let rotScale := pk.vk.domain.rotScale
  let isize := toI32 size
  let chunkSize := (size + (numThreads : Nat) - 1) / numThreads
  ∃ gatesOrder : List Nat,
    let gated := parallelPass (fun _ => ev.customGates.«instance»)
      (gatesRow ev pk advice «instance» challenges beta gamma theta y rotScale isize)
      (chunkLens chunkSize values.length values.length) gatesOrder values
    if permutation.sets.isEmpty then permuted = gated
    else ∃ (split : Split gated.length) (order : List Nat),
      permuted = parallelPass (fun start => pk.vk.domain.extendedOmega ^ start)
        (permutationStep pk advice «instance» beta gamma y
          (permutation.sets.map (·.permutationProductCoset)) rotScale isize) split.lens order gated

def ProofPasses (advice «instance» : List (List F)) (lookups : List (Lookup.Committed F))
    (permutation : Permutation.Committed F) (values values' : List F) : Prop :=
  ∃ permuted, GatesPermutationPasses numThreads ev pk challenges y beta gamma theta advice
      «instance» permutation values permuted ∧
    LookupPasses ev pk challenges y beta gamma theta advice «instance» lookups.enum permuted values'

def ProofsPasses :
    List (((List (List F) × List (List F)) × List (Lookup.Committed F)) × Permutation.Committed F) →
      List F → List F → Prop
  | [], values, values' => values' = values
  | (((advice, «instance»), lookups), permutation) :: proofs, values, values' =>
    ∃ mid, ProofPasses numThreads ev pk challenges y beta gamma theta advice «instance» lookups
      permutation values mid ∧ ProofsPasses proofs mid values'

/-- `evaluate_h_cpu_only` with `numThreads` threads can return `values`. -/
def EvaluateHCpuOnly (advicePolys instancePolys : List (List (List F)))
    (lookups : List (List (Lookup.Committed F))) (permutations : List (Permutation.Committed F))
    (values : List F) : Prop :=
  let advice := advicePolys.map (·.map pk.vk.domain.coeffToExtended)
  let «instance» := instancePolys.map (·.map pk.vk.domain.coeffToExtended)
  ProofsPasses numThreads ev pk challenges y beta gamma theta
    (((advice.zip «instance»).zip lookups).zip permutations) pk.vk.domain.emptyExtended values

end Passes

section Residuals

variable (pk : ProvingKey F) (beta gamma theta : F)

def lookupTerms (read : Expression F → Option F) (lookups : List (Lookup.Committed F))
    (idx : Nat) : Option (List (List F)) :=
  (lookups.zip pk.vk.cs.lookups).mapM fun x => (tableValue x.2 read beta gamma theta).map
    (lookupResiduals pk beta gamma (pk.vk.domain.coeffToExtended x.1.productPoly)
      (pk.vk.domain.coeffToExtended x.1.permutedInputPoly)
      (pk.vk.domain.coeffToExtended x.1.permutedTablePoly) pk.vk.domain.rotScale
      (toI32 pk.vk.domain.extendedLen) idx)

variable [FieldExt F]

/-- The residuals of one proof at row `idx`: the gate polynomials, the permutation residuals when
the permutation has sets, the five residuals of each lookup. -/
def proofResiduals (read : Expression F → Option F) (advice «instance» : List (List F))
    (lookups : List (Lookup.Committed F)) (permutation : Permutation.Committed F) (idx : Nat) :
    Option (List F) := do
  let gates ← gateValues pk.vk.cs read
  let lookupTerms ← lookupTerms pk beta gamma theta read lookups idx
  some (gates ++ (if permutation.sets.isEmpty then [] else
      permutationResiduals pk advice «instance» beta gamma
        (permutation.sets.map (·.permutationProductCoset)) pk.vk.domain.rotScale
        (toI32 pk.vk.domain.extendedLen) idx) ++
    lookupTerms.flatten)

/-- The residuals at row `idx` of all proofs, read by the reference `evaluate`. -/
def quotientResiduals (advicePolys instancePolys : List (List (List F))) (challenges : List F)
    (lookups : List (List (Lookup.Committed F))) (permutations : List (Permutation.Committed F))
    (idx : Nat) : Option (List F) :=
  let advice := advicePolys.map (·.map pk.vk.domain.coeffToExtended)
  let «instance» := instancePolys.map (·.map pk.vk.domain.coeffToExtended)
  ((((advice.zip «instance»).zip lookups).zip permutations).mapM fun p =>
    proofResiduals pk beta gamma theta (referenceRow pk.vk.domain.extendedLen pk.vk.domain.rotScale
      pk.fixedCosets p.1.1.1 p.1.1.2 challenges idx) p.1.1.1 p.1.1.2 p.1.2 p.2 idx).map
    List.flatten

end Residuals

section Spec

theorem length_le_of_mem_zip_lookups {G : Type} {n : Nat} {lookups : List (List (Lookup.Committed G))}
    (hlen : ∀ l ∈ lookups, l.length ≤ n) (advice «instance» : List (List (List G)))
    (permutations : List (Permutation.Committed G)) :
    ∀ q ∈ ((advice.zip «instance»).zip lookups).zip permutations, q.1.2.length ≤ n :=
  fun _ hq => hlen _ (List.of_mem_zip (List.of_mem_zip hq).1).2

theorem mapIdx_self {α : Type} (l : List α) : l.mapIdx (fun _ v => v) = l :=
  List.mapIdx_eq_iff.mpr fun _ => by simp

private theorem mapM_eq_some_map {α β : Type} {f : α → Option β} {g : α → β} :
    ∀ {l : List α}, (∀ a ∈ l, f a = some (g a)) → l.mapM f = some (l.map g)
  | [], _ => rfl
  | a :: l, h => by
    simp only [List.mapM_cons, h a (List.mem_cons_self _ _),
      mapM_eq_some_map fun x hx => h x (List.mem_cons_of_mem _ hx)]
    rfl

variable [FieldExt F] [DecidableEq F] {ev : Evaluator F} {pk : ProvingKey F}
  (hev : Evaluator.new pk.vk.cs = some ev)
  (hgates : ∀ p ∈ pk.vk.cs.gates.flatMap (·.polynomials), p.selectorFree)
  (hlookups : ∀ l ∈ pk.vk.cs.lookups,
    (∀ e ∈ l.inputExpressions, e.selectorFree) ∧ ∀ e ∈ l.tableExpressions, e.selectorFree)
  (challenges : List F) (y beta gamma theta : F) (advice «instance» : List (List F))

omit [FieldExt F] in
include hev in
theorem lookupGraph_getD {k : Nat} (hk : k < pk.vk.cs.lookups.length) :
    Evaluator.lookupGraph pk.vk.cs.lookups[k] = some (ev.lookups.getD k .default) := by
  obtain ⟨hlen, hget⟩ := mapM_eq_some (Evaluator.new_lookups hev)
  rw [hget k hk, List.getD_eq_getElem?_getD, List.getElem?_eq_getElem (hlen ▸ hk), Option.getD_some]

omit [FieldExt F] in
include hev hlookups in
theorem lookupPasses_eq :
    ∀ (lookups : List (Lookup.Committed F)) (k : Nat) (values values' : List F),
      k + lookups.length ≤ pk.vk.cs.lookups.length →
      LookupPasses ev pk challenges y beta gamma theta advice «instance» (lookups.enumFrom k)
        values values' →
      values' = values.mapIdx fun idx v => hornerFold y v
        ((lookups.zip (pk.vk.cs.lookups.drop k)).map fun x => lookupResiduals pk beta gamma
          (pk.vk.domain.coeffToExtended x.1.productPoly)
          (pk.vk.domain.coeffToExtended x.1.permutedInputPoly)
          (pk.vk.domain.coeffToExtended x.1.permutedTablePoly) pk.vk.domain.rotScale
          (toI32 pk.vk.domain.extendedLen) idx
          ((tableValue x.2 (rowRead pk advice «instance» challenges idx) beta gamma theta).getD 0)).flatten
  | [], _, values, values', _, h => by
    simp only [List.enumFrom_nil, LookupPasses] at h
    simp [h, mapIdx_self]
  | lookup :: lookups, k, values, values', hk, h => by
    obtain ⟨split, order, h⟩ := h
    rw [List.length_cons] at hk
    have hk' : k < pk.vk.cs.lookups.length := by omega
    obtain ⟨hin, htab⟩ := hlookups _ (List.getElem_mem hk')
    rw [lookupPasses_eq lookups (k + 1) _ values' (by omega) h,
      lookupPass_eq pk advice «instance» challenges beta gamma theta y _ _ _ _ _
        (lookupGraph_getD hev hk') hin htab split.lens order values split.sum_eq,
      List.mapIdx_mapIdx, List.drop_eq_getElem_cons hk']
    simp only [List.zip_cons_cons, List.map_cons, List.flatten_cons, hornerFold_append]
    rfl

include hev hgates hlookups in
theorem proofResiduals_rowRead (lookups : List (Lookup.Committed F))
    (permutation : Permutation.Committed F)
    (idx : Nat) :
    proofResiduals pk beta gamma theta (rowRead pk advice «instance» challenges idx) advice
        «instance» lookups permutation idx =
      some ((gateValues pk.vk.cs (rowRead pk advice «instance» challenges idx)).getD [] ++
        (if permutation.sets.isEmpty then [] else
          permutationResiduals pk advice «instance» beta gamma
            (permutation.sets.map (·.permutationProductCoset)) pk.vk.domain.rotScale
            (toI32 pk.vk.domain.extendedLen) idx) ++
        ((lookups.zip pk.vk.cs.lookups).map fun x => lookupResiduals pk beta gamma
          (pk.vk.domain.coeffToExtended x.1.productPoly)
          (pk.vk.domain.coeffToExtended x.1.permutedInputPoly)
          (pk.vk.domain.coeffToExtended x.1.permutedTablePoly) pk.vk.domain.rotScale
          (toI32 pk.vk.domain.extendedLen) idx
          ((tableValue x.2 (rowRead pk advice «instance» challenges idx) beta gamma theta).getD 0)).flatten) := by
  obtain ⟨gates, hg⟩ := mapM_isSome fun p hp =>
    evaluateRow_isSome (hgates p hp) idx pk.vk.domain.rotScale (toI32 pk.vk.domain.extendedLen)
      pk.fixedCosets advice «instance» challenges
  have hlk : lookupTerms pk beta gamma theta (rowRead pk advice «instance» challenges idx) lookups idx =
      some ((lookups.zip pk.vk.cs.lookups).map fun x => lookupResiduals pk beta gamma
        (pk.vk.domain.coeffToExtended x.1.productPoly)
        (pk.vk.domain.coeffToExtended x.1.permutedInputPoly)
        (pk.vk.domain.coeffToExtended x.1.permutedTablePoly) pk.vk.domain.rotScale
        (toI32 pk.vk.domain.extendedLen) idx
        ((tableValue x.2 (rowRead pk advice «instance» challenges idx) beta gamma theta).getD 0)) := by
    refine mapM_eq_some_map fun x hx => ?_
    obtain ⟨n, hn, hx2⟩ := List.getElem_of_mem (List.of_mem_zip hx).2
    obtain ⟨hin, htab⟩ := hlookups _ (List.getElem_mem hn)
    have htv : tableValue x.2 (rowRead pk advice «instance» challenges idx) beta gamma theta =
        some _ := hx2 ▸ lookupGraph_evaluate pk advice «instance» challenges beta gamma theta 0
          pk.vk.domain.rotScale (toI32 pk.vk.domain.extendedLen) (lookupGraph_getD hev hn)
          hin htab (ev.lookups.getD n .default).«instance» ⟨by simp, by simp⟩ idx
    rw [htv]
    rfl
  simp only [proofResiduals, Option.bind_eq_bind]
  rw [show gateValues pk.vk.cs (rowRead pk advice «instance» challenges idx) = some gates from hg,
    Option.some_bind, hlk, Option.some_bind, Option.getD_some]

omit [FieldExt F] [DecidableEq F] in
theorem referenceRow_eq_rowRead {e : Expression F} (he : e.selectorFree) {idx : Nat}
    (hidx : idx < pk.vk.domain.extendedLen) :
    referenceRow pk.vk.domain.extendedLen pk.vk.domain.rotScale pk.fixedCosets advice «instance»
        challenges idx e = rowRead pk advice «instance» challenges idx e := by
  obtain ⟨values, hv⟩ := evaluate_isSome he pk.vk.domain.extendedLen pk.vk.domain.rotScale
    pk.fixedCosets advice «instance» challenges
  rw [referenceRow, hv, Option.some_bind, rowRead, evaluate_getElem? hv hidx]

omit [DecidableEq F] in
include hgates hlookups in
theorem proofResiduals_congr {read₁ read₂ : Expression F → Option F}
    (h : ∀ e : Expression F, e.selectorFree → read₁ e = read₂ e)
    (lookups : List (Lookup.Committed F)) (permutation : Permutation.Committed F) (idx : Nat) :
    proofResiduals pk beta gamma theta read₁ advice «instance» lookups permutation idx =
      proofResiduals pk beta gamma theta read₂ advice «instance» lookups permutation idx := by
  have htv : ∀ x ∈ lookups.zip pk.vk.cs.lookups,
      tableValue x.2 read₁ beta gamma theta = tableValue x.2 read₂ beta gamma theta := by
    intro x hx
    obtain ⟨hin, htab⟩ := hlookups _ (List.of_mem_zip hx).2
    simp only [tableValue, mapM_congr fun e he => h e (hin e he),
      mapM_congr fun e he => h e (htab e he)]
  simp only [proofResiduals, gateValues, lookupTerms, mapM_congr fun p hp => h p (hgates p hp),
    mapM_congr fun x hx => congrArg _ (htv x hx)]

include hev hgates in
theorem gatesPermutationPasses_eq (numThreads : ℕ+)
    (permutation : Permutation.Committed F) {values permuted : List F}
    (h : GatesPermutationPasses numThreads ev pk challenges y beta gamma theta advice «instance»
      permutation values permuted) :
    permuted = values.mapIdx fun idx v => hornerFold y v
      ((gateValues pk.vk.cs (rowRead pk advice «instance» challenges idx)).getD [] ++
        if permutation.sets.isEmpty then [] else
          permutationResiduals pk advice «instance» beta gamma
            (permutation.sets.map (·.permutationProductCoset)) pk.vk.domain.rotScale
            (toI32 pk.vk.domain.extendedLen) idx) := by
  obtain ⟨gatesOrder, hperm⟩ := h
  have hsize : 0 < pk.vk.domain.extendedLen := Nat.two_pow_pos _
  have hchunk : 0 < (pk.vk.domain.extendedLen + (numThreads : Nat) - 1) / numThreads :=
    Nat.div_pos (by omega) numThreads.pos
  rw [gatesPass_eq ev pk advice «instance» challenges beta gamma theta y _ _ hev hgates _ _ values
    (sum_chunkLens hchunk le_rfl)] at hperm
  split_ifs at hperm with hs
  · simp only [hperm, hs, ↓reduceIte, List.append_nil]
    rfl
  · obtain ⟨split, order, rfl⟩ := hperm
    rw [permutationPass_eq _ _ _ _ _ _ _ _ _ _ _ _ split.sum_eq, List.mapIdx_mapIdx]
    simp only [hs, Bool.false_eq_true, ↓reduceIte, hornerFold_append, Function.comp_def]
    rfl

include hev hgates hlookups in
theorem proofPasses_eq (numThreads : ℕ+) (lookups : List (Lookup.Committed F))
    (hlen : lookups.length ≤ pk.vk.cs.lookups.length) (permutation : Permutation.Committed F)
    {values values' : List F}
    (h : ProofPasses numThreads ev pk challenges y beta gamma theta advice «instance» lookups
      permutation values values') :
    values' = values.mapIdx fun idx v => hornerFold y v ((proofResiduals pk beta gamma theta
      (rowRead pk advice «instance» challenges idx) advice «instance» lookups permutation idx).getD []) := by
  obtain ⟨permuted, hperm, hlook⟩ := h
  rw [lookupPasses_eq hev hlookups challenges y beta gamma theta advice «instance» lookups 0 permuted
    values' (by simpa using hlen) hlook, List.drop_zero,
    gatesPermutationPasses_eq hev hgates challenges y beta gamma theta advice «instance» numThreads
      permutation hperm, List.mapIdx_mapIdx]
  simp only [proofResiduals_rowRead hev hgates hlookups, hornerFold_append, Option.getD_some,
    Function.comp_def]

include hev hgates hlookups in
theorem proofsPasses_eq (numThreads : ℕ+) :
    ∀ (proofs : List (((List (List F) × List (List F)) × List (Lookup.Committed F)) ×
        Permutation.Committed F)) (values values' : List F),
      (∀ p ∈ proofs, p.1.2.length ≤ pk.vk.cs.lookups.length) →
      ProofsPasses numThreads ev pk challenges y beta gamma theta proofs values values' →
      values' = values.mapIdx fun idx v => hornerFold y v ((proofs.map fun p =>
        (proofResiduals pk beta gamma theta (rowRead pk p.1.1.1 p.1.1.2 challenges idx) p.1.1.1
          p.1.1.2 p.1.2 p.2 idx).getD []).flatten)
  | [], values, values', _, h => by
    simp only [ProofsPasses] at h
    simp [h, mapIdx_self]
  | (((advice, «instance»), lookups), permutation) :: proofs, values, values', hlen, h => by
    obtain ⟨mid, hp, hrest⟩ := h
    rw [proofsPasses_eq numThreads proofs mid values' (fun p hp => hlen p (List.mem_cons_of_mem _ hp))
      hrest, proofPasses_eq hev hgates hlookups challenges y beta gamma theta advice «instance»
      numThreads lookups (hlen _ (List.mem_cons_self _ _)) permutation hp, List.mapIdx_mapIdx]
    simp only [List.map_cons, List.flatten_cons, hornerFold_append, Function.comp_def]

omit [FieldExt F] [DecidableEq F] in
theorem lookupPasses_exists (ev : Evaluator F) (pk : ProvingKey F) :
    ∀ (lookups : List (Nat × Lookup.Committed F)) (values : List F),
      ∃ values', LookupPasses ev pk challenges y beta gamma theta advice «instance» lookups values
        values'
  | [], values => ⟨values, rfl⟩
  | (_, _) :: lookups, values => by
    obtain ⟨values', h⟩ := lookupPasses_exists ev pk lookups _
    exact ⟨values', ⟨[values.length], by simp⟩, [], h⟩

omit [DecidableEq F] in
theorem gatesPermutationPasses_exists (numThreads : ℕ+) (ev : Evaluator F) (pk : ProvingKey F)
    (permutation : Permutation.Committed F) (values : List F) :
    ∃ permuted, GatesPermutationPasses numThreads ev pk challenges y beta gamma theta advice
      «instance» permutation values permuted := by
  let gated := parallelPass (fun _ => ev.customGates.«instance»)
    (gatesRow ev pk advice «instance» challenges beta gamma theta y pk.vk.domain.rotScale
      (toI32 pk.vk.domain.extendedLen))
    (chunkLens ((pk.vk.domain.extendedLen + (numThreads : Nat) - 1) / numThreads) values.length
      values.length) [] values
  refine ⟨if permutation.sets.isEmpty then gated else
    parallelPass (fun start => pk.vk.domain.extendedOmega ^ start)
      (permutationStep pk advice «instance» beta gamma y
        (permutation.sets.map (·.permutationProductCoset)) pk.vk.domain.rotScale
        (toI32 pk.vk.domain.extendedLen)) [gated.length] [] gated, [], ?_⟩
  split_ifs
  · rfl
  · exact ⟨⟨[gated.length], by simp⟩, [], rfl⟩

omit [DecidableEq F] in
theorem proofsPasses_exists (numThreads : ℕ+) (ev : Evaluator F) (pk : ProvingKey F) :
    ∀ (proofs : List (((List (List F) × List (List F)) × List (Lookup.Committed F)) ×
        Permutation.Committed F)) (values : List F),
      ∃ values', ProofsPasses numThreads ev pk challenges y beta gamma theta proofs values values'
  | [], values => ⟨values, rfl⟩
  | (((advice, «instance»), lookups), permutation) :: proofs, values => by
    obtain ⟨permuted, hp⟩ := gatesPermutationPasses_exists challenges y beta gamma theta advice
      «instance» numThreads ev pk permutation values
    obtain ⟨mid, hmid⟩ := lookupPasses_exists challenges y beta gamma theta advice «instance» ev pk
      lookups.enum permuted
    obtain ⟨values', hrest⟩ := proofsPasses_exists numThreads ev pk proofs mid
    exact ⟨values', mid, ⟨permuted, hp, hmid⟩, hrest⟩

include hev hgates hlookups in
theorem quotientResiduals_eq (advicePolys instancePolys : List (List (List F)))
    (lookups : List (List (Lookup.Committed F))) (permutations : List (Permutation.Committed F))
    {idx : Nat} (hidx : idx < pk.vk.domain.extendedLen) :
    quotientResiduals pk beta gamma theta advicePolys instancePolys challenges lookups permutations
        idx =
      some (((((advicePolys.map (·.map pk.vk.domain.coeffToExtended)).zip
          (instancePolys.map (·.map pk.vk.domain.coeffToExtended))).zip lookups).zip
          permutations).map fun p => (proofResiduals pk beta gamma theta
            (rowRead pk p.1.1.1 p.1.1.2 challenges idx) p.1.1.1 p.1.1.2 p.1.2 p.2 idx).getD []).flatten := by
  simp only [quotientResiduals]
  rw [mapM_eq_some_map fun p _ => (proofResiduals_congr hgates hlookups beta gamma
    theta p.1.1.1 p.1.1.2 (fun e he => referenceRow_eq_rowRead challenges p.1.1.1 p.1.1.2 he hidx)
    p.1.2 p.2 idx).trans (proofResiduals_rowRead hev hgates hlookups challenges beta gamma theta
      p.1.1.1 p.1.1.2 p.1.2 p.2 idx)]
  simp only [Option.map_some', proofResiduals_rowRead hev hgates hlookups, Option.getD_some]

include hev hgates hlookups in
/-- `evaluate_h_cpu_only` returns a vector within the `i32` bound, and every vector it can return
holds at each row the Horner fold from `0` of the residuals of the proofs at that row. -/
theorem evaluate_h_cpu_only_horner (numThreads : ℕ+) (advicePolys instancePolys : List (List (List F)))
    (lookups : List (List (Lookup.Committed F))) (hlen : ∀ l ∈ lookups, l.length ≤ pk.vk.cs.lookups.length)
    (permutations : List (Permutation.Committed F)) :
    (pk.vk.domain.extendedK ≤ 31 → ∃ values, EvaluateHCpuOnly numThreads ev pk challenges y beta
      gamma theta advicePolys instancePolys lookups permutations values) ∧
    ∀ values, EvaluateHCpuOnly numThreads ev pk challenges y beta gamma theta advicePolys
        instancePolys lookups permutations values →
      values.length = pk.vk.domain.extendedLen ∧
      ∀ idx < pk.vk.domain.extendedLen, ∃ residuals,
        quotientResiduals pk beta gamma theta advicePolys instancePolys challenges lookups
          permutations idx = some residuals ∧
        values[idx]? = some (hornerFold y 0 residuals) := by
  refine ⟨fun _ => proofsPasses_exists challenges y beta gamma theta numThreads ev pk _ _,
    fun values h => ?_⟩
  rw [proofsPasses_eq hev hgates hlookups challenges y beta gamma theta numThreads _ _ values
    (length_le_of_mem_zip_lookups hlen _ _ _) h]
  exact ⟨by simp [EvaluationDomain.emptyExtended], fun idx hidx =>
    ⟨_, quotientResiduals_eq hev hgates hlookups challenges beta gamma theta advicePolys
      instancePolys lookups permutations hidx, by simp [EvaluationDomain.emptyExtended, hidx]⟩⟩

theorem evaluate_h_cpu_only_horner_gate_permutation_lookup :
    letI : FieldExt ℤ := ⟨1, -1⟩
    let cs : ConstraintSystem ℤ := ⟨[⟨[.product (.advice 0 0) (.fixed 0 1)]⟩],
      [⟨[.advice 0 0], [.fixed 0 0]⟩], ⟨[⟨0, .advice⟩, ⟨0, .fixed⟩]⟩, 3, 0⟩
    let pk : ProvingKey ℤ := ⟨⟨⟨0, 1, -1, id⟩, cs⟩, [1, 0], [0, 1], [1, 0], [[1, 1]],
      ⟨[[1, 1], [1, 1]]⟩⟩
    let ev := (Evaluator.new cs).getD ⟨.default, []⟩
    let advicePolys : List (List (List ℤ)) := [[[2, 3]]]
    let instancePolys : List (List (List ℤ)) := [[]]
    let lookups : List (List (Lookup.Committed ℤ)) := [[⟨[2, 2], [2, 2], [1, 1]⟩]]
    let permutations : List (Permutation.Committed ℤ) := [⟨[⟨[1, 1]⟩, ⟨[1, 1]⟩]⟩]
    (pk.vk.domain.extendedK ≤ 31 → ∃ values, EvaluateHCpuOnly 1 ev pk [3] 2 5 7 11 advicePolys
      instancePolys lookups permutations values) ∧
    ∀ values, EvaluateHCpuOnly 1 ev pk [3] 2 5 7 11 advicePolys instancePolys lookups permutations
        values →
      values.length = pk.vk.domain.extendedLen ∧
      ∀ idx < pk.vk.domain.extendedLen, ∃ residuals,
        quotientResiduals pk 5 7 11 advicePolys instancePolys [3] lookups permutations idx =
          some residuals ∧
        values[idx]? = some (hornerFold 2 0 residuals) :=
  letI : FieldExt ℤ := ⟨1, -1⟩
  evaluate_h_cpu_only_horner (by rfl) (by decide) (by decide) [3] 2 5 7 11 1 [[[2, 3]]] [[]]
    [[⟨[2, 2], [2, 2], [1, 1]⟩]] (by decide) [⟨[⟨[1, 1]⟩, ⟨[1, 1]⟩]⟩]

end Spec

end PlonkEvaluation
