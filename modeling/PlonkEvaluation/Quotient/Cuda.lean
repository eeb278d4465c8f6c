import PlonkEvaluation.Quotient.CpuOnly

/-! `evaluate_h` and its CUDA path: the CPU custom-gate and permutation passes, then Block 1 packs
each lookup's row values for the kernel.  Without `CU_KERNEL`, or when a driver step fails, it
returns the vector as it stands. -/

namespace PlonkEvaluation

variable {F : Type} [CommRing F]

section Packing

variable (pk : ProvingKey F) (advice «instance» : List (List F)) (challenges : List F)
  (beta gamma theta y : F) (permutedInputCoset permutedTableCoset : List F) (rotScale isize : Int)

/-- The body of a worker of Block 1: the row's `(table_value, a_minus_s, r_next, r_prev)`. -/
def packRow (graph : GraphEvaluator F) (data : EvaluationData F) (idx : Nat)
    (_ : F × F × Nat × Nat) : (F × F × Nat × Nat) × EvaluationData F :=
  let r := graph.evaluate data (lookupInputs pk advice «instance» challenges beta gamma theta y) idx
    rotScale isize
  (lookupPacked permutedInputCoset permutedTableCoset rotScale isize idx r.1, r.2)

variable [DecidableEq F]

theorem packRow_good {lookup : Lookup.Argument F} {graph : GraphEvaluator F}
    (hgraph : Evaluator.lookupGraph lookup = some graph)
    (hin : ∀ e ∈ lookup.inputExpressions, e.selectorFree)
    (htab : ∀ e ∈ lookup.tableExpressions, e.selectorFree) (data : EvaluationData F) (idx : Nat)
    (combined : F × F × Nat × Nat) (hd : data.intermediates.length = graph.numIntermediates ∧
      data.rotations.length = graph.rotations.length) :
    (packRow pk advice «instance» challenges beta gamma theta y permutedInputCoset
        permutedTableCoset rotScale isize graph data idx combined).1 =
      lookupPacked permutedInputCoset permutedTableCoset rotScale isize idx
        ((tableValue lookup (fun e => evaluateRow e idx rotScale isize pk.fixedCosets advice
          «instance» challenges) beta gamma theta).getD 0) ∧
    ((packRow pk advice «instance» challenges beta gamma theta y permutedInputCoset
        permutedTableCoset rotScale isize graph data idx combined).2.intermediates.length =
        graph.numIntermediates ∧
      (packRow pk advice «instance» challenges beta gamma theta y permutedInputCoset
        permutedTableCoset rotScale isize graph data idx combined).2.rotations.length =
        graph.rotations.length) := by
  refine ⟨?_, graph.evaluate_sizes hd _ idx rotScale isize⟩
  rw [lookupGraph_evaluate pk advice «instance» challenges beta gamma theta y rotScale isize hgraph
    hin htab data hd idx]
  rfl

theorem packPass_eq {lookup : Lookup.Argument F} {graph : GraphEvaluator F}
    (hgraph : Evaluator.lookupGraph lookup = some graph)
    (hin : ∀ e ∈ lookup.inputExpressions, e.selectorFree)
    (htab : ∀ e ∈ lookup.tableExpressions, e.selectorFree) (lens order : List Nat)
    (combined : List (F × F × Nat × Nat)) (hlens : lens.sum = combined.length) :
    parallelPass (fun _ => graph.«instance»)
        (packRow pk advice «instance» challenges beta gamma theta y permutedInputCoset
          permutedTableCoset rotScale isize graph) lens order combined =
      combined.mapIdx fun idx _ => lookupPacked permutedInputCoset permutedTableCoset rotScale isize
        idx ((tableValue lookup (fun e => evaluateRow e idx rotScale isize pk.fixedCosets advice
          «instance» challenges) beta gamma theta).getD 0) :=
  parallelPass_eq (packRow_good pk advice «instance» challenges beta gamma theta y
    permutedInputCoset permutedTableCoset rotScale isize hgraph hin htab)
    (fun _ => ⟨by simp, by simp⟩) lens order combined hlens

end Packing

/-- Modelled from the spec: the kernel `compute_evaluate_h_lookups_codeblock`, which folds at each
row the five identities of every lookup in turn. -/
def computeEvaluateHLookupsCodeblock (values : List F)
    (combinedDataIn : List (List (F × F × Nat × Nat)))
    (productCoset permutedInputCoset permutedTableCoset : List (List F))
    (l0 lActiveRow lLast yBetaGammaOne : List F) (lookupCount : Nat) : List F :=
  values.mapIdx fun idx value => (List.range lookupCount).foldl (fun value n =>
    lookupUpdate l0 lLast lActiveRow (yBetaGammaOne.getD 0 0) (yBetaGammaOne.getD 1 0)
      (yBetaGammaOne.getD 2 0) (yBetaGammaOne.getD 3 0) (productCoset.getD n [])
      (permutedInputCoset.getD n []) (permutedTableCoset.getD n []) idx
      ((combinedDataIn.getD n []).getD idx (0, 0, 0, 0)) value) value

/-- The steps of the CUDA driver that can fail. -/
inductive DriverStep
  | load
  | allocate
  | launch
  | copyBack
  deriving DecidableEq, Repr

section Passes

variable (numThreads : ℕ+) (ev : Evaluator F) (pk : ProvingKey F) (challenges : List F)
  (y beta gamma theta : F)

/-- Block 1 for the lookups of one proof, over the chunks of `chunks_mut`, from zero tuples. -/
def PackPasses (advice «instance» : List (List F)) (size : Nat) :
    List (Nat × Lookup.Committed F) → List (List (F × F × Nat × Nat)) → Prop
  | [], combined => combined = []
  | (n, lookup) :: lookups, combined =>
    ∃ (order : List Nat) (rest : List (List (F × F × Nat × Nat))),
      combined = parallelPass (fun _ => (ev.lookups.getD n .default).«instance»)
        (packRow pk advice «instance» challenges beta gamma theta y
          (pk.vk.domain.coeffToExtended lookup.permutedInputPoly)
          (pk.vk.domain.coeffToExtended lookup.permutedTablePoly) pk.vk.domain.rotScale
          (toI32 pk.vk.domain.extendedLen) (ev.lookups.getD n .default))
        (chunkLens ((size + (numThreads : Nat) - 1) / numThreads) size size) order
        (List.replicate size (0, 0, 0, 0)) :: rest ∧
      PackPasses advice «instance» size lookups rest

variable [FieldExt F]

/-- The proofs on the CUDA path from proof `p` on: the kernel's vector goes on to the next proof
when `CU_KERNEL` is set and no driver step fails; otherwise the vector returns as it stands. -/
def CudaProofs (env : String → Option String) (driver : Nat → Option DriverStep) :
    Nat → List (((List (List F) × List (List F)) × List (Lookup.Committed F)) ×
      Permutation.Committed F) → List F → List F → Prop
  | _, [], values, values' => values' = values
  | p, (((advice, «instance»), lookups), permutation) :: proofs, values, values' =>
    ∃ (permuted : List F) (combined : List (List (F × F × Nat × Nat))),
      GatesPermutationPasses numThreads ev pk challenges y beta gamma theta advice «instance»
        permutation values permuted ∧
      -- `lookup_count` and `array_size` are `try_into().unwrap()` into an `i32`
      lookups.length < 2 ^ 31 ∧ permuted.length < 2 ^ 31 ∧
      PackPasses numThreads ev pk challenges y beta gamma theta advice «instance» permuted.length
        lookups.enum combined ∧
      match env "CU_KERNEL", driver p with
      | some _, none =>
        CudaProofs env driver (p + 1) proofs
          (computeEvaluateHLookupsCodeblock permuted combined
            (lookups.map fun l => pk.vk.domain.coeffToExtended l.productPoly)
            (lookups.map fun l => pk.vk.domain.coeffToExtended l.permutedInputPoly)
            (lookups.map fun l => pk.vk.domain.coeffToExtended l.permutedTablePoly)
            pk.l0 pk.lActiveRow pk.lLast [y, beta, gamma, 1] lookups.length) values'
      | _, _ => values' = permuted

def EvaluateHWithCuda (env : String → Option String) (driver : Nat → Option DriverStep)
    (advicePolys instancePolys : List (List (List F)))
    (lookups : List (List (Lookup.Committed F))) (permutations : List (Permutation.Committed F))
    (values : List F) : Prop :=
  let advice := advicePolys.map (·.map pk.vk.domain.coeffToExtended)
  let «instance» := instancePolys.map (·.map pk.vk.domain.coeffToExtended)
  CudaProofs numThreads ev pk challenges y beta gamma theta env driver 0
    (((advice.zip «instance»).zip lookups).zip permutations) pk.vk.domain.emptyExtended values

/-- `evaluate_h`: the CUDA path when `CUDA` is `1`, `y` or `yes`, the CPU path otherwise. -/
def EvaluateH (env : String → Option String) (driver : Nat → Option DriverStep)
    (advicePolys instancePolys : List (List (List F)))
    (lookups : List (List (Lookup.Committed F))) (permutations : List (Permutation.Committed F))
    (values : List F) : Prop :=
  let useCuda := (env "CUDA").getD "no"
  if useCuda = "1" ∨ useCuda = "y" ∨ useCuda = "yes" then
    EvaluateHWithCuda numThreads ev pk challenges y beta gamma theta env driver advicePolys
      instancePolys lookups permutations values
  else
    EvaluateHCpuOnly numThreads ev pk challenges y beta gamma theta advicePolys instancePolys
      lookups permutations values

end Passes

section Residuals

variable (pk : ProvingKey F) (challenges : List F) (beta gamma theta : F) [FieldExt F]
  (env : String → Option String) (driver : Nat → Option DriverStep)

/-- The residuals the CUDA path folds into row `idx` from proof `p` on. -/
def cudaResiduals (idx : Nat) : Nat → List (((List (List F) × List (List F)) ×
    List (Lookup.Committed F)) × Permutation.Committed F) → List F
  | _, [] => []
  | p, (((advice, «instance»), lookups), permutation) :: proofs =>
    match env "CU_KERNEL", driver p with
    | some _, none =>
      (proofResiduals pk beta gamma theta (rowRead pk advice «instance» challenges idx) advice
        «instance» lookups permutation idx).getD [] ++ cudaResiduals idx (p + 1) proofs
    | _, _ =>
      (gateValues pk.vk.cs (rowRead pk advice «instance» challenges idx)).getD [] ++
        if permutation.sets.isEmpty then [] else
          permutationResiduals pk advice «instance» beta gamma
            (permutation.sets.map (·.permutationProductCoset)) pk.vk.domain.rotScale
            (toI32 pk.vk.domain.extendedLen) idx

end Residuals

theorem length_emptyExtended_lt {domain : EvaluationDomain F} (hext : domain.extendedK ≤ 30) :
    domain.emptyExtended.length < 2 ^ 31 := by
  simpa [EvaluationDomain.emptyExtended, EvaluationDomain.extendedLen] using
    Nat.pow_lt_pow_right (by norm_num) (by omega : domain.extendedK < 31)

section Spec

private theorem foldl_range_eq_foldl {α β : Type} :
    ∀ (l : List α) (f : β → Nat → β) (g : β → α → β),
      (∀ n (hn : n < l.length) v, f v n = g v l[n]) → ∀ v, (List.range l.length).foldl f v = l.foldl g v
  | [], _, _, _, _ => rfl
  | a :: l, f, g, h, v => by
    rw [List.length_cons, List.range_succ_eq_map, List.foldl_cons, List.foldl_map, List.foldl_cons,
      h 0 (Nat.succ_pos _) v, List.getElem_cons_zero]
    exact foldl_range_eq_foldl l _ g (fun n hn v => h (n + 1) (Nat.succ_lt_succ hn) v) _

private theorem foldl_range_eq_foldl' {α β : Type} (l : List α) {m : Nat} (hm : l.length = m)
    (f : β → Nat → β) (g : β → α → β) (h : ∀ n (hn : n < l.length) v, f v n = g v l[n]) (v : β) :
    (List.range m).foldl f v = l.foldl g v := by
  subst hm
  exact foldl_range_eq_foldl l f g h v

variable (pk : ProvingKey F) (challenges : List F) (y beta gamma theta : F)
  (advice «instance» : List (List F))

theorem computeEvaluateHLookupsCodeblock_eq (values : List F)
    (lookups : List (Lookup.Committed F)) (hlen : lookups.length ≤ pk.vk.cs.lookups.length) :
    computeEvaluateHLookupsCodeblock values
        ((lookups.zip pk.vk.cs.lookups).map fun x => (List.range values.length).map fun idx =>
          lookupPacked (pk.vk.domain.coeffToExtended x.1.permutedInputPoly)
            (pk.vk.domain.coeffToExtended x.1.permutedTablePoly) pk.vk.domain.rotScale
            (toI32 pk.vk.domain.extendedLen) idx
            ((tableValue x.2 (rowRead pk advice «instance» challenges idx) beta gamma theta).getD 0))
        (lookups.map fun l => pk.vk.domain.coeffToExtended l.productPoly)
        (lookups.map fun l => pk.vk.domain.coeffToExtended l.permutedInputPoly)
        (lookups.map fun l => pk.vk.domain.coeffToExtended l.permutedTablePoly)
        pk.l0 pk.lActiveRow pk.lLast [y, beta, gamma, 1] lookups.length =
      values.mapIdx fun idx v => hornerFold y v ((lookups.zip pk.vk.cs.lookups).map fun x =>
        lookupResiduals pk beta gamma (pk.vk.domain.coeffToExtended x.1.productPoly)
          (pk.vk.domain.coeffToExtended x.1.permutedInputPoly)
          (pk.vk.domain.coeffToExtended x.1.permutedTablePoly) pk.vk.domain.rotScale
          (toI32 pk.vk.domain.extendedLen) idx
          ((tableValue x.2 (rowRead pk advice «instance» challenges idx) beta gamma theta).getD 0)).flatten := by
  have hL : (lookups.zip pk.vk.cs.lookups).length = lookups.length := by simp [hlen]
  refine List.ext_getElem (by simp [computeEvaluateHLookupsCodeblock]) fun idx _ h₂ => ?_
  have hidx : idx < values.length := by simpa using h₂
  simp only [computeEvaluateHLookupsCodeblock, List.getElem_mapIdx, hornerFold_flatten,
    List.foldl_map]
  refine foldl_range_eq_foldl' _ hL _ _ (fun n hn v => ?_) _
  have hn' : n < lookups.length := hL ▸ hn
  rw [← lookupUpdate_eq]
  simp [List.getD_eq_getElem?_getD, List.getElem?_eq_getElem hn, hn', hidx]

variable [DecidableEq F] {ev : Evaluator F} (hev : Evaluator.new pk.vk.cs = some ev)
  (hgates : ∀ p ∈ pk.vk.cs.gates.flatMap (·.polynomials), p.selectorFree)
  (hlookups : ∀ l ∈ pk.vk.cs.lookups,
    (∀ e ∈ l.inputExpressions, e.selectorFree) ∧ ∀ e ∈ l.tableExpressions, e.selectorFree)
  (numThreads : ℕ+)

include hev hlookups in
theorem packPasses_eq {size : Nat} (hsize : 0 < size) :
    ∀ (lookups : List (Lookup.Committed F)) (k : Nat) (combined : List (List (F × F × Nat × Nat))),
      k + lookups.length ≤ pk.vk.cs.lookups.length →
      PackPasses numThreads ev pk challenges y beta gamma theta advice «instance» size
        (lookups.enumFrom k) combined →
      combined = (lookups.zip (pk.vk.cs.lookups.drop k)).map fun x =>
        (List.range size).map fun idx =>
          lookupPacked (pk.vk.domain.coeffToExtended x.1.permutedInputPoly)
            (pk.vk.domain.coeffToExtended x.1.permutedTablePoly) pk.vk.domain.rotScale
            (toI32 pk.vk.domain.extendedLen) idx
            ((tableValue x.2 (rowRead pk advice «instance» challenges idx) beta gamma theta).getD 0)
  | [], _, combined, _, h => by simpa [PackPasses] using h
  | lookup :: lookups, k, combined, hk, h => by
    obtain ⟨order, rest, rfl, hrest⟩ := h
    rw [List.length_cons] at hk
    have hk' : k < pk.vk.cs.lookups.length := by omega
    obtain ⟨hin, htab⟩ := hlookups _ (List.getElem_mem hk')
    have hc : 0 < (size + (numThreads : Nat) - 1) / numThreads :=
      Nat.div_pos (by omega) numThreads.pos
    rw [packPass_eq pk advice «instance» challenges beta gamma theta y _ _ _ _
      (lookupGraph_getD hev hk') hin htab _ order _
      (by rw [sum_chunkLens hc le_rfl, List.length_replicate]),
      packPasses_eq hsize lookups (k + 1) rest (by omega) hrest, List.drop_eq_getElem_cons hk',
      List.zip_cons_cons, List.map_cons]
    congr 1
    exact List.ext_getElem (by simp) fun idx _ _ => by simp; rfl

include hev hlookups in
theorem lookupsKernel_eq {lookups : List (Lookup.Committed F)}
    (hlen : lookups.length ≤ pk.vk.cs.lookups.length) {permuted : List F}
    {combined : List (List (F × F × Nat × Nat))} (hsize : 0 < permuted.length)
    (hpack : PackPasses numThreads ev pk challenges y beta gamma theta advice «instance»
      permuted.length lookups.enum combined) :
    computeEvaluateHLookupsCodeblock permuted combined
        (lookups.map fun l => pk.vk.domain.coeffToExtended l.productPoly)
        (lookups.map fun l => pk.vk.domain.coeffToExtended l.permutedInputPoly)
        (lookups.map fun l => pk.vk.domain.coeffToExtended l.permutedTablePoly)
        pk.l0 pk.lActiveRow pk.lLast [y, beta, gamma, 1] lookups.length =
      permuted.mapIdx fun idx v => hornerFold y v ((lookups.zip pk.vk.cs.lookups).map fun x =>
        lookupResiduals pk beta gamma (pk.vk.domain.coeffToExtended x.1.productPoly)
          (pk.vk.domain.coeffToExtended x.1.permutedInputPoly)
          (pk.vk.domain.coeffToExtended x.1.permutedTablePoly) pk.vk.domain.rotScale
          (toI32 pk.vk.domain.extendedLen) idx
          ((tableValue x.2 (rowRead pk advice «instance» challenges idx) beta gamma theta).getD 0)).flatten := by
  rw [packPasses_eq pk challenges y beta gamma theta advice «instance» hev hlookups numThreads hsize
    lookups 0 combined (by simpa using hlen) hpack, List.drop_zero]
  exact computeEvaluateHLookupsCodeblock_eq pk challenges y beta gamma theta advice «instance»
    permuted lookups hlen

include hev hlookups in
theorem lookupPasses_lookupsKernel {lookups : List (Lookup.Committed F)}
    (hlen : lookups.length ≤ pk.vk.cs.lookups.length) {permuted : List F}
    {combined : List (List (F × F × Nat × Nat))} (hsize : 0 < permuted.length)
    (hpack : PackPasses numThreads ev pk challenges y beta gamma theta advice «instance»
      permuted.length lookups.enum combined) :
    LookupPasses ev pk challenges y beta gamma theta advice «instance» lookups.enum permuted
      (computeEvaluateHLookupsCodeblock permuted combined
        (lookups.map fun l => pk.vk.domain.coeffToExtended l.productPoly)
        (lookups.map fun l => pk.vk.domain.coeffToExtended l.permutedInputPoly)
        (lookups.map fun l => pk.vk.domain.coeffToExtended l.permutedTablePoly)
        pk.l0 pk.lActiveRow pk.lLast [y, beta, gamma, 1] lookups.length) := by
  obtain ⟨values', h⟩ := lookupPasses_exists challenges y beta gamma theta advice «instance» ev pk
    lookups.enum permuted
  rwa [lookupsKernel_eq pk challenges y beta gamma theta advice «instance» hev hlookups numThreads
    hlen hsize hpack, ← List.drop_zero pk.vk.cs.lookups, ← lookupPasses_eq hev hlookups challenges y
    beta gamma theta advice «instance» lookups 0 permuted values' (by simpa using hlen) h]

omit [DecidableEq F] in
theorem packPasses_exists (size : Nat) :
    ∀ lookups : List (Nat × Lookup.Committed F), ∃ combined,
      PackPasses numThreads ev pk challenges y beta gamma theta advice «instance» size lookups combined
  | [] => ⟨[], rfl⟩
  | (_, _) :: lookups => by
    obtain ⟨rest, h⟩ := packPasses_exists size lookups
    exact ⟨_, [], rest, rfl, h⟩

variable [FieldExt F] (env : String → Option String) (driver : Nat → Option DriverStep)

include hev hgates in
theorem cudaProofs_exists :
    ∀ (proofs : List (((List (List F) × List (List F)) × List (Lookup.Committed F)) ×
        Permutation.Committed F)) (p : Nat) (values : List F), values.length < 2 ^ 31 →
      (∀ q ∈ proofs, q.1.2.length < 2 ^ 31) →
      ∃ values', CudaProofs numThreads ev pk challenges y beta gamma theta env driver p proofs values
        values'
  | [], _, values, _, _ => ⟨values, rfl⟩
  | (((advice, «instance»), lookups), permutation) :: proofs, p, values, hsize, hcount => by
    obtain ⟨permuted, hp⟩ := gatesPermutationPasses_exists challenges y beta gamma theta advice
      «instance» numThreads ev pk permutation values
    have hl : permuted.length = values.length := by
      rw [gatesPermutationPasses_eq hev hgates challenges y beta gamma theta advice «instance»
        numThreads permutation hp, List.length_mapIdx]
    have hlk : lookups.length < 2 ^ 31 := hcount _ (List.mem_cons_self _ _)
    obtain ⟨combined, hc⟩ := packPasses_exists pk challenges y beta gamma theta advice «instance»
      numThreads permuted.length lookups.enum
    obtain ⟨values', hrest⟩ := cudaProofs_exists proofs (p + 1) (computeEvaluateHLookupsCodeblock
      permuted combined (lookups.map fun l => pk.vk.domain.coeffToExtended l.productPoly)
      (lookups.map fun l => pk.vk.domain.coeffToExtended l.permutedInputPoly)
      (lookups.map fun l => pk.vk.domain.coeffToExtended l.permutedTablePoly)
      pk.l0 pk.lActiveRow pk.lLast [y, beta, gamma, 1] lookups.length)
      (by simpa [computeEvaluateHLookupsCodeblock, hl] using hsize)
      (fun q hq => hcount q (List.mem_cons_of_mem _ hq))
    have hsz : permuted.length < 2 ^ 31 := hl ▸ hsize
    cases hk : env "CU_KERNEL" <;> cases hd : driver p
    · exact ⟨permuted, permuted, combined, hp, hlk, hsz, hc, by rw [hk]⟩
    · exact ⟨permuted, permuted, combined, hp, hlk, hsz, hc, by rw [hk]⟩
    · exact ⟨values', permuted, combined, hp, hlk, hsz, hc, by rw [hk, hd]; exact hrest⟩
    · exact ⟨permuted, permuted, combined, hp, hlk, hsz, hc, by rw [hk, hd]⟩

include hev hgates hlookups in
theorem cudaProofs_proofsPasses (hkernel : env "CU_KERNEL" ≠ none) (hdriver : ∀ p, driver p = none) :
    ∀ (proofs : List (((List (List F) × List (List F)) × List (Lookup.Committed F)) ×
        Permutation.Committed F)) (p : Nat) (values values' : List F),
      values.length = pk.vk.domain.extendedLen →
      (∀ q ∈ proofs, q.1.2.length ≤ pk.vk.cs.lookups.length) →
      CudaProofs numThreads ev pk challenges y beta gamma theta env driver p proofs values values' →
      ProofsPasses numThreads ev pk challenges y beta gamma theta proofs values values'
  | [], _, _, _, _, _, h => h
  | (((advice, «instance»), lookups), permutation) :: proofs, p, values, values', hsize, hlen, h => by
    obtain ⟨permuted, combined, hperm, -, -, hpack, hk⟩ := h
    obtain ⟨s, hs⟩ := Option.ne_none_iff_exists'.mp hkernel
    simp only [hs, hdriver p] at hk
    have hl : permuted.length = pk.vk.domain.extendedLen := by
      rw [gatesPermutationPasses_eq hev hgates challenges y beta gamma theta advice «instance»
        numThreads permutation hperm, List.length_mapIdx, hsize]
    have hlk : lookups.length ≤ pk.vk.cs.lookups.length := hlen _ (List.mem_cons_self _ _)
    exact ⟨_, ⟨permuted, hperm, lookupPasses_lookupsKernel pk challenges y beta gamma theta advice
      «instance» hev hlookups numThreads hlk (hl ▸ Nat.two_pow_pos _) hpack⟩,
      cudaProofs_proofsPasses hkernel hdriver proofs (p + 1) _ values'
        (by simpa [computeEvaluateHLookupsCodeblock] using hl)
        (fun q hq => hlen q (List.mem_cons_of_mem _ hq)) hk⟩

include hev hgates hlookups in
theorem cudaProofs_eq :
    ∀ (proofs : List (((List (List F) × List (List F)) × List (Lookup.Committed F)) ×
        Permutation.Committed F)) (p : Nat) (values values' : List F),
      values.length = pk.vk.domain.extendedLen →
      (∀ q ∈ proofs, q.1.2.length ≤ pk.vk.cs.lookups.length) →
      CudaProofs numThreads ev pk challenges y beta gamma theta env driver p proofs values values' →
      values' = values.mapIdx fun idx v =>
        hornerFold y v (cudaResiduals pk challenges beta gamma theta env driver idx p proofs)
  | [], _, values, _, _, _, h => by simp [h.trans (mapIdx_self values).symm, cudaResiduals]
  | (((advice, «instance»), lookups), permutation) :: proofs, p, values, values', hsize, hlen, h => by
    obtain ⟨permuted, combined, hperm, -, -, hpack, hk⟩ := h
    have hp := gatesPermutationPasses_eq hev hgates challenges y beta gamma theta advice «instance»
      numThreads permutation hperm
    have hl : permuted.length = pk.vk.domain.extendedLen := by rw [hp, List.length_mapIdx, hsize]
    have hlk : lookups.length ≤ pk.vk.cs.lookups.length := hlen _ (List.mem_cons_self _ _)
    split at hk
    · next s hs hd =>
      rw [cudaProofs_eq proofs (p + 1) _ values'
        (by simpa [computeEvaluateHLookupsCodeblock] using hl)
        (fun q hq => hlen q (List.mem_cons_of_mem _ hq)) hk,
        lookupsKernel_eq pk challenges y beta gamma theta advice «instance» hev hlookups numThreads
          hlk (hl ▸ Nat.two_pow_pos _) hpack, hp, List.mapIdx_mapIdx, List.mapIdx_mapIdx]
      simp only [cudaResiduals, hs, hd, proofResiduals_rowRead hev hgates hlookups,
        Option.getD_some, hornerFold_append, Function.comp_def]
    · next hexit =>
      rw [hk, hp]
      congr 1
      funext idx v
      simp only [cudaResiduals]

omit [DecidableEq F] in
theorem cudaProofs_of_exit {p : Nat} {advice «instance» : List (List F)}
    {lookups : List (Lookup.Committed F)} {permutation : Permutation.Committed F}
    {proofs : List (((List (List F) × List (List F)) × List (Lookup.Committed F)) ×
      Permutation.Committed F)} {values values' : List F}
    (hexit : env "CU_KERNEL" = none ∨ driver p ≠ none)
    (h : CudaProofs numThreads ev pk challenges y beta gamma theta env driver p
      ((((advice, «instance»), lookups), permutation) :: proofs) values values') :
    GatesPermutationPasses numThreads ev pk challenges y beta gamma theta advice «instance»
      permutation values values' := by
  obtain ⟨permuted, combined, hperm, -, -, -, hk⟩ := h
  split at hk
  · next hs hd => rcases hexit with he | hd' <;> simp_all
  · exact hk ▸ hperm

include hev hgates in
theorem evaluateH_exists (hext : pk.vk.domain.extendedK ≤ 30)
    (hcount : pk.vk.cs.lookups.length < 2 ^ 31) (advicePolys instancePolys : List (List (List F)))
    (lookups : List (List (Lookup.Committed F)))
    (hlen : ∀ l ∈ lookups, l.length ≤ pk.vk.cs.lookups.length)
    (permutations : List (Permutation.Committed F)) :
    ∃ values, EvaluateH numThreads ev pk challenges y beta gamma theta env driver advicePolys
      instancePolys lookups permutations values := by
  dsimp only [EvaluateH]
  split_ifs
  · exact cudaProofs_exists pk challenges y beta gamma theta hev hgates numThreads env driver _ 0 _
      (length_emptyExtended_lt hext)
      fun q hq => (length_le_of_mem_zip_lookups hlen _ _ _ q hq).trans_lt hcount
  · exact proofsPasses_exists challenges y beta gamma theta numThreads ev pk _ _

include hev hgates in
theorem evaluateH_of_exit (hcuda : (env "CUDA").getD "no" ∈ ["1", "y", "yes"])
    (hexit : env "CU_KERNEL" = none ∨ driver 0 ≠ none) (advice «instance» : List (List F))
    (advicePolys instancePolys : List (List (List F))) (lookup : List (Lookup.Committed F))
    (lookups : List (List (Lookup.Committed F))) (permutation : Permutation.Committed F)
    (permutations : List (Permutation.Committed F)) {values : List F}
    (h : EvaluateH numThreads ev pk challenges y beta gamma theta env driver (advice :: advicePolys)
      («instance» :: instancePolys) (lookup :: lookups) (permutation :: permutations) values) :
    values = pk.vk.domain.emptyExtended.mapIdx fun idx v => hornerFold y v
      ((gateValues pk.vk.cs (rowRead pk (advice.map pk.vk.domain.coeffToExtended)
        («instance».map pk.vk.domain.coeffToExtended) challenges idx)).getD [] ++
      if permutation.sets.isEmpty then [] else
        permutationResiduals pk (advice.map pk.vk.domain.coeffToExtended)
          («instance».map pk.vk.domain.coeffToExtended) beta gamma
          (permutation.sets.map (·.permutationProductCoset)) pk.vk.domain.rotScale
          (toI32 pk.vk.domain.extendedLen) idx) := by
  rw [EvaluateH, if_pos (by simpa using hcuda)] at h
  exact gatesPermutationPasses_eq hev hgates challenges y beta gamma theta _ _ numThreads permutation
    (cudaProofs_of_exit pk challenges y beta gamma theta numThreads env driver hexit h)

/-- With `CUDA=1` and no `CU_KERNEL`, `evaluate_h` drops the lookup residuals that
`evaluate_h_cpu_only` folds in. -/
theorem evaluate_h_without_cu_kernel_drops_lookup_terms :
    letI : FieldExt ℤ := ⟨1, -1⟩
    let cs : ConstraintSystem ℤ := ⟨[], [⟨[], []⟩], ⟨[]⟩, 3, 0⟩
    let pk : ProvingKey ℤ := ⟨⟨⟨0, 1, -1, id⟩, cs⟩, [1, 0], [0, 1], [1, 0], [], ⟨[]⟩⟩
    let ev := (Evaluator.new cs).getD ⟨.default, []⟩
    let env := fun name => if name = "CUDA" then some "1" else none
    let lookups : List (List (Lookup.Committed ℤ)) := [[⟨[0, 0], [0, 0], [0, 0]⟩]]
    (∃ values, EvaluateH 1 ev pk [] 1 0 0 0 env (fun _ => none) [[]] [[]] lookups [⟨[]⟩] values) ∧
    (∀ values, EvaluateH 1 ev pk [] 1 0 0 0 env (fun _ => none) [[]] [[]] lookups [⟨[]⟩] values →
      values = [0, 0]) ∧
    ∀ values, EvaluateHCpuOnly 1 ev pk [] 1 0 0 0 [[]] [[]] lookups [⟨[]⟩] values →
      values = [1, 0] :=
  letI : FieldExt ℤ := ⟨1, -1⟩
  ⟨evaluateH_exists _ _ _ _ _ _ (by rfl) (by decide) _ _ _ (by decide) (by decide) _ _ _
      (by decide) _,
    fun _ h => (evaluateH_of_exit _ _ _ _ _ _ (by rfl) (by decide) _ _ _ (by decide)
      (Or.inl (by decide)) _ _ _ _ _ _ _ _ h).trans (by decide),
    fun _ h => (proofsPasses_eq (by rfl) (by decide) (by decide) _ _ _ _ _ _ _ _ _ (by decide)
      h).trans (by decide)⟩

include hev hgates hlookups in
/-- When `CU_KERNEL` is set and no driver step fails, `evaluate_h_with_cuda` returns exactly the
vectors `evaluate_h_cpu_only` returns. -/
theorem evaluate_h_with_cuda_eq_cpu_only (hkernel : env "CU_KERNEL" ≠ none)
    (hdriver : ∀ p, driver p = none) (advicePolys instancePolys : List (List (List F)))
    (lookups : List (List (Lookup.Committed F)))
    (hlen : ∀ l ∈ lookups, l.length ≤ pk.vk.cs.lookups.length)
    (permutations : List (Permutation.Committed F)) :
    (pk.vk.domain.extendedK ≤ 30 → pk.vk.cs.lookups.length < 2 ^ 31 →
      ∃ values, EvaluateHWithCuda numThreads ev pk challenges y beta gamma theta env driver
        advicePolys instancePolys lookups permutations values) ∧
    (∀ values, EvaluateHWithCuda numThreads ev pk challenges y beta gamma theta env driver
        advicePolys instancePolys lookups permutations values →
      EvaluateHCpuOnly numThreads ev pk challenges y beta gamma theta advicePolys instancePolys
        lookups permutations values ∧
      ∀ values', EvaluateHCpuOnly numThreads ev pk challenges y beta gamma theta advicePolys
        instancePolys lookups permutations values' → values' = values) ∧
    (∀ (advice «instance» : List (List F)) (proofLookups : List (Lookup.Committed F)) combined,
      proofLookups.length ≤ pk.vk.cs.lookups.length →
      PackPasses numThreads ev pk challenges y beta gamma theta advice «instance»
        pk.vk.domain.extendedLen proofLookups.enum combined →
      combined = (proofLookups.zip pk.vk.cs.lookups).map fun x =>
        (List.range pk.vk.domain.extendedLen).map fun idx =>
          lookupPacked (pk.vk.domain.coeffToExtended x.1.permutedInputPoly)
            (pk.vk.domain.coeffToExtended x.1.permutedTablePoly) pk.vk.domain.rotScale
            (toI32 pk.vk.domain.extendedLen) idx
            ((tableValue x.2 (rowRead pk advice «instance» challenges idx) beta gamma theta).getD 0)) ∧
    ∀ (advice «instance» : List (List F)) (proofLookups : List (Lookup.Committed F)) permuted
      combined values', proofLookups.length ≤ pk.vk.cs.lookups.length → 0 < permuted.length →
      PackPasses numThreads ev pk challenges y beta gamma theta advice «instance» permuted.length
        proofLookups.enum combined →
      LookupPasses ev pk challenges y beta gamma theta advice «instance» proofLookups.enum permuted
        values' →
      computeEvaluateHLookupsCodeblock permuted combined
        (proofLookups.map fun l => pk.vk.domain.coeffToExtended l.productPoly)
        (proofLookups.map fun l => pk.vk.domain.coeffToExtended l.permutedInputPoly)
        (proofLookups.map fun l => pk.vk.domain.coeffToExtended l.permutedTablePoly)
        pk.l0 pk.lActiveRow pk.lLast [y, beta, gamma, 1] proofLookups.length = values' := by
  have hproofs := length_le_of_mem_zip_lookups hlen
    (advicePolys.map (·.map pk.vk.domain.coeffToExtended))
    (instancePolys.map (·.map pk.vk.domain.coeffToExtended)) permutations
  refine ⟨fun hext hcount => cudaProofs_exists pk challenges y beta gamma theta hev hgates
      numThreads env driver _ 0 _ (length_emptyExtended_lt hext)
      fun q hq => (hproofs q hq).trans_lt hcount,
    fun values h => ?_, fun advice «instance» ls combined hl hpack => ?_,
    fun advice «instance» ls permuted combined values' hl hsize hpack h => ?_⟩
  · have hcpu := cudaProofs_proofsPasses pk challenges y beta gamma theta hev hgates hlookups
      numThreads env driver hkernel hdriver _ 0 _ values (by simp [EvaluationDomain.emptyExtended])
      hproofs h
    refine ⟨hcpu, fun values' h' => ?_⟩
    rw [proofsPasses_eq hev hgates hlookups challenges y beta gamma theta numThreads _ _ values'
      hproofs h', proofsPasses_eq hev hgates hlookups challenges y beta gamma theta numThreads _ _
      values hproofs hcpu]
  · simpa using packPasses_eq pk challenges y beta gamma theta advice «instance» hev hlookups
      numThreads (Nat.two_pow_pos _) ls 0 combined (by simpa using hl) hpack
  · rw [lookupPasses_eq hev hlookups challenges y beta gamma theta advice «instance» ls 0 permuted
      values' (by simpa using hl) h, List.drop_zero]
    exact lookupsKernel_eq pk challenges y beta gamma theta advice «instance» hev hlookups numThreads
      hl hsize hpack

theorem evaluate_h_with_cuda_eq_cpu_only_gate_permutation_lookup :
    letI : FieldExt ℤ := ⟨1, -1⟩
    let cs : ConstraintSystem ℤ := ⟨[⟨[.product (.advice 0 0) (.fixed 0 1)]⟩],
      [⟨[.advice 0 0], [.fixed 0 0]⟩], ⟨[⟨0, .advice⟩, ⟨0, .fixed⟩]⟩, 3, 0⟩
    let pk : ProvingKey ℤ := ⟨⟨⟨0, 1, -1, id⟩, cs⟩, [1, 0], [0, 1], [1, 0], [[1, 1]],
      ⟨[[1, 1], [1, 1]]⟩⟩
    let ev := (Evaluator.new cs).getD ⟨.default, []⟩
    let advicePolys : List (List (List ℤ)) := [[[2, 3]]]
    let instancePolys : List (List (List ℤ)) := [[]]
    let lookups : List (List (Lookup.Committed ℤ)) := [[⟨[2, 2], [2, 2], [1, 1]⟩]]
    let permutations : List (Permutation.Committed ℤ) := [⟨[⟨[1, 1]⟩, ⟨[1, 1]⟩]⟩]
    let env := fun name => if name = "CU_KERNEL" then some "evaluate_h.ptx" else none
    ∃ values, EvaluateHWithCuda 1 ev pk [3] 2 5 7 11 env (fun _ => none) advicePolys instancePolys
        lookups permutations values ∧
      EvaluateHCpuOnly 1 ev pk [3] 2 5 7 11 advicePolys instancePolys lookups permutations values :=
  letI : FieldExt ℤ := ⟨1, -1⟩
  have h := evaluate_h_with_cuda_eq_cpu_only _ [3] 2 5 7 11 (by rfl) (by decide) (by decide) 1 _
    (fun _ => none) (by decide) (fun _ => rfl) [[[2, 3]]] [[]] [[⟨[2, 2], [2, 2], [1, 1]⟩]] (by decide) [⟨[⟨[1, 1]⟩, ⟨[1, 1]⟩]⟩]
  let ⟨values, hv⟩ := h.1 (by decide) (by decide)
  ⟨values, hv, (h.2.1 values hv).1⟩

include hev hgates hlookups in
/-- Every vector `evaluate_h_with_cuda` can return is the Horner fold of `cudaResiduals`. -/
theorem evaluate_h_with_cuda_horner (advicePolys instancePolys : List (List (List F)))
    (lookups : List (List (Lookup.Committed F)))
    (hlen : ∀ l ∈ lookups, l.length ≤ pk.vk.cs.lookups.length)
    (permutations : List (Permutation.Committed F)) {values : List F}
    (h : EvaluateHWithCuda numThreads ev pk challenges y beta gamma theta env driver advicePolys
      instancePolys lookups permutations values) :
    values.length = pk.vk.domain.extendedLen ∧
    ∀ idx < pk.vk.domain.extendedLen, values[idx]? = some (hornerFold y 0
      (cudaResiduals pk challenges beta gamma theta env driver idx 0
        ((((advicePolys.map (·.map pk.vk.domain.coeffToExtended)).zip
          (instancePolys.map (·.map pk.vk.domain.coeffToExtended))).zip lookups).zip
          permutations))) := by
  rw [cudaProofs_eq pk challenges y beta gamma theta hev hgates hlookups numThreads env driver _ 0 _
    values (by simp [EvaluationDomain.emptyExtended]) (length_le_of_mem_zip_lookups hlen _ _ _) h]
  exact ⟨by simp [EvaluationDomain.emptyExtended], fun idx hidx => by
    simp [EvaluationDomain.emptyExtended, hidx]⟩

theorem evaluate_h_with_cuda_horner_no_kernel :
    letI : FieldExt ℤ := ⟨1, -1⟩
    let cs : ConstraintSystem ℤ := ⟨[⟨[.product (.advice 0 0) (.fixed 0 1)]⟩],
      [⟨[.advice 0 0], [.fixed 0 0]⟩], ⟨[⟨0, .advice⟩, ⟨0, .fixed⟩]⟩, 3, 0⟩
    let pk : ProvingKey ℤ := ⟨⟨⟨0, 1, -1, id⟩, cs⟩, [1, 0], [0, 1], [1, 0], [[1, 1]],
      ⟨[[1, 1], [1, 1]]⟩⟩
    let ev := (Evaluator.new cs).getD ⟨.default, []⟩
    let advicePolys : List (List (List ℤ)) := [[[2, 3]]]
    let instancePolys : List (List (List ℤ)) := [[]]
    let lookups : List (List (Lookup.Committed ℤ)) := [[⟨[2, 2], [2, 2], [1, 1]⟩]]
    let permutations : List (Permutation.Committed ℤ) := [⟨[⟨[1, 1]⟩, ⟨[1, 1]⟩]⟩]
    ∀ values, EvaluateHWithCuda 1 ev pk [3] 2 5 7 11 (fun _ => none) (fun _ => none) advicePolys
        instancePolys lookups permutations values →
      values.length = pk.vk.domain.extendedLen ∧
      ∀ idx < pk.vk.domain.extendedLen, values[idx]? = some (hornerFold 2 0
        (cudaResiduals pk [3] 5 7 11 (fun _ => none) (fun _ => none) idx 0
          ((((advicePolys.map (·.map pk.vk.domain.coeffToExtended)).zip
            (instancePolys.map (·.map pk.vk.domain.coeffToExtended))).zip lookups).zip
            permutations))) :=
  letI : FieldExt ℤ := ⟨1, -1⟩
  fun _ h => evaluate_h_with_cuda_horner _ [3] 2 5 7 11 (by rfl) (by decide) (by decide) 1 _ _
    [[[2, 3]]] [[]] [[⟨[2, 2], [2, 2], [1, 1]⟩]] (by decide) [⟨[⟨[1, 1]⟩, ⟨[1, 1]⟩]⟩] h

include hev hgates hlookups in
/-- `evaluate_h` is deterministic over thread counts and interleavings. -/
theorem evaluate_h_deterministic (numThreads' : ℕ+) (advicePolys instancePolys : List (List (List F)))
    (lookups : List (List (Lookup.Committed F)))
    (hlen : ∀ l ∈ lookups, l.length ≤ pk.vk.cs.lookups.length)
    (permutations : List (Permutation.Committed F)) {values values' : List F}
    (h : EvaluateH numThreads ev pk challenges y beta gamma theta env driver advicePolys
      instancePolys lookups permutations values)
    (h' : EvaluateH numThreads' ev pk challenges y beta gamma theta env driver advicePolys
      instancePolys lookups permutations values') :
    values = values' := by
  have hproofs := length_le_of_mem_zip_lookups hlen
  have hsize : pk.vk.domain.emptyExtended.length = pk.vk.domain.extendedLen := by
    simp [EvaluationDomain.emptyExtended]
  dsimp only [EvaluateH] at h h'
  split_ifs at h h'
  · rw [cudaProofs_eq pk challenges y beta gamma theta hev hgates hlookups numThreads env driver _ 0
      _ values hsize (hproofs _ _ _) h, cudaProofs_eq pk challenges y beta gamma theta hev hgates
      hlookups numThreads' env driver _ 0 _ values' hsize (hproofs _ _ _) h']
  · rw [proofsPasses_eq hev hgates hlookups challenges y beta gamma theta numThreads _ _ values
      (hproofs _ _ _) h, proofsPasses_eq hev hgates hlookups challenges y beta gamma theta
      numThreads' _ _ values' (hproofs _ _ _) h']

theorem evaluate_h_deterministic_two_threads :
    letI : FieldExt ℤ := ⟨1, -1⟩
    let cs : ConstraintSystem ℤ := ⟨[⟨[.product (.advice 0 0) (.fixed 0 1)]⟩],
      [⟨[.advice 0 0], [.fixed 0 0]⟩], ⟨[⟨0, .advice⟩, ⟨0, .fixed⟩]⟩, 3, 0⟩
    let pk : ProvingKey ℤ := ⟨⟨⟨0, 1, -1, id⟩, cs⟩, [1, 0], [0, 1], [1, 0], [[1, 1]],
      ⟨[[1, 1], [1, 1]]⟩⟩
    let ev := (Evaluator.new cs).getD ⟨.default, []⟩
    let advicePolys : List (List (List ℤ)) := [[[2, 3]]]
    let instancePolys : List (List (List ℤ)) := [[]]
    let lookups : List (List (Lookup.Committed ℤ)) := [[⟨[2, 2], [2, 2], [1, 1]⟩]]
    let permutations : List (Permutation.Committed ℤ) := [⟨[⟨[1, 1]⟩, ⟨[1, 1]⟩]⟩]
    ∀ values values', EvaluateH 1 ev pk [3] 2 5 7 11 (fun _ => none) (fun _ => none) advicePolys
        instancePolys lookups permutations values →
      EvaluateH 2 ev pk [3] 2 5 7 11 (fun _ => none) (fun _ => none) advicePolys instancePolys
        lookups permutations values' → values = values' :=
  letI : FieldExt ℤ := ⟨1, -1⟩
  fun _ _ h h' => evaluate_h_deterministic _ [3] 2 5 7 11 (by rfl) (by decide) (by decide) 1 _ _ 2
    [[[2, 3]]] [[]] [[⟨[2, 2], [2, 2], [1, 1]⟩]] (by decide) [⟨[⟨[1, 1]⟩, ⟨[1, 1]⟩]⟩] h h'

end Spec

end PlonkEvaluation
