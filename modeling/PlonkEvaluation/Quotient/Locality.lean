import PlonkEvaluation.Quotient.Cuda
import Mathlib.Data.List.GetD
import Mathlib.Data.ZMod.Basic

/-! What a row of the quotient reads: the advice and instance cosets at the row itself and at the
row of every rotation an expression queries. -/

namespace PlonkEvaluation

variable {F : Type} [CommRing F]

def Expression.witnessRotations : Expression F → List Int
  | .advice _ rotation | .«instance» _ rotation => [rotation]
  | .negated a | .scaled a _ => a.witnessRotations
  | .sum a b | .product a b => a.witnessRotations ++ b.witnessRotations
  | _ => []

def ConstraintSystem.expressions (cs : ConstraintSystem F) : List (Expression F) :=
  cs.gates.flatMap (·.polynomials) ++
    cs.lookups.flatMap fun l => l.inputExpressions ++ l.tableExpressions

/-- The rows of the witness cosets that the quotient at row `idx` reads. -/
def readRows (pk : ProvingKey F) (idx : Nat) : List Nat :=
  idx :: (pk.vk.cs.expressions.flatMap Expression.witnessRotations).map fun rotation =>
    getRotationIdx idx rotation pk.vk.domain.rotScale (toI32 pk.vk.domain.extendedLen)

/-- Two lists of columns agree at `rows`, a missing column or row reading as zero. -/
def AgreeAt (rows : List Nat) (cols cols' : List (List F)) : Prop :=
  ∀ c < max cols.length cols'.length, ∀ i ∈ rows,
    (cols.getD c []).getD i 0 = (cols'.getD c []).getD i 0

instance [DecidableEq F] (rows : List Nat) (cols cols' : List (List F)) :
    Decidable (AgreeAt rows cols cols') :=
  inferInstanceAs (Decidable (∀ c < max cols.length cols'.length, ∀ i ∈ rows, _))

variable {rows : List Nat} {cols cols' : List (List F)}

theorem AgreeAt.getD (h : AgreeAt rows cols cols') (c : Nat) {i : Nat} (hi : i ∈ rows) :
    (cols.getD c []).getD i 0 = (cols'.getD c []).getD i 0 := by
  rcases Nat.lt_or_ge c (max cols.length cols'.length) with hc | hc
  · exact h c hc i hi
  · rw [List.getD_eq_default _ _ (le_of_max_le_left hc),
      List.getD_eq_default _ _ (le_of_max_le_right hc)]

section Congr

variable {advice advice' «instance» instance' : List (List F)}
  (hadvice : AgreeAt rows advice advice') (hinstance : AgreeAt rows «instance» instance')

include hadvice hinstance

theorem evaluateRow_congr_witness (e : Expression F) (idx : Nat) (rotScale isize : Int)
    (fixed : List (List F)) (challenges : List F)
    (hrows : ∀ r ∈ e.witnessRotations, getRotationIdx idx r rotScale isize ∈ rows) :
    evaluateRow e idx rotScale isize fixed advice «instance» challenges =
      evaluateRow e idx rotScale isize fixed advice' instance' challenges := by
  induction e with
  | advice c r => exact congrArg some (hadvice.getD c (hrows r (List.mem_singleton_self r)))
  | «instance» c r => exact congrArg some (hinstance.getD c (hrows r (List.mem_singleton_self r)))
  | negated a iha => simp [iha hrows]
  | scaled a f iha => simp [iha hrows]
  | sum a b iha ihb | product a b iha ihb =>
    simp only [Expression.witnessRotations, List.mem_append] at hrows
    simp [iha fun r hr => hrows r (.inl hr), ihb fun r hr => hrows r (.inr hr)]
  | _ => rfl

theorem columnValues_congr (fixed : List (List F)) {idx : Nat} (hidx : idx ∈ rows)
    (column : Column) :
    (columnValues fixed advice «instance» column).getD idx 0 =
      (columnValues fixed advice' instance' column).getD idx 0 := by
  simp only [columnValues]
  split
  · exact hadvice.getD _ hidx
  · rfl
  · exact hinstance.getD _ hidx

end Congr

omit [CommRing F] in
theorem gateValues_congr (cs : ConstraintSystem F) {read read' : Expression F → Option F}
    (hread : ∀ e ∈ cs.expressions, read e = read' e) : gateValues cs read = gateValues cs read' :=
  mapM_congr fun p hp => hread p (List.mem_append_left _ hp)

section Row

variable (pk : ProvingKey F) (challenges : List F) {advice advice' «instance» instance' : List (List F)}
  {idx : Nat} (hadvice : AgreeAt (readRows pk idx) advice advice')
  (hinstance : AgreeAt (readRows pk idx) «instance» instance')

include hadvice hinstance

theorem rowRead_congr : ∀ e ∈ pk.vk.cs.expressions,
    rowRead pk advice «instance» challenges idx e = rowRead pk advice' instance' challenges idx e :=
  fun e he => evaluateRow_congr_witness hadvice hinstance e idx _ _ _ _ fun r hr =>
    List.mem_cons_of_mem _ (List.mem_map.mpr ⟨r, List.mem_flatMap.mpr ⟨e, he, hr⟩, rfl⟩)

variable [FieldExt F] (beta gamma theta : F)

theorem permutationResiduals_congr (sets : List (List F)) (rotScale isize : Int) :
    permutationResiduals pk advice «instance» beta gamma sets rotScale isize idx =
      permutationResiduals pk advice' instance' beta gamma sets rotScale isize idx := by
  simp only [permutationResiduals, chunkResidual, deltaFactor,
    columnValues_congr hadvice hinstance _ (List.mem_cons_self idx _)]

theorem proofResiduals_congr_witness (lookups : List (Lookup.Committed F))
    (permutation : Permutation.Committed F) :
    proofResiduals pk beta gamma theta (rowRead pk advice «instance» challenges idx) advice
        «instance» lookups permutation idx =
      proofResiduals pk beta gamma theta (rowRead pk advice' instance' challenges idx) advice'
        instance' lookups permutation idx := by
  have hread := rowRead_congr pk challenges hadvice hinstance
  have hlookups : lookupTerms pk beta gamma theta (rowRead pk advice «instance» challenges idx)
      lookups idx = lookupTerms pk beta gamma theta (rowRead pk advice' instance' challenges idx)
      lookups idx := by
    refine mapM_congr fun x hx => ?_
    have hx2 : ∀ e ∈ x.2.inputExpressions ++ x.2.tableExpressions, rowRead pk advice «instance»
        challenges idx e = rowRead pk advice' instance' challenges idx e :=
      fun e he => hread e (List.mem_append_right _ (List.mem_flatMap.mpr
        ⟨x.2, (List.of_mem_zip hx).2, he⟩))
    simp only [tableValue, mapM_congr fun e he => hx2 e (List.mem_append_left _ he),
      mapM_congr fun e he => hx2 e (List.mem_append_right _ he)]
  simp only [proofResiduals, gateValues_congr pk.vk.cs hread, hlookups,
    permutationResiduals_congr pk hadvice hinstance]

end Row

def ProofAgreeAt (pk : ProvingKey F) (idx : Nat)
    (p q : ((List (List F) × List (List F)) × List (Lookup.Committed F)) × Permutation.Committed F) :
    Prop :=
  p.1.2 = q.1.2 ∧ p.2 = q.2 ∧ AgreeAt (readRows pk idx) p.1.1.1 q.1.1.1 ∧
    AgreeAt (readRows pk idx) p.1.1.2 q.1.1.2

theorem forall₂_zip_proofAgreeAt {pk : ProvingKey F} {idx : Nat}
    {advice advice' «instance» instance' : List (List (List F))}
    (hadvice : List.Forall₂ (AgreeAt (readRows pk idx)) advice advice')
    (hinstance : List.Forall₂ (AgreeAt (readRows pk idx)) «instance» instance') :
    ∀ (lookups : List (List (Lookup.Committed F))) (permutations : List (Permutation.Committed F)),
      List.Forall₂ (ProofAgreeAt pk idx) (((advice.zip «instance»).zip lookups).zip permutations)
        (((advice'.zip instance').zip lookups).zip permutations) := by
  induction hadvice generalizing «instance» instance' with
  | nil => intro _ _; exact .nil
  | cons ha _ ih =>
    cases hinstance with
    | nil => intro _ _; exact .nil
    | cons hi hrest =>
      rintro (_ | ⟨l, lookups⟩) (_ | ⟨p, permutations⟩)
      all_goals first | exact .nil | exact .cons ⟨rfl, rfl, ha, hi⟩ (ih hrest lookups permutations)

variable [FieldExt F] [DecidableEq F] {ev : Evaluator F} {pk : ProvingKey F}
  (hev : Evaluator.new pk.vk.cs = some ev)
  (hgates : ∀ p ∈ pk.vk.cs.gates.flatMap (·.polynomials), p.selectorFree)
  (hlookups : ∀ l ∈ pk.vk.cs.lookups,
    (∀ e ∈ l.inputExpressions, e.selectorFree) ∧ ∀ e ∈ l.tableExpressions, e.selectorFree)
  (challenges : List F) (y beta gamma theta : F)

include hev hgates hlookups in
theorem proofsPasses_getElem?_congr (numThreads numThreads' : ℕ+) {idx : Nat} :
    ∀ {proofs proofs' : List (((List (List F) × List (List F)) × List (Lookup.Committed F)) ×
        Permutation.Committed F)},
      List.Forall₂ (ProofAgreeAt pk idx) proofs proofs' →
      (∀ p ∈ proofs, p.1.2.length ≤ pk.vk.cs.lookups.length) →
      ∀ {values values' values₁ values₂ : List F}, values[idx]? = values'[idx]? →
        ProofsPasses numThreads ev pk challenges y beta gamma theta proofs values values₁ →
        ProofsPasses numThreads' ev pk challenges y beta gamma theta proofs' values' values₂ →
        values₁[idx]? = values₂[idx]? := by
  intro proofs proofs' hagree
  induction hagree with
  | nil =>
    intro _ _ _ _ _ hv h h'
    simp only [ProofsPasses] at h h'
    rw [h, h', hv]
  | @cons p q _ _ hpq _ ih =>
    obtain ⟨⟨⟨advice, «instance»⟩, lookups⟩, permutation⟩ := p
    obtain ⟨⟨⟨advice', instance'⟩, lookups'⟩, permutation'⟩ := q
    obtain ⟨rfl, rfl, hadvice, hinstance⟩ := hpq
    rintro hlen _ _ _ _ hv ⟨mid, hp, h⟩ ⟨mid', hp', h'⟩
    have hlk := hlen _ (List.mem_cons_self _ _)
    refine ih (fun p hp => hlen p (List.mem_cons_of_mem _ hp)) ?_ h h'
    rw [proofPasses_eq hev hgates hlookups challenges y beta gamma theta advice «instance»
        numThreads lookups hlk permutation hp,
      proofPasses_eq hev hgates hlookups challenges y beta gamma theta advice' instance'
        numThreads' lookups hlk permutation hp', List.getElem?_mapIdx, List.getElem?_mapIdx, hv,
      proofResiduals_congr_witness pk challenges hadvice hinstance]

omit [DecidableEq F] in
theorem cudaResiduals_congr (env : String → Option String) (driver : Nat → Option DriverStep)
    {idx : Nat} :
    ∀ {proofs proofs' : List (((List (List F) × List (List F)) × List (Lookup.Committed F)) ×
        Permutation.Committed F)} (p : Nat),
      List.Forall₂ (ProofAgreeAt pk idx) proofs proofs' →
      cudaResiduals pk challenges beta gamma theta env driver idx p proofs =
        cudaResiduals pk challenges beta gamma theta env driver idx p proofs' := by
  intro proofs proofs' p hagree
  induction hagree generalizing p with
  | nil => rfl
  | @cons a b _ _ hab _ ih =>
    obtain ⟨⟨⟨advice, «instance»⟩, lookups⟩, permutation⟩ := a
    obtain ⟨⟨⟨advice', instance'⟩, lookups'⟩, permutation'⟩ := b
    obtain ⟨rfl, rfl, hadvice, hinstance⟩ := hab
    simp only [cudaResiduals, ih, proofResiduals_congr_witness pk challenges hadvice hinstance,
      gateValues_congr pk.vk.cs (rowRead_congr pk challenges hadvice hinstance),
      permutationResiduals_congr pk hadvice hinstance]

include hev hgates hlookups in
/-- Row `idx` of `evaluate_h` reads each proof's witness only at `readRows idx`, on both paths and
for any thread counts, splits and interleavings. -/
theorem evaluate_h_reads_only_queried_rows (numThreads numThreads' : ℕ+)
    (env : String → Option String) (driver : Nat → Option DriverStep)
    {advicePolys advicePolys' instancePolys instancePolys' : List (List (List F))}
    (lookups : List (List (Lookup.Committed F)))
    (hlen : ∀ l ∈ lookups, l.length ≤ pk.vk.cs.lookups.length)
    (permutations : List (Permutation.Committed F)) {idx : Nat}
    (hadvice : List.Forall₂ (fun a a' => AgreeAt (readRows pk idx)
      (a.map pk.vk.domain.coeffToExtended) (a'.map pk.vk.domain.coeffToExtended))
      advicePolys advicePolys')
    (hinstance : List.Forall₂ (fun i i' => AgreeAt (readRows pk idx)
      (i.map pk.vk.domain.coeffToExtended) (i'.map pk.vk.domain.coeffToExtended))
      instancePolys instancePolys')
    {values values' : List F}
    (h : EvaluateH numThreads ev pk challenges y beta gamma theta env driver advicePolys
      instancePolys lookups permutations values)
    (h' : EvaluateH numThreads' ev pk challenges y beta gamma theta env driver advicePolys'
      instancePolys' lookups permutations values') :
    values[idx]? = values'[idx]? := by
  have hagree := forall₂_zip_proofAgreeAt
    (List.forall₂_map_left_iff.mpr (List.forall₂_map_right_iff.mpr hadvice))
    (List.forall₂_map_left_iff.mpr (List.forall₂_map_right_iff.mpr hinstance)) lookups permutations
  have hproofs := length_le_of_mem_zip_lookups hlen
  have hsize : pk.vk.domain.emptyExtended.length = pk.vk.domain.extendedLen := by
    simp [EvaluationDomain.emptyExtended]
  dsimp only [EvaluateH] at h h'
  split_ifs at h h'
  · rw [cudaProofs_eq pk challenges y beta gamma theta hev hgates hlookups numThreads env driver _ 0
      _ values hsize (hproofs _ _ _) h, cudaProofs_eq pk challenges y beta gamma theta hev hgates
      hlookups numThreads' env driver _ 0 _ values' hsize (hproofs _ _ _) h', List.getElem?_mapIdx,
      List.getElem?_mapIdx, cudaResiduals_congr challenges beta gamma theta env driver 0 hagree]
  · exact proofsPasses_getElem?_congr hev hgates hlookups challenges y beta gamma theta numThreads
      numThreads' hagree (hproofs _ _ _) rfl h h'

theorem evaluate_h_reads_only_queried_rows_unread_rows :
    letI : FieldExt (ZMod 5) := ⟨1, 2⟩
    let cs : ConstraintSystem (ZMod 5) := ⟨[⟨[.advice 0 1]⟩], [], ⟨[]⟩, 3, 0⟩
    let pk : ProvingKey (ZMod 5) := ⟨⟨⟨1, 2, 2, id⟩, cs⟩, [1, 0, 0, 0], [0, 0, 0, 1], [1, 1, 1, 0],
      [], ⟨[]⟩⟩
    let ev := (Evaluator.new cs).getD ⟨.default, []⟩
    ∀ values values',
      EvaluateH 1 ev pk [] 2 0 0 0 (fun _ => none) (fun _ => none) [[[1, 2, 3, 4]]] [[]] [[]]
        [⟨[]⟩] values →
      EvaluateH 2 ev pk [] 2 0 0 0 (fun _ => none) (fun _ => none) [[[1, 4, 3, 0]]] [[]] [[]]
        [⟨[]⟩] values' →
      values[0]? = values'[0]? :=
  letI : FieldExt (ZMod 5) := ⟨1, 2⟩
  fun _ _ h h' => evaluate_h_reads_only_queried_rows (by rfl) (by decide) (by decide) [] 2 0 0 0 1
    2 _ _ [[]] (by decide) [⟨[]⟩] (by exact .cons (by decide) .nil)
    (by exact .cons (by decide) .nil) h h'

example : (2 : ZMod 5) ^ 4 = 1 ∧ (2 : ZMod 5) ^ 2 ≠ 1 ∧
    readRows (⟨⟨⟨1, 2, 2, id⟩, ⟨[⟨[.advice 0 1]⟩], [], ⟨[]⟩, 3, 0⟩⟩, [], [], [], [], ⟨[]⟩⟩ :
      ProvingKey (ZMod 5)) 0 = [0, 2] := by
  decide

end PlonkEvaluation
