import PlonkEvaluation.Quotient.Keys
import PlonkEvaluation.Evaluator
import PlonkEvaluation.Parallel

/-! The lookup pass of `evaluate_h`.  `lookupUpdate` is the block of the five lookup identities that
the CPU pass runs and the CUDA kernel runs on the packed values. -/

namespace PlonkEvaluation

variable {F : Type} [CommRing F]

/-- The value of an expression at row `idx` by the reference `evaluate` over `size` rows. -/
def referenceRow (size : Nat) (rotScale : Int) (fixed advice «instance» : List (List F))
    (challenges : List F) (idx : Nat) (e : Expression F) : Option F :=
  (evaluate e size rotScale fixed advice «instance» challenges).bind (·[idx]?)

/-- The compression of values by powers of `theta`, as `evaluate_lc` builds it. -/
def compress (theta : F) (values : List F) : F :=
  values.foldl (fun acc x => acc * theta + x) 0

/-- The `table_value` of a lookup at a row: the shifted compressions of inputs and tables. -/
def tableValue (lookup : Lookup.Argument F) (read : Expression F → Option F)
    (beta gamma theta : F) : Option F := do
  let inputs ← lookup.inputExpressions.mapM read
  let tables ← lookup.tableExpressions.mapM read
  some ((compress theta inputs + beta) * (compress theta tables + gamma))

section Row

variable (l0 lLast lActiveRow : List F) (y beta gamma one : F)
  (productCoset permutedInputCoset permutedTableCoset : List F)

/-- The five lookup identities folded into `value` at row `idx`, from the row's packed
`(table_value, a_minus_s, r_next, r_prev)`. -/
def lookupUpdate (idx : Nat) (combined : F × F × Nat × Nat) (value : F) : F :=
  let tableValue := combined.1
  let aMinusS := combined.2.1
  let rNext := combined.2.2.1
  let rPrev := combined.2.2.2
  -- l_0(X) * (1 - z(X)) = 0
  let value := value * y + (one - productCoset.getD idx 0) * l0.getD idx 0
  -- l_last(X) * (z(X)^2 - z(X)) = 0
  let value := value * y +
    (productCoset.getD idx 0 * productCoset.getD idx 0 - productCoset.getD idx 0) * lLast.getD idx 0
  -- (1 - (l_last(X) + l_blind(X))) * (z(\omega X) (a'(X) + \beta) (s'(X) + \gamma)
  --   - z(X) (\theta^{m-1} a_0(X) + ... + a_{m-1}(X) + \beta)
  --          (\theta^{m-1} s_0(X) + ... + s_{m-1}(X) + \gamma)) = 0
  let value := value * y +
    (productCoset.getD rNext 0 * (permutedInputCoset.getD idx 0 + beta) *
        (permutedTableCoset.getD idx 0 + gamma) - productCoset.getD idx 0 * tableValue) *
      lActiveRow.getD idx 0
  -- l_0(X) * (a'(X) - s'(X)) = 0
  let value := value * y + aMinusS * l0.getD idx 0
  -- (1 - (l_last + l_blind)) * (a'(X) - s'(X)) * (a'(X) - a'(\omega^{-1} X)) = 0
  value * y + aMinusS * (permutedInputCoset.getD idx 0 - permutedInputCoset.getD rPrev 0) *
    lActiveRow.getD idx 0

end Row

section Pass

variable (pk : ProvingKey F) (advice «instance» : List (List F)) (challenges : List F)
  (beta gamma theta y : F) (productCoset permutedInputCoset permutedTableCoset : List F)
  (rotScale isize : Int)

/-- The five lookup residuals at row `idx` in closed form, given its `table_value`. -/
def lookupResiduals (idx : Nat) (tableValue : F) : List F :=
  let rNext := getRotationIdx idx 1 rotScale isize
  let rPrev := getRotationIdx idx (-1) rotScale isize
  [(1 - productCoset.getD idx 0) * pk.l0.getD idx 0,
    (productCoset.getD idx 0 ^ 2 - productCoset.getD idx 0) * pk.lLast.getD idx 0,
    (productCoset.getD rNext 0 * (permutedInputCoset.getD idx 0 + beta) *
        (permutedTableCoset.getD idx 0 + gamma) - productCoset.getD idx 0 * tableValue) *
      pk.lActiveRow.getD idx 0,
    (permutedInputCoset.getD idx 0 - permutedTableCoset.getD idx 0) * pk.l0.getD idx 0,
    (permutedInputCoset.getD idx 0 - permutedTableCoset.getD idx 0) *
        (permutedInputCoset.getD idx 0 - permutedInputCoset.getD rPrev 0) *
      pk.lActiveRow.getD idx 0]

def lookupPacked (idx : Nat) (tableValue : F) : F × F × Nat × Nat :=
  (tableValue, permutedInputCoset.getD idx 0 - permutedTableCoset.getD idx 0,
    getRotationIdx idx 1 rotScale isize, getRotationIdx idx (-1) rotScale isize)

theorem lookupUpdate_eq (idx : Nat) (tableValue value : F) :
    lookupUpdate pk.l0 pk.lLast pk.lActiveRow y beta gamma 1 productCoset permutedInputCoset
        permutedTableCoset idx
        (lookupPacked permutedInputCoset permutedTableCoset rotScale isize idx tableValue) value =
      hornerFold y value (lookupResiduals pk beta gamma productCoset permutedInputCoset
        permutedTableCoset rotScale isize idx tableValue) := by
  simp only [lookupUpdate, lookupPacked, lookupResiduals, hornerFold_cons, hornerFold_nil, pow_two]

/-- The inputs the lookup graph reads at a row: `previous_value` is zero. -/
def lookupInputs : Inputs F :=
  ⟨pk.fixedCosets, advice, «instance», challenges, beta, gamma, theta, y, 0⟩

/-- The body of a worker of the pass of one lookup. -/
def lookupRow (graph : GraphEvaluator F) (data : EvaluationData F) (idx : Nat) (value : F) :
    F × EvaluationData F :=
  let r := graph.evaluate data (lookupInputs pk advice «instance» challenges beta gamma theta y) idx
    rotScale isize
  (lookupUpdate pk.l0 pk.lLast pk.lActiveRow y beta gamma 1 productCoset permutedInputCoset
    permutedTableCoset idx (lookupPacked permutedInputCoset permutedTableCoset rotScale isize idx r.1)
    value, r.2)

variable [DecidableEq F]

theorem lookupGraph_evaluate {lookup : Lookup.Argument F} {graph : GraphEvaluator F}
    (hgraph : Evaluator.lookupGraph lookup = some graph)
    (hin : ∀ e ∈ lookup.inputExpressions, e.selectorFree)
    (htab : ∀ e ∈ lookup.tableExpressions, e.selectorFree) (data : EvaluationData F)
    (hd : data.intermediates.length = graph.numIntermediates ∧
      data.rotations.length = graph.rotations.length) (idx : Nat) :
    tableValue lookup (fun e => evaluateRow e idx rotScale isize pk.fixedCosets advice «instance»
        challenges) beta gamma theta =
      some (graph.evaluate data (lookupInputs pk advice «instance» challenges beta gamma theta y) idx
        rotScale isize).1 := by
  obtain ⟨inputs, tables, hi, ht, hv⟩ := (GraphEvaluator.lookupGraph_spec hgraph hin htab).2 data
    hd.1 hd.2 (lookupInputs pk advice «instance» challenges beta gamma theta y) idx rotScale isize
  simp only [tableValue, lookupInputs] at hi ht hv ⊢
  simp only [hi, ht, Option.bind_eq_bind, Option.some_bind, hv, compress, foldl_horner, zero_mul,
    zero_add]

theorem lookupRow_good {lookup : Lookup.Argument F} {graph : GraphEvaluator F}
    (hgraph : Evaluator.lookupGraph lookup = some graph)
    (hin : ∀ e ∈ lookup.inputExpressions, e.selectorFree)
    (htab : ∀ e ∈ lookup.tableExpressions, e.selectorFree) (data : EvaluationData F) (idx : Nat)
    (value : F) (hd : data.intermediates.length = graph.numIntermediates ∧
      data.rotations.length = graph.rotations.length) :
    (lookupRow pk advice «instance» challenges beta gamma theta y productCoset permutedInputCoset
        permutedTableCoset rotScale isize graph data idx value).1 =
      hornerFold y value (lookupResiduals pk beta gamma productCoset permutedInputCoset
        permutedTableCoset rotScale isize idx
        ((tableValue lookup (fun e => evaluateRow e idx rotScale isize pk.fixedCosets advice
          «instance» challenges) beta gamma theta).getD 0)) ∧
    ((lookupRow pk advice «instance» challenges beta gamma theta y productCoset
        permutedInputCoset permutedTableCoset rotScale isize graph data idx value).2.intermediates.length =
        graph.numIntermediates ∧
      (lookupRow pk advice «instance» challenges beta gamma theta y productCoset
        permutedInputCoset permutedTableCoset rotScale isize graph data idx value).2.rotations.length =
        graph.rotations.length) := by
  refine ⟨?_, graph.evaluate_sizes hd _ idx rotScale isize⟩
  rw [lookupGraph_evaluate pk advice «instance» challenges beta gamma theta y rotScale isize hgraph
    hin htab data hd idx]
  exact lookupUpdate_eq pk beta gamma y productCoset permutedInputCoset permutedTableCoset rotScale
    isize idx _ value

theorem lookupPass_eq {lookup : Lookup.Argument F} {graph : GraphEvaluator F}
    (hgraph : Evaluator.lookupGraph lookup = some graph)
    (hin : ∀ e ∈ lookup.inputExpressions, e.selectorFree)
    (htab : ∀ e ∈ lookup.tableExpressions, e.selectorFree) (lens order : List Nat)
    (values : List F) (hlens : lens.sum = values.length) :
    parallelPass (fun _ => graph.«instance»)
        (lookupRow pk advice «instance» challenges beta gamma theta y productCoset
          permutedInputCoset permutedTableCoset rotScale isize graph) lens order values =
      values.mapIdx fun idx value => hornerFold y value (lookupResiduals pk beta gamma productCoset
        permutedInputCoset permutedTableCoset rotScale isize idx
        ((tableValue lookup (fun e => evaluateRow e idx rotScale isize pk.fixedCosets advice
          «instance» challenges) beta gamma theta).getD 0)) :=
  parallelPass_eq (fun data idx value hd => lookupRow_good pk advice «instance» challenges beta
    gamma theta y productCoset permutedInputCoset permutedTableCoset rotScale isize hgraph hin htab
    data idx value hd) (fun _ => ⟨by simp, by simp⟩) lens order values hlens

end Pass

end PlonkEvaluation
