import PlonkEvaluation.Graph.Evaluate
import Mathlib.Algebra.BigOperators.Ring
import Mathlib.Tactic.Ring

/-! What the graphs of `Evaluator::new` compute at a row: the gate polynomials folded by powers of
`y`, and per lookup the product of the shifted `theta` compressions of its inputs and tables. -/

namespace PlonkEvaluation

/-- The scalars only `Evaluator::new` itself reads: `beta`, `gamma`, `y` and `previous_value`. -/
def ValueSource.isArgument : ValueSource → Bool
  | .beta | .gamma | .y | .previousValue => true
  | _ => false

variable {F : Type}

section

variable [CommRing F]

theorem foldl_horner (y : F) : ∀ (xs : List F) (v : F),
    xs.foldl (fun acc x => acc * y + x) v =
      v * y ^ xs.length + ∑ j in Finset.range xs.length, y ^ (xs.length - 1 - j) * xs.getD j 0
  | [], v => by simp
  | x :: xs, v => by
    rw [List.foldl_cons, foldl_horner y xs, List.length_cons, Finset.sum_range_succ']
    have hpow : ∀ j ∈ Finset.range xs.length,
        y ^ (xs.length + 1 - 1 - (j + 1)) * (x :: xs).getD (j + 1) 0 =
          y ^ (xs.length - 1 - j) * xs.getD j 0 := fun j _ => by
      rw [List.getD_cons_succ, show xs.length + 1 - 1 - (j + 1) = xs.length - 1 - j by omega]
    rw [Finset.sum_congr rfl hpow, List.getD_cons_zero, Nat.add_sub_cancel, Nat.sub_zero]
    ring

end

namespace GraphEvaluator

def ReadsNoArgument (g : GraphEvaluator F) : Prop :=
  ∀ c ∈ g.calculations, ∀ s ∈ c.calculation.sources, s.isArgument = false

theorem ReadsNoArgument.addCalculation {g : GraphEvaluator F} (hg : g.ReadsNoArgument)
    {calculation : Calculation} (hc : ∀ s ∈ calculation.sources, s.isArgument = false) :
    (g.addCalculation calculation).2.ReadsNoArgument ∧
      (g.addCalculation calculation).1.isArgument = false := by
  obtain ⟨info, hinfo, hcalc, -, h | ⟨-, -, h⟩⟩ := addCalculation_spec g calculation <;>
    rw [hinfo, h] <;> refine ⟨?_, rfl⟩
  · exact hg
  · intro c hmem
    rcases List.mem_append.mp hmem with hmem | hmem
    · exact hg c hmem
    · rw [List.mem_singleton.mp hmem, hcalc]; exact hc

private theorem ReadsNoArgument.of_some_addCalculation {g g' : GraphEvaluator F}
    {calculation : Calculation} {s : ValueSource} (hg : g.ReadsNoArgument)
    (hc : ∀ x ∈ calculation.sources, x.isArgument = false)
    (h : some (g.addCalculation calculation) = some (s, g')) :
    g'.ReadsNoArgument ∧ s.isArgument = false := by
  obtain ⟨rfl, rfl⟩ := Prod.ext_iff.mp (Option.some.inj h).symm
  exact hg.addCalculation hc

private theorem ReadsNoArgument.emit {g : GraphEvaluator F} (hg : g.ReadsNoArgument)
    {r : ValueSource ⊕ Calculation} (hr : ∀ x ∈ emitSources r, x.isArgument = false) :
    (g.emit r).2.ReadsNoArgument ∧ (g.emit r).1.isArgument = false := by
  cases r with
  | inl x => exact ⟨hg, hr x (List.mem_singleton_self _)⟩
  | inr c => exact hg.addCalculation hr

private theorem isArgument_of_operands {ra rb x : ValueSource} (ha : ra.isArgument = false)
    (hb : rb.isArgument = false) (hx : x = ra ∨ x = rb ∨ x = .constant 0) :
    x.isArgument = false := by
  rcases hx with rfl | rfl | rfl
  exacts [ha, hb, rfl]

private theorem ReadsNoArgument.of_some_self {g g' : GraphEvaluator F} {x s : ValueSource}
    (hg : g.ReadsNoArgument) (hx : x.isArgument = false) (h : some (x, g) = some (s, g')) :
    g'.ReadsNoArgument ∧ s.isArgument = false := by
  cases h; exact ⟨hg, hx⟩

theorem ReadsNoArgument.not_mem {g : GraphEvaluator F} (hg : g.ReadsNoArgument)
    {calculation : Calculation} {s : ValueSource} (hs : s ∈ calculation.sources)
    (harg : s.isArgument = true) : ∀ c ∈ g.calculations, c.calculation ≠ calculation := by
  rintro c hc rfl
  exact Bool.false_ne_true ((hg c hc s hs).symm.trans harg)

section

variable [DecidableEq F]

theorem ReadsNoArgument.addConstant {g : GraphEvaluator F} (hg : g.ReadsNoArgument)
    (constant : F) :
    (g.addConstant constant).2.ReadsNoArgument ∧ (g.addConstant constant).1.isArgument = false := by
  obtain ⟨pos, hpos, -⟩ := addConstant_spec g constant
  exact ⟨fun c hc => hg c (by simpa using hc), by rw [hpos]; rfl⟩

end

variable [CommRing F]

theorem readsNoArgument_default : (GraphEvaluator.default : GraphEvaluator F).ReadsNoArgument :=
  fun _ h => absurd h (List.not_mem_nil _)

theorem evaluate_fst_of_getLast? {g : GraphEvaluator F} (hg : g.WellFormed)
    {info : CalculationInfo} (hlast : g.calculations.getLast? = some info)
    {data : EvaluationData F} (hd : data.intermediates.length = g.numIntermediates)
    (inp : Inputs F) (idx : Nat) (rotScale isize : Int) :
    (g.evaluate data inp idx rotScale isize).1 = info.calculation.evaluate
      (g.evaluate data inp idx rotScale isize).2.rotations g.constants
      (g.evaluate data inp idx rotScale isize).2.intermediates inp := by
  obtain ⟨i, hi, rfl⟩ := List.getElem_of_mem (List.mem_of_getLast?_eq_some hlast)
  show (match g.calculations.getLast? with
    | some c => (g.evaluate data inp idx rotScale isize).2.intermediates.getD c.target 0
    | none => 0) = _
  rw [hlast]
  dsimp only
  rw [hg.target_eq i hi]
  exact settled_evaluateCalculations hg _ hd inp i hi

variable [DecidableEq F]

theorem ReadsNoArgument.of_addExpression {g g' : GraphEvaluator F} {e : Expression F}
    {s : ValueSource} (hg : g.ReadsNoArgument) (h : g.addExpression e = some (s, g')) :
    g'.ReadsNoArgument ∧ s.isArgument = false := by
  induction g, e using addExpression.induct generalizing s g' with
  | case1 g scalar | case7 g scalar =>
    obtain ⟨rfl, rfl⟩ := Prod.ext_iff.mp (Option.some.inj h).symm
    exact hg.addConstant _
  | case2 => cases h
  | case3 g c r rotIdx g1 hr | case4 g c r rotIdx g1 hr | case5 g c r rotIdx g1 hr =>
    simp only [addExpression, hr] at h
    have h1 : g1.ReadsNoArgument := by
      have := addRotation_calculations g r
      rw [hr] at this
      exact fun c hc => hg c (this ▸ hc)
    exact h1.of_some_addCalculation (by simp [Calculation.sources, ValueSource.isArgument]) h
  | case6 g i =>
    exact hg.of_some_addCalculation (by simp [Calculation.sources, ValueSource.isArgument]) h
  | case8 g a hna iha =>
    rw [addExpression] at h
    · simp only [Option.bind_eq_bind, Option.bind_eq_some] at h
      obtain ⟨⟨ra, g1⟩, h1, h⟩ := h
      obtain ⟨rfl, rfl⟩ := Prod.ext_iff.mp (Option.some.inj h).symm
      obtain ⟨r1, a1⟩ := iha hg h1
      exact r1.emit fun x hx => negatedStep_sources hx ▸ a1
    · exact hna
  | case9 g a bInt iha ihb =>
    simp only [addExpression, Option.bind_eq_bind, Option.bind_eq_some] at h
    obtain ⟨⟨ra, g1⟩, h1, ⟨rb, g2⟩, h2, h⟩ := h
    obtain ⟨rfl, rfl⟩ := Prod.ext_iff.mp (Option.some.inj h).symm
    obtain ⟨r1, a1⟩ := iha hg h1
    obtain ⟨r2, a2⟩ := ihb g1 r1 h2
    exact r2.emit fun x hx => isArgument_of_operands a1 a2 (subStep_sources hx)
  | case10 g a b hb iha ihb =>
    rw [addExpression] at h
    · simp only [Option.bind_eq_bind, Option.bind_eq_some] at h
      obtain ⟨⟨ra, g1⟩, h1, ⟨rb, g2⟩, h2, h⟩ := h
      obtain ⟨rfl, rfl⟩ := Prod.ext_iff.mp (Option.some.inj h).symm
      obtain ⟨r1, a1⟩ := iha hg h1
      obtain ⟨r2, a2⟩ := ihb g1 r1 h2
      exact r2.emit fun x hx => isArgument_of_operands a1 a2 (sumStep_sources hx)
    · exact hb
  | case11 g a b iha ihb =>
    simp only [addExpression, Option.bind_eq_bind, Option.bind_eq_some] at h
    obtain ⟨⟨ra, g1⟩, h1, ⟨rb, g2⟩, h2, h⟩ := h
    obtain ⟨rfl, rfl⟩ := Prod.ext_iff.mp (Option.some.inj h).symm
    obtain ⟨r1, a1⟩ := iha hg h1
    obtain ⟨r2, a2⟩ := ihb g1 r1 h2
    exact r2.emit fun x hx => isArgument_of_operands a1 a2 (productStep_sources hx)
  | case12 g a =>
    simp only [addExpression, if_true] at h
    exact hg.of_some_self (by rfl) h
  | case13 g a h10 iha =>
    simp only [addExpression, h10, if_false, if_true] at h
    exact iha hg h
  | case14 g a f hf0 hf1 cst g1 hc iha =>
    simp only [addExpression, hf0, hf1, if_false, hc, Option.bind_eq_bind,
      Option.bind_eq_some] at h
    obtain ⟨⟨ra, g2⟩, h2, h⟩ := h
    have c1 := hg.addConstant f
    rw [hc] at c1
    obtain ⟨r2, a2⟩ := iha c1.1 h2
    exact r2.of_some_addCalculation (by simp [Calculation.sources, a2, c1.2]) h

theorem ReadsNoArgument.of_addExpressions {g g' : GraphEvaluator F} {es : List (Expression F)}
    {parts : List ValueSource} (hg : g.ReadsNoArgument) (h : g.addExpressions es = some (parts, g')) :
    g'.ReadsNoArgument ∧ ∀ p ∈ parts, p.isArgument = false := by
  induction es generalizing g parts with
  | nil =>
    obtain ⟨rfl, rfl⟩ := Prod.mk.inj (Option.some.inj h)
    exact ⟨hg, fun _ hp => absurd hp (List.not_mem_nil _)⟩
  | cons e es ih =>
    simp only [addExpressions, Option.bind_eq_bind, Option.bind_eq_some] at h
    obtain ⟨⟨s, g1⟩, h1, ⟨ps, g2⟩, h2, h⟩ := h
    obtain ⟨rfl, rfl⟩ := Prod.mk.inj (Option.some.inj h)
    obtain ⟨r1, a1⟩ := hg.of_addExpression h1
    obtain ⟨r2, a2⟩ := ih r1 h2
    exact ⟨r2, by simpa [a1] using a2⟩

theorem ReadsNoArgument.of_evaluateLc {g g' : GraphEvaluator F} {es : List (Expression F)}
    {s : ValueSource} (hg : g.ReadsNoArgument) (h : Evaluator.evaluateLc g es = some (s, g')) :
    g'.ReadsNoArgument ∧ s.isArgument = false := by
  simp only [Evaluator.evaluateLc, Option.bind_eq_bind, Option.bind_eq_some] at h
  obtain ⟨⟨parts, g1⟩, h1, h⟩ := h
  obtain ⟨r1, hp⟩ := hg.of_addExpressions h1
  exact r1.of_some_addCalculation (by simpa [Calculation.sources, ValueSource.isArgument]) h

section Values

variable {g'' : GraphEvaluator F} {rots : List Nat} {ints : List F} {inp : Inputs F}
  {idx : Nat} {rotScale isize : Int}

theorem Agrees.mapM_of_addExpressions (ha : Agrees g'' rots ints inp idx rotScale isize)
    {g g' : GraphEvaluator F} {es : List (Expression F)} {parts : List ValueSource}
    (hes : ∀ e ∈ es, e.selectorFree) (h : g.addExpressions es = some (parts, g'))
    (hx : g'.Extends g'') :
    es.mapM (fun e => evaluateRow e idx rotScale isize inp.fixed inp.advice inp.«instance»
      inp.challenges) = some (parts.map (·.get rots g''.constants ints inp)) := by
  induction es generalizing g parts with
  | nil =>
    obtain ⟨rfl, -⟩ := Prod.mk.inj (Option.some.inj h)
    rfl
  | cons e es ih =>
    simp only [addExpressions, Option.bind_eq_bind, Option.bind_eq_some] at h
    obtain ⟨⟨s, g1⟩, h1, ⟨ps, g2⟩, h2, h⟩ := h
    obtain ⟨rfl, rfl⟩ := Prod.mk.inj (Option.some.inj h)
    rw [List.mapM_cons, ha.get_of_addExpression (hes e (List.mem_cons_self _ _)) h1
      ((extends_addExpressions h2).trans hx), ih (fun x hx => hes x (List.mem_cons_of_mem _ hx)) h2]
    rfl

theorem Agrees.get_of_evaluateLc (ha : Agrees g'' rots ints inp idx rotScale isize)
    {g g' : GraphEvaluator F} {es : List (Expression F)} {s : ValueSource}
    (hes : ∀ e ∈ es, e.selectorFree) (h : Evaluator.evaluateLc g es = some (s, g'))
    (hx : g'.Extends g'') :
    ∃ values, es.mapM (fun e => evaluateRow e idx rotScale isize inp.fixed inp.advice
        inp.«instance» inp.challenges) = some values ∧
      s.get rots g''.constants ints inp =
        ∑ j in Finset.range values.length, inp.theta ^ (values.length - 1 - j) * values.getD j 0 := by
  simp only [Evaluator.evaluateLc, Option.bind_eq_bind, Option.bind_eq_some] at h
  obtain ⟨⟨parts, g1⟩, h1, h⟩ := h
  refine ⟨_, ha.mapM_of_addExpressions hes h1 ((extends_of_some_addCalculation h).trans hx), ?_⟩
  rw [ha.get_of_some_addCalculation h hx, Calculation.evaluate_horner, foldl_horner,
    ha.get_seeded.1, zero_mul, zero_add]
  rfl

end Values

theorem customGates_spec {cs : ConstraintSystem F} {ev : Evaluator F}
    (h : Evaluator.new cs = some ev)
    (hgates : ∀ p ∈ cs.gates.flatMap (·.polynomials), p.selectorFree) :
    (∃ parts, ev.customGates.calculations.getLast?.map (·.calculation) =
      some (.horner .previousValue parts .y)) ∧
    ∀ data : EvaluationData F, data.intermediates.length = ev.customGates.numIntermediates →
      data.rotations.length = ev.customGates.rotations.length →
      ∀ (inp : Inputs F) (idx : Nat) (rotScale isize : Int),
      ∃ values, (cs.gates.flatMap (·.polynomials)).mapM (fun p => evaluateRow p idx rotScale isize
          inp.fixed inp.advice inp.«instance» inp.challenges) = some values ∧
        (ev.customGates.evaluate data inp idx rotScale isize).1 =
          inp.previousValue * inp.y ^ values.length +
            ∑ j in Finset.range values.length, inp.y ^ (values.length - 1 - j) * values.getD j 0 := by
  have hwf := (reachable_evaluator_new h).1.wellFormed.1
  simp only [Evaluator.new, Option.bind_eq_bind, Option.bind_eq_some] at h
  obtain ⟨⟨parts, g1⟩, h1, lookups, -, h⟩ := h
  obtain rfl := Option.some.inj h
  have hnew : ∀ c ∈ g1.calculations, c.calculation ≠ .horner .previousValue parts .y :=
    (readsNoArgument_default.of_addExpressions h1).1.not_mem (List.mem_cons_self _ _) (by rfl)
  obtain ⟨-, happ, -⟩ := addCalculation_append hnew
  have hlast : (g1.addCalculation (.horner .previousValue parts .y)).2.calculations.getLast? =
      some ⟨.horner .previousValue parts .y, g1.numIntermediates⟩ := by
    rw [happ, List.getLast?_concat]
  refine ⟨⟨parts, by rw [hlast]; rfl⟩, fun data hd hr inp idx rotScale isize => ?_⟩
  have ha := agrees_evaluate hwf ⟨hd, hr⟩ inp idx rotScale isize
  refine ⟨_, ha.mapM_of_addExpressions hgates h1 (extends_addCalculation g1 _), ?_⟩
  rw [evaluate_fst_of_getLast? hwf hlast hd, Calculation.evaluate_horner, foldl_horner]
  rfl

theorem lookupGraph_spec {lookup : Lookup.Argument F} {g : GraphEvaluator F}
    (h : Evaluator.lookupGraph lookup = some g)
    (hin : ∀ e ∈ lookup.inputExpressions, e.selectorFree)
    (htab : ∀ e ∈ lookup.tableExpressions, e.selectorFree) :
    (∃ a b, g.calculations.getLast?.map (·.calculation) = some (.mul a b)) ∧
    ∀ data : EvaluationData F, data.intermediates.length = g.numIntermediates →
      data.rotations.length = g.rotations.length →
      ∀ (inp : Inputs F) (idx : Nat) (rotScale isize : Int),
      ∃ inputs tables,
        lookup.inputExpressions.mapM (fun e => evaluateRow e idx rotScale isize inp.fixed
          inp.advice inp.«instance» inp.challenges) = some inputs ∧
        lookup.tableExpressions.mapM (fun e => evaluateRow e idx rotScale isize inp.fixed
          inp.advice inp.«instance» inp.challenges) = some tables ∧
        (g.evaluate data inp idx rotScale isize).1 =
          (∑ j in Finset.range inputs.length,
              inp.theta ^ (inputs.length - 1 - j) * inputs.getD j 0 + inp.beta) *
            (∑ j in Finset.range tables.length,
              inp.theta ^ (tables.length - 1 - j) * tables.getD j 0 + inp.gamma) := by
  have hwf := (reachable_lookupGraph h).wellFormed.1
  simp only [Evaluator.lookupGraph, Option.bind_eq_bind, Option.bind_eq_some] at h
  obtain ⟨⟨ci, g1⟩, h1, ⟨ct, g2⟩, h2, h⟩ := h
  obtain rfl := Option.some.inj h
  have r2 := ((readsNoArgument_default.of_evaluateLc h1).1.of_evaluateLc h2).1
  have w2 := ((wellFormed_default.evaluateLc h1).1.evaluateLc h2).1
  -- `right_gamma` and `lc` read `gamma` and `beta`, so both are appended
  have hnew3 : ∀ c ∈ g2.calculations, c.calculation ≠ .add ct .gamma :=
    r2.not_mem (List.mem_cons_of_mem _ (List.mem_singleton_self _)) (by rfl)
  obtain ⟨e3s, e3c, e3n⟩ := addCalculation_append hnew3
  have hnew4 : ∀ c ∈ (g2.addCalculation (.add ct .gamma)).2.calculations,
      c.calculation ≠ .add ci .beta := by
    rw [e3c]
    intro c hc
    rcases List.mem_append.mp hc with hc | hc
    · exact r2.not_mem (List.mem_cons_of_mem _ (List.mem_singleton_self _)) (by rfl) c hc
    · rw [List.mem_singleton.mp hc]; simp
  obtain ⟨e4s, e4c, -⟩ := addCalculation_append hnew4
  -- the product reads the slot of `lc`, which no earlier calculation reads
  have hnew5 : ∀ c ∈ ((g2.addCalculation (.add ct .gamma)).2.addCalculation (.add ci .beta)).2.calculations,
      c.calculation ≠ .mul ((g2.addCalculation (.add ct .gamma)).2.addCalculation (.add ci .beta)).1
        (g2.addCalculation (.add ct .gamma)).1 := by
    rw [e4c, e3c, e4s, e3n]
    intro c hc
    rcases List.mem_append.mp hc with hc | hc
    · rcases List.mem_append.mp hc with hc | hc
      · obtain ⟨i, hi, rfl⟩ := List.getElem_of_mem hc
        intro heq
        have hv := w2.sources_valid i hi (.intermediate (g2.numIntermediates + 1))
          (by rw [heq]; simp [Calculation.sources])
        simp only [Valid, w2.numIntermediates_eq] at hv
        omega
      · rw [List.mem_singleton.mp hc]; simp
    · rw [List.mem_singleton.mp hc]; simp
  obtain ⟨-, e5c, -⟩ := addCalculation_append hnew5
  have hlast := congrArg List.getLast? e5c
  rw [List.getLast?_concat] at hlast
  refine ⟨⟨_, _, by rw [hlast]; rfl⟩, fun data hd hr inp idx rotScale isize => ?_⟩
  have ha := agrees_evaluate hwf ⟨hd, hr⟩ inp idx rotScale isize
  have hx4 := extends_addCalculation
    ((g2.addCalculation (.add ct .gamma)).2.addCalculation (.add ci .beta)).2
    (.mul ((g2.addCalculation (.add ct .gamma)).2.addCalculation (.add ci .beta)).1
      (g2.addCalculation (.add ct .gamma)).1)
  have hx3 := (extends_addCalculation _ _).trans hx4
  have hx2 := (extends_addCalculation _ _).trans hx3
  obtain ⟨inputs, hinputs, hci⟩ :=
    ha.get_of_evaluateLc hin h1 ((Evaluator.extends_evaluateLc h2).trans hx2)
  obtain ⟨tables, htables, hct⟩ := ha.get_of_evaluateLc htab h2 hx2
  refine ⟨inputs, tables, hinputs, htables, ?_⟩
  rw [evaluate_fst_of_getLast? hwf hlast hd]
  simp only [Calculation.evaluate]
  rw [ha.get_addCalculation hx4, ha.get_addCalculation hx3]
  simp only [Calculation.evaluate, hci, hct]
  rfl

end GraphEvaluator

variable [CommRing F] [DecidableEq F]

open GraphEvaluator in
/-- At every row, whatever the scratch held, the graphs of `Evaluator::new` compute the Horner fold
of the gate polynomials and each lookup's `table_value`, with the last calculation emitted last. -/
theorem evaluator_new_evaluate {cs : ConstraintSystem F} {ev : Evaluator F}
    (h : Evaluator.new cs = some ev)
    (hgates : ∀ p ∈ cs.gates.flatMap (·.polynomials), p.selectorFree)
    (hlookups : ∀ l ∈ cs.lookups,
      (∀ e ∈ l.inputExpressions, e.selectorFree) ∧ ∀ e ∈ l.tableExpressions, e.selectorFree)
    (inp : Inputs F) (size idx : Nat) (hidx : idx < size) (rotScale : Int) :
    ((∃ parts, ev.customGates.calculations.getLast?.map (·.calculation) =
        some (.horner .previousValue parts .y)) ∧
      ∀ data : EvaluationData F,
        data.intermediates.length = ev.customGates.«instance».intermediates.length →
        data.rotations.length = ev.customGates.«instance».rotations.length →
        ∃ values, (cs.gates.flatMap (·.polynomials)).mapM (fun p => (evaluate p size rotScale
            inp.fixed inp.advice inp.«instance» inp.challenges).bind (·[idx]?)) = some values ∧
          (ev.customGates.evaluate data inp idx rotScale (toI32 size)).1 =
            inp.previousValue * inp.y ^ values.length + ∑ j in Finset.range values.length,
              inp.y ^ (values.length - 1 - j) * values.getD j 0) ∧
    ev.lookups.length = cs.lookups.length ∧
    ∀ n (hn : n < cs.lookups.length) (g : GraphEvaluator F), ev.lookups[n]? = some g →
      (∃ a b, g.calculations.getLast?.map (·.calculation) = some (.mul a b)) ∧
      ∀ data : EvaluationData F, data.intermediates.length = g.«instance».intermediates.length →
        data.rotations.length = g.«instance».rotations.length →
        ∃ inputs tables,
          cs.lookups[n].inputExpressions.mapM (fun e => (evaluate e size rotScale inp.fixed
            inp.advice inp.«instance» inp.challenges).bind (·[idx]?)) = some inputs ∧
          cs.lookups[n].tableExpressions.mapM (fun e => (evaluate e size rotScale inp.fixed
            inp.advice inp.«instance» inp.challenges).bind (·[idx]?)) = some tables ∧
          (g.evaluate data inp idx rotScale (toI32 size)).1 =
            (∑ j in Finset.range inputs.length,
                inp.theta ^ (inputs.length - 1 - j) * inputs.getD j 0 + inp.beta) *
              (∑ j in Finset.range tables.length,
                inp.theta ^ (tables.length - 1 - j) * tables.getD j 0 + inp.gamma) := by
  obtain ⟨hlast, hval⟩ := customGates_spec h hgates
  have hnew := h
  simp only [Evaluator.new, Option.bind_eq_bind, Option.bind_eq_some] at hnew
  obtain ⟨⟨parts, g1⟩, -, lookups, hl, hev⟩ := hnew
  obtain ⟨hlen, hget⟩ := mapM_eq_some hl
  have hlk : ev.lookups = lookups := by rw [← Option.some.inj hev]
  refine ⟨⟨hlast, fun data hd hr => ?_⟩, hlk ▸ hlen, fun n hn g hg => ?_⟩
  · obtain ⟨values, hvalues, hv⟩ :=
      hval data (by simpa using hd) (by simpa using hr) inp idx rotScale (toI32 size)
    exact ⟨values, (mapM_evaluate_getElem? hgates size rotScale _ _ _ _ hidx).trans hvalues, hv⟩
  · obtain ⟨hin, htab⟩ := hlookups _ (List.getElem_mem hn)
    obtain ⟨hlast', hval'⟩ := lookupGraph_spec ((hget n hn).trans (hlk ▸ hg)) hin htab
    refine ⟨hlast', fun data hd hr => ?_⟩
    obtain ⟨inputs, tables, hi, ht, hv⟩ :=
      hval' data (by simpa using hd) (by simpa using hr) inp idx rotScale (toI32 size)
    exact ⟨inputs, tables, (mapM_evaluate_getElem? hin size rotScale _ _ _ _ hidx).trans hi,
      (mapM_evaluate_getElem? htab size rotScale _ _ _ _ hidx).trans ht, hv⟩

theorem evaluator_new_evaluate_gates_and_lookup :
    let cs : ConstraintSystem ℤ :=
      ⟨[⟨[.sum (.advice 0 0) (.negated (.fixed 0 1)), .product (.advice 0 0) (.advice 0 0)]⟩],
        [⟨[.advice 0 0], [.fixed 0 0]⟩], ⟨[]⟩, 3, 1⟩
    let ev := (Evaluator.new cs).getD ⟨.default, []⟩
    let inp : Inputs ℤ := ⟨[[1, 2, 3, 4]], [[5, 6, 7, 8]], [], [], 2, 3, 5, 3, 7⟩
    ((∃ parts, ev.customGates.calculations.getLast?.map (·.calculation) =
        some (.horner .previousValue parts .y)) ∧
      ∀ data : EvaluationData ℤ,
        data.intermediates.length = ev.customGates.«instance».intermediates.length →
        data.rotations.length = ev.customGates.«instance».rotations.length →
        ∃ values, (cs.gates.flatMap (·.polynomials)).mapM (fun p => (evaluate p 4 1
            inp.fixed inp.advice inp.«instance» inp.challenges).bind (·[0]?)) = some values ∧
          (ev.customGates.evaluate data inp 0 1 (toI32 4)).1 =
            inp.previousValue * inp.y ^ values.length + ∑ j in Finset.range values.length,
              inp.y ^ (values.length - 1 - j) * values.getD j 0) ∧
    ev.lookups.length = cs.lookups.length ∧
    ∀ n (hn : n < cs.lookups.length) (g : GraphEvaluator ℤ), ev.lookups[n]? = some g →
      (∃ a b, g.calculations.getLast?.map (·.calculation) = some (.mul a b)) ∧
      ∀ data : EvaluationData ℤ, data.intermediates.length = g.«instance».intermediates.length →
        data.rotations.length = g.«instance».rotations.length →
        ∃ inputs tables,
          cs.lookups[n].inputExpressions.mapM (fun e => (evaluate e 4 1 inp.fixed
            inp.advice inp.«instance» inp.challenges).bind (·[0]?)) = some inputs ∧
          cs.lookups[n].tableExpressions.mapM (fun e => (evaluate e 4 1 inp.fixed
            inp.advice inp.«instance» inp.challenges).bind (·[0]?)) = some tables ∧
          (g.evaluate data inp 0 1 (toI32 4)).1 =
            (∑ j in Finset.range inputs.length,
                inp.theta ^ (inputs.length - 1 - j) * inputs.getD j 0 + inp.beta) *
              (∑ j in Finset.range tables.length,
                inp.theta ^ (tables.length - 1 - j) * tables.getD j 0 + inp.gamma) :=
  evaluator_new_evaluate (by rfl) (by decide) (by decide)
    ⟨[[1, 2, 3, 4]], [[5, 6, 7, 8]], [], [], 2, 3, 5, 3, 7⟩ 4 0 (by decide) 1

example : ((Evaluator.new (⟨[⟨[.sum (.advice 0 0) (.negated (.fixed 0 1)),
      .product (.advice 0 0) (.advice 0 0)]⟩], [⟨[.advice 0 0], [.fixed 0 0]⟩], ⟨[]⟩, 3, 1⟩ :
        ConstraintSystem ℤ)).map fun ev => ev.customGates.calculations.map (·.calculation)) =
    some [.store (.advice 0 0), .store (.fixed 0 1), .sub (.intermediate 0) (.intermediate 1),
      .square (.intermediate 0), .horner .previousValue [.intermediate 2, .intermediate 3] .y] :=
  rfl

end PlonkEvaluation
