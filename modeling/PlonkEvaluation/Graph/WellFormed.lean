import PlonkEvaluation.Graph.Build
import Mathlib.Logic.Relation
import Mathlib.Algebra.Ring.Int.Defs

/-! The invariant of a graph under construction: slot `i` holds the `i`-th calculation, which
reads only earlier slots, known constants and known rotations, and nothing is stored twice.
It holds of every graph reachable from `GraphEvaluator::default()`. -/

namespace PlonkEvaluation

namespace GraphEvaluator

variable {F : Type}

def Valid (g : GraphEvaluator F) (bound : Nat) : ValueSource → Prop
  | .constant c => c < g.constants.length
  | .intermediate t => t < bound
  | .fixed _ r | .advice _ r | .«instance» _ r => r < g.rotations.length
  | _ => True

theorem Valid.mono {g g' : GraphEvaluator F} {bound bound' : Nat} {s : ValueSource}
    (hx : g.Extends g') (hb : bound ≤ bound') (h : g.Valid bound s) : g'.Valid bound' s := by
  have hc := hx.constants.length_le
  have hr := hx.rotations.length_le
  cases s <;> simp only [Valid] at h ⊢ <;> omega

variable [CommRing F]

structure WellFormed (g : GraphEvaluator F) : Prop where
  seeded : [0, 1, 2] <+: g.constants
  rotations_nodup : g.rotations.Nodup
  numIntermediates_eq : g.numIntermediates = g.calculations.length
  target_eq : ∀ i (hi : i < g.calculations.length), g.calculations[i].target = i
  calculations_nodup : (g.calculations.map (·.calculation)).Nodup
  sources_valid : ∀ i (hi : i < g.calculations.length),
    ∀ s ∈ g.calculations[i].calculation.sources, g.Valid i s

theorem wellFormed_default : (GraphEvaluator.default : GraphEvaluator F).WellFormed where
  seeded := List.prefix_refl _
  rotations_nodup := List.nodup_nil
  numIntermediates_eq := rfl
  target_eq _ hi := absurd hi (Nat.not_lt_zero _)
  calculations_nodup := List.nodup_nil
  sources_valid _ hi := absurd hi (Nat.not_lt_zero _)

theorem WellFormed.of_extends {g g' : GraphEvaluator F} (hg : g.WellFormed) (hx : g.Extends g')
    (hc : g'.calculations = g.calculations) (hn : g'.numIntermediates = g.numIntermediates)
    (hr : g'.rotations.Nodup) : g'.WellFormed where
  seeded := hg.seeded.trans hx.constants
  rotations_nodup := hr
  numIntermediates_eq := hn ▸ hc ▸ hg.numIntermediates_eq
  target_eq i hi := by simp only [hc] at hi ⊢; exact hg.target_eq i hi
  calculations_nodup := hc ▸ hg.calculations_nodup
  sources_valid i hi s hs := by
    simp only [hc] at hi hs
    exact (hg.sources_valid i hi s hs).mono hx le_rfl

theorem WellFormed.addRotation {g : GraphEvaluator F} (hg : g.WellFormed) (rotation : Int) :
    (g.addRotation rotation).2.WellFormed ∧
      (g.addRotation rotation).1 < (g.addRotation rotation).2.rotations.length := by
  obtain ⟨hfind, hcase⟩ := addRotation_spec g rotation
  refine ⟨?_, (List.findIdx?_eq_some_iff_findIdx_eq.mp hfind).1⟩
  rcases hcase with h | ⟨hnot, h⟩
  · rw [h]; exact hg
  · refine hg.of_extends (extends_addRotation g rotation) (by rw [h]) (by rw [h]) ?_
    rw [h]
    exact hg.rotations_nodup.append (List.nodup_singleton _) (by simpa using hnot)

theorem WellFormed.addCalculation {g : GraphEvaluator F} (hg : g.WellFormed)
    {calculation : Calculation}
    (hv : ∀ s ∈ calculation.sources, g.Valid g.calculations.length s) :
    (g.addCalculation calculation).2.WellFormed ∧
      (g.addCalculation calculation).2.Valid (g.addCalculation calculation).2.calculations.length
        (g.addCalculation calculation).1 := by
  obtain ⟨info, hinfo, hcalc, hfind, hcase⟩ := addCalculation_spec g calculation
  rw [hinfo]
  rcases hcase with h | ⟨hnot, htarget, h⟩ <;> rw [h]
  · obtain ⟨i, hi, rfl⟩ := List.getElem_of_mem (List.mem_of_find?_eq_some (h ▸ hfind))
    exact ⟨hg, (hg.target_eq i hi).symm ▸ hi⟩
  · have hlen := hg.numIntermediates_eq
    refine ⟨⟨hg.seeded, hg.rotations_nodup, by simp [hlen], fun i hi => ?_, ?_,
      fun i hi s hs => ?_⟩, by simp [Valid, htarget, hlen]⟩
    · rw [List.getElem_append]
      split
      · exact hg.target_eq i ‹_›
      · simp at hi ⊢; omega
    · simp only [List.map_append, List.map_cons, List.map_nil]
      exact hg.calculations_nodup.append (List.nodup_singleton _)
        (by simpa [hcalc] using fun c hc heq => hnot c hc heq)
    · have hx := h ▸ extends_addCalculation g calculation
      rw [List.getElem_append] at hs
      split at hs
      · exact (hg.sources_valid i ‹_› s hs).mono hx le_rfl
      · simp only [List.length_append, List.length_singleton] at hi
        obtain rfl : i = g.calculations.length := by omega
        simp only [List.getElem_singleton, Nat.sub_self, hcalc] at hs
        exact (hv s hs).mono hx le_rfl

theorem WellFormed.valid_constant {g : GraphEvaluator F} (hg : g.WellFormed) {c : Nat}
    (hc : c < 3) (bound : Nat) : g.Valid bound (.constant c) := by
  have := hg.seeded.length_le
  simp only [Valid, List.length_cons, List.length_nil] at this ⊢
  omega

/-- A compiled expression leaves a well-formed graph and a source every later calculation may read. -/
def Compiled (g g' : GraphEvaluator F) (s : ValueSource) : Prop :=
  g'.WellFormed ∧ g'.Valid g'.calculations.length s ∧ (g.constants.Nodup → g'.constants.Nodup)

private theorem compiled_of_some_self {g₀ g g' : GraphEvaluator F} {x s : ValueSource}
    (hc : Compiled g₀ g x) (h : some (x, g) = some (s, g')) : Compiled g₀ g' s := by
  cases h; exact hc

private theorem compiled_of_some_addCalculation {g₀ g g' : GraphEvaluator F} {c : Calculation}
    {s : ValueSource} (hg : g.WellFormed) (hn : g₀.constants.Nodup → g.constants.Nodup)
    (hv : ∀ x ∈ c.sources, g.Valid g.calculations.length x)
    (h : some (g.addCalculation c) = some (s, g')) : Compiled g₀ g' s := by
  obtain ⟨rfl, rfl⟩ := Prod.ext_iff.mp (Option.some.inj h).symm
  obtain ⟨hwf, hs⟩ := hg.addCalculation hv
  exact ⟨hwf, hs, by simpa using hn⟩

private theorem compiled_emit {g₀ g : GraphEvaluator F} {r : ValueSource ⊕ Calculation}
    (hg : g.WellFormed) (hn : g₀.constants.Nodup → g.constants.Nodup)
    (hv : ∀ x ∈ emitSources r, g.Valid g.calculations.length x) :
    Compiled g₀ (g.emit r).2 (g.emit r).1 := by
  cases r with
  | inl x => exact ⟨hg, hv x (List.mem_singleton_self _), hn⟩
  | inr c =>
    obtain ⟨hwf, hs⟩ := hg.addCalculation hv
    exact ⟨hwf, hs, by simpa using hn⟩

private theorem valid_of_operands {g : GraphEvaluator F} {ra rb x : ValueSource}
    (hg : g.WellFormed) (ha : g.Valid g.calculations.length ra)
    (hb : g.Valid g.calculations.length rb) (hx : x = ra ∨ x = rb ∨ x = .constant 0) :
    g.Valid g.calculations.length x := by
  rcases hx with rfl | rfl | rfl
  exacts [ha, hb, hg.valid_constant (by decide) _]

private theorem Compiled.valid_mono {g₀ g₁ g₂ : GraphEvaluator F} {x : ValueSource}
    (h₁ : Compiled g₀ g₁ x) (hx : g₁.Extends g₂) :
    g₂.Valid g₂.calculations.length x :=
  h₁.2.1.mono hx hx.calculations.length_le

variable [DecidableEq F]

theorem WellFormed.addConstant {g : GraphEvaluator F} (hg : g.WellFormed) (constant : F)
    (bound : Nat) :
    (g.addConstant constant).2.WellFormed ∧
      (g.addConstant constant).2.Valid bound (g.addConstant constant).1 ∧
      (g.constants.Nodup → (g.addConstant constant).2.constants.Nodup) := by
  obtain ⟨pos, hpos, hfind, hcase⟩ := addConstant_spec g constant
  rw [hpos]
  refine ⟨?_, (List.findIdx?_eq_some_iff_findIdx_eq.mp hfind).1, ?_⟩ <;>
    rcases hcase with h | ⟨hnot, h⟩ <;> rw [h]
  · exact hg
  · exact hg.of_extends (h ▸ extends_addConstant g constant) rfl rfl hg.rotations_nodup
  · exact id
  · exact fun hnd => hnd.append (List.nodup_singleton _) (by simpa using hnot)

theorem WellFormed.compiled_addExpression {g g' : GraphEvaluator F} {e : Expression F}
    {s : ValueSource} (hg : g.WellFormed) (h : g.addExpression e = some (s, g')) :
    Compiled g g' s := by
  induction g, e using addExpression.induct generalizing s g' with
  | case1 g scalar =>
    simp only [addExpression] at h
    obtain ⟨rfl, rfl⟩ := Prod.ext_iff.mp (Option.some.inj h).symm
    exact hg.addConstant scalar _
  | case2 => cases h
  | case3 g c r rotIdx g1 hr | case4 g c r rotIdx g1 hr | case5 g c r rotIdx g1 hr =>
    have hrot := hg.addRotation r
    have hc := addRotation_constants g r
    rw [hr] at hrot hc
    obtain ⟨hwf, hlt⟩ := hrot
    simp only [addExpression, hr] at h
    exact compiled_of_some_addCalculation hwf (hc ▸ id) (by simpa [Calculation.sources, Valid]) h
  | case6 g i =>
    exact compiled_of_some_addCalculation hg id (by simp [Calculation.sources, Valid]) h
  | case7 g scalar =>
    simp only [addExpression] at h
    obtain ⟨rfl, rfl⟩ := Prod.ext_iff.mp (Option.some.inj h).symm
    exact hg.addConstant (-scalar) _
  | case8 g a ha iha =>
    rw [addExpression] at h
    · simp only [Option.bind_eq_bind, Option.bind_eq_some] at h
      obtain ⟨⟨ra, g1⟩, h1, h⟩ := h
      obtain ⟨rfl, rfl⟩ := Prod.ext_iff.mp (Option.some.inj h).symm
      have c1 := iha hg h1
      exact compiled_emit c1.1 c1.2.2 fun x hx => negatedStep_sources hx ▸ c1.2.1
    · exact ha
  | case9 g a bInt iha ihb =>
    simp only [addExpression, Option.bind_eq_bind, Option.bind_eq_some] at h
    obtain ⟨⟨ra, g1⟩, h1, ⟨rb, g2⟩, h2, h⟩ := h
    obtain ⟨rfl, rfl⟩ := Prod.ext_iff.mp (Option.some.inj h).symm
    have c1 := iha hg h1
    have c2 := ihb g1 c1.1 h2
    exact compiled_emit c2.1 (c2.2.2 ∘ c1.2.2) fun x hx =>
      valid_of_operands c2.1 (c1.valid_mono (extends_addExpression h2)) c2.2.1 (subStep_sources hx)
  | case10 g a b hb iha ihb =>
    rw [addExpression] at h
    · simp only [Option.bind_eq_bind, Option.bind_eq_some] at h
      obtain ⟨⟨ra, g1⟩, h1, ⟨rb, g2⟩, h2, h⟩ := h
      obtain ⟨rfl, rfl⟩ := Prod.ext_iff.mp (Option.some.inj h).symm
      have c1 := iha hg h1
      have c2 := ihb g1 c1.1 h2
      exact compiled_emit c2.1 (c2.2.2 ∘ c1.2.2) fun x hx =>
        valid_of_operands c2.1 (c1.valid_mono (extends_addExpression h2)) c2.2.1
          (sumStep_sources hx)
    · exact hb
  | case11 g a b iha ihb =>
    simp only [addExpression, Option.bind_eq_bind, Option.bind_eq_some] at h
    obtain ⟨⟨ra, g1⟩, h1, ⟨rb, g2⟩, h2, h⟩ := h
    obtain ⟨rfl, rfl⟩ := Prod.ext_iff.mp (Option.some.inj h).symm
    have c1 := iha hg h1
    have c2 := ihb g1 c1.1 h2
    exact compiled_emit c2.1 (c2.2.2 ∘ c1.2.2) fun x hx =>
      valid_of_operands c2.1 (c1.valid_mono (extends_addExpression h2)) c2.2.1
        (productStep_sources hx)
  | case12 g a =>
    simp only [addExpression, if_true] at h
    exact compiled_of_some_self ⟨hg, hg.valid_constant (by decide) _, id⟩ h
  | case13 g a h10 iha =>
    simp only [addExpression, h10, if_false, if_true] at h
    exact iha hg h
  | case14 g a f hf0 hf1 cst g1 hc iha =>
    simp only [addExpression, hf0, hf1, if_false, hc, Option.bind_eq_bind,
      Option.bind_eq_some] at h
    obtain ⟨⟨ra, g2⟩, h2, h⟩ := h
    have c1 : Compiled g g1 cst := by
      have := hg.addConstant f (g.addConstant f).2.calculations.length
      rwa [hc] at this
    have c2 := iha c1.1 h2
    have vc := c1.valid_mono (extends_addExpression h2)
    exact compiled_of_some_addCalculation c2.1 (c2.2.2 ∘ c1.2.2)
      (by simp [Calculation.sources, vc, c2.2.1]) h

/-- One call of the graph-building interface, reading only sources an earlier call returned. -/
inductive Step : GraphEvaluator F → GraphEvaluator F → Prop
  | addConstant (g : GraphEvaluator F) (constant : F) : Step g (g.addConstant constant).2
  | addRotation (g : GraphEvaluator F) (rotation : Int) : Step g (g.addRotation rotation).2
  | addExpression {g g' : GraphEvaluator F} {e : Expression F} {s : ValueSource}
      (h : g.addExpression e = some (s, g')) : Step g g'
  | addCalculation (g : GraphEvaluator F) {calculation : Calculation}
      (h : ∀ s ∈ calculation.sources, g.Valid g.calculations.length s) :
      Step g (g.addCalculation calculation).2

/-- Reachable from `GraphEvaluator::default()` by any sequence of calls. -/
def Reachable (g : GraphEvaluator F) : Prop :=
  Relation.ReflTransGen Step GraphEvaluator.default g

theorem Step.extends {g g' : GraphEvaluator F} (h : Step g g') : g.Extends g' := by
  cases h with
  | addConstant c => exact extends_addConstant _ c
  | addRotation r => exact extends_addRotation _ r
  | addExpression h => exact extends_addExpression h
  | addCalculation _ => exact extends_addCalculation _ _

theorem reflTransGen_extends {g g' : GraphEvaluator F} (h : Relation.ReflTransGen Step g g') :
    g.Extends g' := by
  induction h with
  | refl => rfl
  | tail _ hstep ih => exact ih.trans hstep.extends

theorem Step.wellFormed {g g' : GraphEvaluator F} (h : Step g g') (hg : g.WellFormed) :
    g'.WellFormed ∧ (g.constants.Nodup → g'.constants.Nodup) := by
  cases h with
  | addConstant c => exact ⟨(hg.addConstant c 0).1, (hg.addConstant c 0).2.2⟩
  | addRotation r => exact ⟨(hg.addRotation r).1, by simp⟩
  | addExpression h => exact ⟨(hg.compiled_addExpression h).1, (hg.compiled_addExpression h).2.2⟩
  | addCalculation hv => exact ⟨(hg.addCalculation hv).1, by simp⟩

theorem Reachable.wellFormed {g : GraphEvaluator F} (h : g.Reachable) :
    g.WellFormed ∧ ((0 : F) ≠ 1 ∧ (0 : F) ≠ 2 ∧ (1 : F) ≠ 2 → g.constants.Nodup) := by
  induction h with
  | refl => exact ⟨wellFormed_default, fun ⟨h01, h02, h12⟩ => by simp [GraphEvaluator.default, *]⟩
  | tail _ hstep ih =>
    exact ⟨(hstep.wellFormed ih.1).1, (hstep.wellFormed ih.1).2 ∘ ih.2⟩

theorem reachableFrom_addExpressions {g g' : GraphEvaluator F} {es : List (Expression F)}
    {parts : List ValueSource} (hg : g.WellFormed) (h : g.addExpressions es = some (parts, g')) :
    Relation.ReflTransGen Step g g' ∧ g'.WellFormed ∧
      ∀ p ∈ parts, g'.Valid g'.calculations.length p := by
  induction es generalizing g parts with
  | nil =>
    simp only [addExpressions, Option.some.injEq, Prod.mk.injEq] at h
    obtain ⟨rfl, rfl⟩ := h
    exact ⟨.refl, hg, by simp⟩
  | cons e es ih =>
    simp only [addExpressions, Option.bind_eq_bind, Option.bind_eq_some] at h
    obtain ⟨⟨s, g1⟩, h1, ⟨ps, g2⟩, h2, h⟩ := h
    simp only [Option.some.injEq, Prod.mk.injEq] at h
    obtain ⟨rfl, rfl⟩ := h
    have c1 := hg.compiled_addExpression h1
    obtain ⟨hrun, hwf, hps⟩ := ih c1.1 h2
    have hx := (Relation.ReflTransGen.single (Step.addExpression h1)).trans hrun
    refine ⟨hx, hwf, ?_⟩
    simp only [List.mem_cons, forall_eq_or_imp]
    exact ⟨c1.2.1.mono (reflTransGen_extends hrun) (reflTransGen_extends hrun).calculations.length_le, hps⟩

private def RunTo (g₀ g : GraphEvaluator F) (s : ValueSource) : Prop :=
  Relation.ReflTransGen Step g₀ g ∧ g.WellFormed ∧ g.Valid g.calculations.length s

private theorem runTo_addCalculation {g₀ g : GraphEvaluator F}
    (hrun : Relation.ReflTransGen Step g₀ g) (hg : g.WellFormed) {calculation : Calculation}
    (hv : ∀ x ∈ calculation.sources, g.Valid g.calculations.length x) :
    RunTo g₀ (g.addCalculation calculation).2 (g.addCalculation calculation).1 :=
  ⟨hrun.tail (.addCalculation g hv), hg.addCalculation hv⟩

private theorem RunTo.valid_mono {g₀ g g' : GraphEvaluator F} {s : ValueSource}
    (h : RunTo g₀ g s) (hx : g.Extends g') : g'.Valid g'.calculations.length s :=
  h.2.2.mono hx hx.calculations.length_le

private theorem runTo_evaluateLc {g g' : GraphEvaluator F} {es : List (Expression F)}
    {s : ValueSource} (hg : g.WellFormed) (h : Evaluator.evaluateLc g es = some (s, g')) :
    RunTo g g' s := by
  simp only [Evaluator.evaluateLc, Option.bind_eq_bind, Option.bind_eq_some] at h
  obtain ⟨⟨parts, g1⟩, h1, h⟩ := h
  obtain ⟨rfl, rfl⟩ := Prod.ext_iff.mp (Option.some.inj h).symm
  obtain ⟨hrun, hwf, hps⟩ := reachableFrom_addExpressions hg h1
  exact runTo_addCalculation hrun hwf (by
    simp only [Calculation.sources, List.mem_cons, forall_eq_or_imp]
    exact ⟨hwf.valid_constant (by decide) _, trivial, hps⟩)

theorem WellFormed.evaluateLc {g g' : GraphEvaluator F} {es : List (Expression F)}
    {s : ValueSource} (hg : g.WellFormed) (h : Evaluator.evaluateLc g es = some (s, g')) :
    g'.WellFormed ∧ g'.Valid g'.calculations.length s :=
  (runTo_evaluateLc hg h).2

theorem reachable_lookupGraph {lookup : Lookup.Argument F} {g : GraphEvaluator F}
    (h : Evaluator.lookupGraph lookup = some g) : g.Reachable := by
  simp only [Evaluator.lookupGraph, Option.bind_eq_bind, Option.bind_eq_some] at h
  obtain ⟨⟨s1, g1⟩, h1, ⟨s2, g2⟩, h2, h⟩ := h
  obtain rfl := Option.some.inj h
  have r1 := runTo_evaluateLc wellFormed_default h1
  have r2 := runTo_evaluateLc r1.2.1 h2
  have hv : ∀ {g : GraphEvaluator F} {c : Calculation} {a b : ValueSource}, c.sources = [a, b] →
      g.Valid g.calculations.length a → g.Valid g.calculations.length b →
        ∀ x ∈ c.sources, g.Valid g.calculations.length x := by
    intro g c a b hc ha hb
    simpa [hc] using ⟨ha, hb⟩
  have r3 := runTo_addCalculation (r1.1.trans r2.1) r2.2.1
    (hv (c := .add s2 .gamma) rfl r2.2.2 trivial)
  have r4 := runTo_addCalculation r3.1 r3.2.1 (hv (c := .add s1 .beta) rfl
    (r1.valid_mono ((reflTransGen_extends r2.1).trans (extends_addCalculation g2 _))) trivial)
  exact (runTo_addCalculation r4.1 r4.2.1
    (hv (c := .mul _ _) rfl r4.2.2 (r3.valid_mono (extends_addCalculation _ _)))).1

theorem reachable_evaluator_new {cs : ConstraintSystem F} {ev : Evaluator F}
    (h : Evaluator.new cs = some ev) :
    ev.customGates.Reachable ∧ ∀ g ∈ ev.lookups, g.Reachable := by
  simp only [Evaluator.new, Option.bind_eq_bind, Option.bind_eq_some] at h
  obtain ⟨⟨parts, g1⟩, h1, lookups, hl, h⟩ := h
  obtain rfl := Option.some.inj h
  obtain ⟨hrun, hwf, hps⟩ := reachableFrom_addExpressions wellFormed_default h1
  refine ⟨(runTo_addCalculation hrun hwf ?_).1, fun g hg => ?_⟩
  · simp only [Calculation.sources, List.mem_cons, forall_eq_or_imp]
    exact ⟨trivial, trivial, hps⟩
  · obtain ⟨hlen, hget⟩ := mapM_eq_some hl
    obtain ⟨i, hi, rfl⟩ := List.getElem_of_mem hg
    exact reachable_lookupGraph ((hget i (hlen ▸ hi)).trans (List.getElem?_eq_getElem hi))

/-- Over a field where `0`, `1` and `2` differ, every reachable graph is well formed with distinct
constants, every call only appends, and the graphs of `Evaluator::new` are reachable. -/
theorem reachable_graph_invariant (h012 : (0 : F) ≠ 1 ∧ (0 : F) ≠ 2 ∧ (1 : F) ≠ 2) :
    (∀ g : GraphEvaluator F, g.Reachable → g.WellFormed ∧ g.constants.Nodup) ∧
    (∀ g g' : GraphEvaluator F, Step g g' → g.Extends g') ∧
    ∀ (cs : ConstraintSystem F) (ev : Evaluator F), Evaluator.new cs = some ev →
      ev.customGates.Reachable ∧ ∀ g ∈ ev.lookups, g.Reachable :=
  ⟨fun _ hg => ⟨hg.wellFormed.1, hg.wellFormed.2 h012⟩, fun _ _ h => h.extends,
    fun _ _ h => reachable_evaluator_new h⟩

theorem reachable_graph_invariant_int :
    ((0 : ℤ) ≠ 1 ∧ (0 : ℤ) ≠ 2 ∧ (1 : ℤ) ≠ 2) ∧
    (∀ g : GraphEvaluator ℤ, g.Reachable → g.WellFormed ∧ g.constants.Nodup) ∧
    (∀ g g' : GraphEvaluator ℤ, Step g g' → g.Extends g') ∧
    ∀ (cs : ConstraintSystem ℤ) (ev : Evaluator ℤ), Evaluator.new cs = some ev →
      ev.customGates.Reachable ∧ ∀ g ∈ ev.lookups, g.Reachable :=
  ⟨by decide, reachable_graph_invariant (by decide)⟩

end GraphEvaluator

end PlonkEvaluation
