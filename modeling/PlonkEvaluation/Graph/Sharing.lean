import PlonkEvaluation.Graph.Build

/-! Structural sharing in `add_expression`.  Compiling an expression again, into the graph it
left or into any extension of that graph, finds every slot it used and appends nothing; a sum or
a product with its operands swapped finds the same slot, since operands are put in
`ValueSource` order before the calculation is stored. -/

namespace PlonkEvaluation

namespace GraphEvaluator

variable {F : Type}

private theorem some_self_of_some {x s : ValueSource} {g g1 g2 : GraphEvaluator F}
    (h : some (x, g) = some (s, g1)) : some (x, g2) = some (s, g2) := by
  cases h; rfl

private theorem some_addCalculation_of_some {g g1 g2 : GraphEvaluator F} {c : Calculation}
    {s : ValueSource} (h : some (g.addCalculation c) = some (s, g1)) (hx : g1.Extends g2) :
    some (g2.addCalculation c) = some (s, g2) := by
  obtain ⟨rfl, rfl⟩ := Prod.ext_iff.mp (Option.some.inj h).symm
  rw [addCalculation_of_extends hx]

variable [CommRing F] [DecidableEq F]

theorem addExpression_of_extends {g g1 g2 : GraphEvaluator F} {e : Expression F}
    {s : ValueSource} (h : g.addExpression e = some (s, g1)) (hx : g1.Extends g2) :
    g2.addExpression e = some (s, g2) := by
  induction g, e using addExpression.induct generalizing s g1 with
  | case1 g scalar | case7 g scalar =>
    obtain ⟨rfl, rfl⟩ := Prod.ext_iff.mp (Option.some.inj h).symm
    rw [addExpression, addConstant_of_extends hx]
  | case2 => cases h
  | case3 g c r rotIdx g' hr | case4 g c r rotIdx g' hr | case5 g c r rotIdx g' hr =>
    simp only [addExpression, hr] at h
    have hxr : (g.addRotation r).2.Extends g2 := by
      rw [hr]; exact (extends_of_some_addCalculation h).trans hx
    rw [addExpression, addRotation_of_extends hxr, hr]
    exact some_addCalculation_of_some h hx
  | case6 g i => exact some_addCalculation_of_some h hx
  | case8 g a hna iha =>
    rw [addExpression] at h ⊢
    · simp only [Option.bind_eq_bind, Option.bind_eq_some] at h
      obtain ⟨⟨ra, g'⟩, h1, h⟩ := h
      obtain ⟨rfl, rfl⟩ := Prod.ext_iff.mp (Option.some.inj h).symm
      simp only [iha h1 ((extends_emit g' _).trans hx), Option.bind_eq_bind, Option.some_bind,
        emit_of_extends hx]
    all_goals exact hna
  | case9 g a b iha ihb | case11 g a b iha ihb =>
    simp only [addExpression, Option.bind_eq_bind, Option.bind_eq_some] at h
    obtain ⟨⟨ra, ga⟩, h1, ⟨rb, gb⟩, h2, h⟩ := h
    obtain ⟨rfl, rfl⟩ := Prod.ext_iff.mp (Option.some.inj h).symm
    have hxb := (extends_emit gb _).trans hx
    simp only [addExpression, iha h1 ((extends_addExpression h2).trans hxb), ihb ga h2 hxb,
      Option.bind_eq_bind, Option.some_bind, emit_of_extends hx]
  | case10 g a b hb iha ihb =>
    rw [addExpression] at h ⊢
    · simp only [Option.bind_eq_bind, Option.bind_eq_some] at h
      obtain ⟨⟨ra, ga⟩, h1, ⟨rb, gb⟩, h2, h⟩ := h
      obtain ⟨rfl, rfl⟩ := Prod.ext_iff.mp (Option.some.inj h).symm
      have hxb := (extends_emit gb _).trans hx
      simp only [iha h1 ((extends_addExpression h2).trans hxb), ihb ga h2 hxb,
        Option.bind_eq_bind, Option.some_bind, emit_of_extends hx]
    all_goals exact hb
  | case12 g a =>
    simp only [addExpression, if_true] at h ⊢
    exact some_self_of_some h
  | case13 g a h10 iha =>
    simp only [addExpression, h10, if_false, if_true] at h ⊢
    exact iha h hx
  | case14 g a f hf0 hf1 cst g' hc iha =>
    simp only [addExpression, hf0, hf1, if_false, hc, Option.bind_eq_bind,
      Option.bind_eq_some] at h
    obtain ⟨⟨ra, ga⟩, h2, h⟩ := h
    have hxa := (extends_of_some_addCalculation h).trans hx
    have hxc : (g.addConstant f).2.Extends g2 := by
      rw [hc]; exact (extends_addExpression h2).trans hxa
    simp only [addExpression, hf0, hf1, if_false, addConstant_of_extends hxc, hc, iha h2 hxa,
      Option.bind_eq_bind, Option.some_bind]
    exact some_addCalculation_of_some h hx

theorem sumStep_comm (resultA resultB : ValueSource) :
    sumStep resultB resultA = sumStep resultA resultB := by
  unfold sumStep
  split_ifs <;> subst_vars <;>
    first
    | rfl
    | contradiction
    | rw [ValueSource.le_antisymm ‹resultB ≤ resultA› ‹resultA ≤ resultB›]
    | exact absurd (ValueSource.le_total resultA resultB) (by tauto)

theorem productStep_comm (resultA resultB : ValueSource) :
    productStep resultB resultA = productStep resultA resultB := by
  unfold productStep
  simp only [or_comm]
  split_ifs <;> subst_vars <;>
    first
    | rfl
    | contradiction
    | rw [ValueSource.le_antisymm ‹resultB ≤ resultA› ‹resultA ≤ resultB›]
    | exact absurd (ValueSource.le_total resultA resultB) (by tauto)

theorem addExpression_sum_comm {g : GraphEvaluator F} {a b : Expression F} {ra rb : ValueSource}
    (hna : ∀ x, a ≠ .negated x) (hnb : ∀ x, b ≠ .negated x)
    (ha : g.addExpression a = some (ra, g)) (hb : g.addExpression b = some (rb, g)) :
    g.addExpression (.sum b a) = g.addExpression (.sum a b) := by
  rw [addExpression, addExpression]
  · simp only [ha, hb, Option.bind_eq_bind, Option.some_bind, sumStep_comm]
  · exact hnb
  · exact hna

theorem addExpression_product_comm {g : GraphEvaluator F} {a b : Expression F}
    {ra rb : ValueSource} (ha : g.addExpression a = some (ra, g))
    (hb : g.addExpression b = some (rb, g)) :
    g.addExpression (.product b a) = g.addExpression (.product a b) := by
  simp only [addExpression, ha, hb, Option.bind_eq_bind, Option.some_bind, productStep_comm]

private theorem sum_operands {g g' : GraphEvaluator F} {a b : Expression F} {s : ValueSource}
    (hb : ∀ x, b ≠ .negated x) (h : g.addExpression (.sum a b) = some (s, g')) :
    ∃ ra ga rb gb, g.addExpression a = some (ra, ga) ∧ ga.addExpression b = some (rb, gb) ∧
      gb.Extends g' := by
  rw [addExpression] at h
  · simp only [Option.bind_eq_bind, Option.bind_eq_some] at h
    obtain ⟨⟨ra, ga⟩, h1, ⟨rb, gb⟩, h2, h⟩ := h
    obtain rfl := congrArg Prod.snd (Option.some.inj h)
    exact ⟨ra, ga, rb, gb, h1, h2, extends_emit gb _⟩
  · exact hb

private theorem product_operands {g g' : GraphEvaluator F} {a b : Expression F} {s : ValueSource}
    (h : g.addExpression (.product a b) = some (s, g')) :
    ∃ ra ga rb gb, g.addExpression a = some (ra, ga) ∧ ga.addExpression b = some (rb, gb) ∧
      gb.Extends g' := by
  simp only [addExpression, Option.bind_eq_bind, Option.bind_eq_some] at h
  obtain ⟨⟨ra, ga⟩, h1, ⟨rb, gb⟩, h2, h⟩ := h
  obtain rfl := congrArg Prod.snd (Option.some.inj h)
  exact ⟨ra, ga, rb, gb, h1, h2, extends_emit gb _⟩

/-- A repeated subexpression, or a sum or product repeated with its operands swapped, is
compiled into the slot it already has, in the graph it left or in any extension of it. -/
theorem addExpression_reuses_slots :
    (∀ {g g1 g2 : GraphEvaluator F} {e : Expression F} {s : ValueSource},
      g.addExpression e = some (s, g1) → g1.Extends g2 → g2.addExpression e = some (s, g2)) ∧
    (∀ {g g1 g2 : GraphEvaluator F} {a b : Expression F} {s : ValueSource},
      (∀ x, a ≠ .negated x) → (∀ x, b ≠ .negated x) →
      g.addExpression (.sum a b) = some (s, g1) → g1.Extends g2 →
        g2.addExpression (.sum b a) = some (s, g2)) ∧
    (∀ {g g1 g2 : GraphEvaluator F} {a b : Expression F} {s : ValueSource},
      g.addExpression (.product a b) = some (s, g1) → g1.Extends g2 →
        g2.addExpression (.product b a) = some (s, g2)) := by
  refine ⟨addExpression_of_extends, fun hna hnb h hx => ?_, fun h hx => ?_⟩
  · obtain ⟨ra, ga, rb, gb, h1, h2, hxb⟩ := sum_operands hnb h
    rw [addExpression_sum_comm hna hnb
      (addExpression_of_extends h1 ((extends_addExpression h2).trans (hxb.trans hx)))
      (addExpression_of_extends h2 (hxb.trans hx))]
    exact addExpression_of_extends h hx
  · obtain ⟨ra, ga, rb, gb, h1, h2, hxb⟩ := product_operands h
    rw [addExpression_product_comm
      (addExpression_of_extends h1 ((extends_addExpression h2).trans (hxb.trans hx)))
      (addExpression_of_extends h2 (hxb.trans hx))]
    exact addExpression_of_extends h hx

theorem addExpression_reuses_slots_challenges :
    (GraphEvaluator.default : GraphEvaluator ℤ).addExpression (.sum (.challenge 0) (.challenge 1)) =
      some (.intermediate 2, ⟨[0, 1, 2], [], [⟨.store (.challenge 0), 0⟩,
        ⟨.store (.challenge 1), 1⟩, ⟨.add (.intermediate 0) (.intermediate 1), 2⟩], 3⟩) ∧
    (⟨[0, 1, 2], [], [⟨.store (.challenge 0), 0⟩, ⟨.store (.challenge 1), 1⟩,
      ⟨.add (.intermediate 0) (.intermediate 1), 2⟩], 3⟩ : GraphEvaluator ℤ).addExpression
        (.sum (.challenge 1) (.challenge 0)) =
      some (.intermediate 2, ⟨[0, 1, 2], [], [⟨.store (.challenge 0), 0⟩,
        ⟨.store (.challenge 1), 1⟩, ⟨.add (.intermediate 0) (.intermediate 1), 2⟩], 3⟩) ∧
    (GraphEvaluator.default : GraphEvaluator ℤ).addExpression
        (.product (.challenge 0) (.challenge 1)) =
      some (.intermediate 2, ⟨[0, 1, 2], [], [⟨.store (.challenge 0), 0⟩,
        ⟨.store (.challenge 1), 1⟩, ⟨.mul (.intermediate 0) (.intermediate 1), 2⟩], 3⟩) ∧
    (⟨[0, 1, 2], [], [⟨.store (.challenge 0), 0⟩, ⟨.store (.challenge 1), 1⟩,
      ⟨.mul (.intermediate 0) (.intermediate 1), 2⟩], 3⟩ : GraphEvaluator ℤ).addExpression
        (.product (.challenge 1) (.challenge 0)) =
      some (.intermediate 2, ⟨[0, 1, 2], [], [⟨.store (.challenge 0), 0⟩,
        ⟨.store (.challenge 1), 1⟩, ⟨.mul (.intermediate 0) (.intermediate 1), 2⟩], 3⟩) ∧
    (⟨[0, 1, 2], [], [⟨.store (.challenge 0), 0⟩, ⟨.store (.challenge 1), 1⟩,
      ⟨.mul (.intermediate 0) (.intermediate 1), 2⟩], 3⟩ : GraphEvaluator ℤ).addExpression
        (.product (.challenge 0) (.challenge 1)) =
      some (.intermediate 2, ⟨[0, 1, 2], [], [⟨.store (.challenge 0), 0⟩,
        ⟨.store (.challenge 1), 1⟩, ⟨.mul (.intermediate 0) (.intermediate 1), 2⟩], 3⟩) :=
  have hs : (GraphEvaluator.default : GraphEvaluator ℤ).addExpression
      (.sum (.challenge 0) (.challenge 1)) = some (.intermediate 2, ⟨[0, 1, 2], [],
        [⟨.store (.challenge 0), 0⟩, ⟨.store (.challenge 1), 1⟩,
          ⟨.add (.intermediate 0) (.intermediate 1), 2⟩], 3⟩) := rfl
  have hp : (GraphEvaluator.default : GraphEvaluator ℤ).addExpression
      (.product (.challenge 0) (.challenge 1)) = some (.intermediate 2, ⟨[0, 1, 2], [],
        [⟨.store (.challenge 0), 0⟩, ⟨.store (.challenge 1), 1⟩,
          ⟨.mul (.intermediate 0) (.intermediate 1), 2⟩], 3⟩) := rfl
  ⟨hs, addExpression_reuses_slots.2.1 (fun _ h => by cases h) (fun _ h => by cases h) hs
    (Extends.refl _), hp, addExpression_reuses_slots.2.2 hp (Extends.refl _),
    addExpression_reuses_slots.1 hp (Extends.refl _)⟩

end GraphEvaluator

end PlonkEvaluation
