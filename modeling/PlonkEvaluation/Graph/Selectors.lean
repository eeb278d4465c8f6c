import PlonkEvaluation.Graph.Build

/-! When `add_expression`, and with it `Evaluator::new`, panics: on a selector, except under
`Scaled(_, 0)`, which becomes the constant `0` before its operand is looked at. -/

namespace PlonkEvaluation

variable {F : Type} [CommRing F] [DecidableEq F]

/-- A selector that `add_expression` compiles: one not under a scaling by zero. -/
def Expression.reachesSelector : Expression F → Bool
  | .selector _ => true
  | .negated a => a.reachesSelector
  | .sum a b | .product a b => a.reachesSelector || b.reachesSelector
  | .scaled a f => f ≠ 0 && a.reachesSelector
  | _ => false

namespace GraphEvaluator

theorem addExpression_isSome (g : GraphEvaluator F) (e : Expression F) :
    (g.addExpression e).isSome = !e.reachesSelector := by
  induction g, e using addExpression.induct with
  | case1 | case3 | case4 | case5 | case6 | case7 =>
    simp [addExpression, Expression.reachesSelector]
  | case2 => rfl
  | case8 g a ha iha =>
    rw [addExpression]
    · cases h : g.addExpression a <;> simp_all [Expression.reachesSelector]
    · exact ha
  | case9 g a bInt iha ihb | case11 g a bInt iha ihb =>
    simp only [addExpression, Option.bind_eq_bind]
    cases h : g.addExpression a with
    | none => simp_all [Expression.reachesSelector]
    | some p => cases h' : p.2.addExpression bInt <;> simp_all [← ihb p.2, Expression.reachesSelector]
  | case10 g a b hb iha ihb =>
    rw [addExpression]
    · cases h : g.addExpression a with
      | none => simp_all [Expression.reachesSelector]
      | some p => cases h' : p.2.addExpression b <;> simp_all [← ihb p.2, Expression.reachesSelector]
    · exact hb
  | case12 => simp [addExpression, Expression.reachesSelector]
  | case13 g a h10 iha => simp [addExpression, h10, iha, Expression.reachesSelector]
  | case14 g a f hf0 hf1 cst g1 hc iha =>
    simp only [addExpression, hf0, hf1, if_false, hc, Option.bind_eq_bind]
    cases h : g1.addExpression a <;> simp_all [Expression.reachesSelector]

theorem addExpressions_isSome :
    ∀ (g : GraphEvaluator F) (es : List (Expression F)),
      (g.addExpressions es).isSome ↔ ∀ e ∈ es, e.reachesSelector = false
  | _, [] => by simp [addExpressions]
  | g, e :: es => by
    have he := addExpression_isSome g e
    simp only [addExpressions, Option.bind_eq_bind, List.forall_mem_cons]
    cases h : g.addExpression e with
    | none => simp_all
    | some p =>
      rw [h, Option.isSome_some, eq_comm, Bool.not_eq_true'] at he
      rw [Option.some_bind, ← addExpressions_isSome p.2 es, he]
      cases p.2.addExpressions es <;> simp

end GraphEvaluator

namespace Evaluator

theorem evaluateLc_isSome (g : GraphEvaluator F) (es : List (Expression F)) :
    (evaluateLc g es).isSome ↔ ∀ e ∈ es, e.reachesSelector = false := by
  rw [← GraphEvaluator.addExpressions_isSome g es, evaluateLc]
  cases g.addExpressions es <;> simp

theorem lookupGraph_isSome (lookup : Lookup.Argument F) :
    (lookupGraph lookup).isSome ↔ ∀ e ∈ lookup.inputExpressions ++ lookup.tableExpressions,
      e.reachesSelector = false := by
  rw [List.forall_mem_append, ← evaluateLc_isSome GraphEvaluator.default]
  simp only [lookupGraph, Option.bind_eq_bind]
  cases evaluateLc GraphEvaluator.default lookup.inputExpressions with
  | none => simp
  | some p =>
    rw [Option.some_bind, ← evaluateLc_isSome p.2]
    cases evaluateLc p.2 lookup.tableExpressions <;> simp

/-- `Evaluator::new` returns an evaluator exactly when no gate polynomial and no lookup expression
reaches a selector. -/
theorem new_isSome_iff (cs : ConstraintSystem F) :
    (new cs).isSome ↔
      (∀ p ∈ cs.gates.flatMap (·.polynomials), p.reachesSelector = false) ∧
      ∀ l ∈ cs.lookups, ∀ e ∈ l.inputExpressions ++ l.tableExpressions,
        e.reachesSelector = false := by
  have hl := mapM_isSome_iff lookupGraph cs.lookups
  simp only [lookupGraph_isSome] at hl
  rw [← GraphEvaluator.addExpressions_isSome GraphEvaluator.default, ← hl]
  simp only [new, Option.bind_eq_bind]
  cases GraphEvaluator.default.addExpressions (cs.gates.flatMap (·.polynomials)) <;>
    cases cs.lookups.mapM lookupGraph <;> simp

example : (new (⟨[⟨[.scaled (.selector 0) 0]⟩], [], ⟨[]⟩, 3, 0⟩ : ConstraintSystem ℤ)).isSome := rfl

example : (new (⟨[⟨[.scaled (.selector 0) 3]⟩], [], ⟨[]⟩, 3, 0⟩ : ConstraintSystem ℤ)).isSome =
    false := rfl

end Evaluator

end PlonkEvaluation
