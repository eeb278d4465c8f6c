import PlonkEvaluation.Syntax

/-! Compiling expressions into the straight-line program of a `GraphEvaluator`.  Every
`add_*` call returns the source of its value and the graph it leaves; `add_expression` is
partial because a selector is `unreachable!()`. -/

namespace PlonkEvaluation

structure GraphEvaluator (F : Type) where
  constants : List F
  rotations : List Int
  calculations : List CalculationInfo
  numIntermediates : Nat

variable {F : Type}

namespace GraphEvaluator

/-- `g'` keeps every constant, rotation and calculation of `g` at its index. -/
structure Extends (g g' : GraphEvaluator F) : Prop where
  constants : g.constants <+: g'.constants
  rotations : g.rotations <+: g'.rotations
  calculations : g.calculations <+: g'.calculations

@[refl] theorem Extends.refl (g : GraphEvaluator F) : g.Extends g :=
  ⟨List.prefix_refl _, List.prefix_refl _, List.prefix_refl _⟩

theorem Extends.trans {g g' g'' : GraphEvaluator F} (h : g.Extends g') (h' : g'.Extends g'') :
    g.Extends g'' :=
  ⟨h.1.trans h'.1, h.2.trans h'.2, h.3.trans h'.3⟩

def addRotation (self : GraphEvaluator F) (rotation : Int) : Nat × GraphEvaluator F :=
  match self.rotations.findIdx? (· == rotation) with
  | some pos => (pos, self)
  | none => (self.rotations.length, { self with rotations := self.rotations ++ [rotation] })

/-- Adds a calculation, reusing the slot of an equal one. -/
def addCalculation (self : GraphEvaluator F) (calculation : Calculation) :
    ValueSource × GraphEvaluator F :=
  match self.calculations.find? (·.calculation == calculation) with
  | some existingCalculation => (.intermediate existingCalculation.target, self)
  | none =>
    (.intermediate self.numIntermediates,
      { self with
        calculations := self.calculations ++ [⟨calculation, self.numIntermediates⟩]
        numIntermediates := self.numIntermediates + 1 })

theorem addRotation_spec (g : GraphEvaluator F) (rotation : Int) :
    (g.addRotation rotation).2.rotations.findIdx? (· == rotation) =
      some (g.addRotation rotation).1 ∧
    ((g.addRotation rotation).2 = g ∨ rotation ∉ g.rotations ∧
      (g.addRotation rotation).2 = { g with rotations := g.rotations ++ [rotation] }) := by
  unfold addRotation
  split
  · rename_i pos h
    exact ⟨h, .inl rfl⟩
  · rename_i h
    refine ⟨by simp [List.findIdx?_append, h], .inr ⟨fun hm => ?_, rfl⟩⟩
    simpa using List.findIdx?_eq_none_iff.mp h _ hm

theorem addCalculation_spec (g : GraphEvaluator F) (calculation : Calculation) :
    ∃ info, (g.addCalculation calculation).1 = .intermediate info.target ∧
      info.calculation = calculation ∧
      (g.addCalculation calculation).2.calculations.find? (·.calculation == calculation) =
        some info ∧
      ((g.addCalculation calculation).2 = g ∨
        (∀ c ∈ g.calculations, c.calculation ≠ calculation) ∧ info.target = g.numIntermediates ∧
        (g.addCalculation calculation).2 = { g with
          calculations := g.calculations ++ [info]
          numIntermediates := g.numIntermediates + 1 }) := by
  unfold addCalculation
  split
  · rename_i info h
    exact ⟨info, rfl, by simpa using List.find?_some h, h, .inl rfl⟩
  · rename_i h
    refine ⟨⟨calculation, g.numIntermediates⟩, rfl, rfl, by simp [h], .inr ⟨fun c hc => ?_, rfl, rfl⟩⟩
    simpa using List.find?_eq_none.mp h c hc

theorem addCalculation_append {g : GraphEvaluator F} {calculation : Calculation}
    (h : ∀ c ∈ g.calculations, c.calculation ≠ calculation) :
    (g.addCalculation calculation).1 = .intermediate g.numIntermediates ∧
      (g.addCalculation calculation).2.calculations =
        g.calculations ++ [⟨calculation, g.numIntermediates⟩] ∧
      (g.addCalculation calculation).2.numIntermediates = g.numIntermediates + 1 := by
  rw [addCalculation, List.find?_eq_none.mpr fun c hc => by simpa using h c hc]
  exact ⟨rfl, rfl, rfl⟩

theorem extends_addRotation (g : GraphEvaluator F) (rotation : Int) :
    g.Extends (g.addRotation rotation).2 := by
  rcases (addRotation_spec g rotation).2 with h | ⟨-, h⟩ <;> rw [h]
  exact ⟨List.prefix_refl _, List.prefix_append _ _, List.prefix_refl _⟩

theorem extends_addCalculation (g : GraphEvaluator F) (calculation : Calculation) :
    g.Extends (g.addCalculation calculation).2 := by
  obtain ⟨_, -, -, -, h | ⟨-, -, h⟩⟩ := addCalculation_spec g calculation <;> rw [h]
  exact ⟨List.prefix_refl _, List.prefix_refl _, List.prefix_append _ _⟩

theorem addRotation_of_extends {g g' : GraphEvaluator F} {rotation : Int}
    (h : (g.addRotation rotation).2.Extends g') :
    g'.addRotation rotation = ((g.addRotation rotation).1, g') := by
  rw [addRotation, h.rotations.findIdx?_eq_some (addRotation_spec g rotation).1]

theorem addCalculation_of_extends {g g' : GraphEvaluator F} {calculation : Calculation}
    (h : (g.addCalculation calculation).2.Extends g') :
    g'.addCalculation calculation = ((g.addCalculation calculation).1, g') := by
  obtain ⟨info, hinfo, -, hfind, -⟩ := addCalculation_spec g calculation
  obtain ⟨t, ht⟩ := h.calculations
  rw [addCalculation, ← ht, List.find?_append, hfind, Option.or_some, hinfo]

@[simp] theorem addRotation_constants (g : GraphEvaluator F) (rotation : Int) :
    (g.addRotation rotation).2.constants = g.constants := by
  unfold addRotation; split <;> rfl

@[simp] theorem addCalculation_constants (g : GraphEvaluator F) (calculation : Calculation) :
    (g.addCalculation calculation).2.constants = g.constants := by
  unfold addCalculation; split <;> rfl

@[simp] theorem addRotation_calculations (g : GraphEvaluator F) (rotation : Int) :
    (g.addRotation rotation).2.calculations = g.calculations := by
  unfold addRotation; split <;> rfl

theorem extends_of_some_self {g g' : GraphEvaluator F} {x s : ValueSource}
    (h : some (x, g) = some (s, g')) : g.Extends g' := by
  cases h; rfl

theorem extends_of_some_addCalculation {g g' : GraphEvaluator F} {c : Calculation}
    {s : ValueSource} (h : some (g.addCalculation c) = some (s, g')) : g.Extends g' := by
  obtain rfl := congrArg Prod.snd (Option.some.inj h)
  exact extends_addCalculation g c

/-! The arms for `Negated`, `Sum` and `Product` end by returning a source (`inl`) or adding one
calculation (`inr`), chosen from the operands' sources alone. -/

def emit (self : GraphEvaluator F) : ValueSource ⊕ Calculation → ValueSource × GraphEvaluator F
  | .inl source => (source, self)
  | .inr calculation => self.addCalculation calculation

def negatedStep (resultA : ValueSource) : ValueSource ⊕ Calculation :=
  if resultA = .constant 0 then .inl resultA else .inr (.negate resultA)

/-- The end of the `Sum` arm on `a + (-b)`: undo subtraction stored as `a + (-b)`. -/
def subStep (resultA resultB : ValueSource) : ValueSource ⊕ Calculation :=
  if resultA = .constant 0 then .inr (.negate resultB)
  else if resultB = .constant 0 then .inl resultA
  else .inr (.sub resultA resultB)

def sumStep (resultA resultB : ValueSource) : ValueSource ⊕ Calculation :=
  if resultA = .constant 0 then .inl resultB
  else if resultB = .constant 0 then .inl resultA
  else if resultA ≤ resultB then .inr (.add resultA resultB)
  else .inr (.add resultB resultA)

def productStep (resultA resultB : ValueSource) : ValueSource ⊕ Calculation :=
  if resultA = .constant 0 ∨ resultB = .constant 0 then .inl (.constant 0)
  else if resultA = .constant 1 then .inl resultB
  else if resultB = .constant 1 then .inl resultA
  else if resultA = .constant 2 then .inr (.double resultB)
  else if resultB = .constant 2 then .inr (.double resultA)
  else if resultA = resultB then .inr (.square resultA)
  else if resultA ≤ resultB then .inr (.mul resultA resultB)
  else .inr (.mul resultB resultA)

def emitSources : ValueSource ⊕ Calculation → List ValueSource
  | .inl source => [source]
  | .inr calculation => calculation.sources

theorem negatedStep_sources {resultA x : ValueSource}
    (hx : x ∈ emitSources (negatedStep resultA)) : x = resultA := by
  unfold negatedStep at hx
  split_ifs at hx <;> simpa [emitSources, Calculation.sources] using hx

theorem subStep_sources {resultA resultB x : ValueSource}
    (hx : x ∈ emitSources (subStep resultA resultB)) :
    x = resultA ∨ x = resultB ∨ x = .constant 0 := by
  unfold subStep at hx
  split_ifs at hx <;>
    simp only [emitSources, Calculation.sources, List.mem_cons, List.mem_singleton,
      List.not_mem_nil, or_false] at hx <;>
    rcases hx with rfl | rfl <;> simp_all

theorem sumStep_sources {resultA resultB x : ValueSource}
    (hx : x ∈ emitSources (sumStep resultA resultB)) :
    x = resultA ∨ x = resultB ∨ x = .constant 0 := by
  unfold sumStep at hx
  split_ifs at hx <;>
    simp only [emitSources, Calculation.sources, List.mem_cons, List.mem_singleton,
      List.not_mem_nil, or_false] at hx <;>
    rcases hx with rfl | rfl <;> simp_all

theorem productStep_sources {resultA resultB x : ValueSource}
    (hx : x ∈ emitSources (productStep resultA resultB)) :
    x = resultA ∨ x = resultB ∨ x = .constant 0 := by
  unfold productStep at hx
  split_ifs at hx <;>
    simp only [emitSources, Calculation.sources, List.mem_cons, List.mem_singleton,
      List.not_mem_nil, or_false] at hx <;>
    rcases hx with rfl | rfl <;> simp_all

theorem extends_emit (g : GraphEvaluator F) (r : ValueSource ⊕ Calculation) :
    g.Extends (g.emit r).2 := by
  cases r with
  | inl source => rfl
  | inr calculation => exact extends_addCalculation g calculation

theorem emit_of_extends {g g' : GraphEvaluator F} {r : ValueSource ⊕ Calculation}
    (h : (g.emit r).2.Extends g') : g'.emit r = ((g.emit r).1, g') := by
  cases r with
  | inl source => rfl
  | inr calculation => exact addCalculation_of_extends h

@[simp] theorem emit_constants (g : GraphEvaluator F) (r : ValueSource ⊕ Calculation) :
    (g.emit r).2.constants = g.constants := by
  cases r <;> simp [emit]

variable [DecidableEq F]

def addConstant (self : GraphEvaluator F) (constant : F) : ValueSource × GraphEvaluator F :=
  match self.constants.findIdx? (· == constant) with
  | some pos => (.constant pos, self)
  | none =>
    (.constant self.constants.length, { self with constants := self.constants ++ [constant] })

theorem addConstant_spec (g : GraphEvaluator F) (constant : F) :
    ∃ pos, (g.addConstant constant).1 = .constant pos ∧
      (g.addConstant constant).2.constants.findIdx? (· == constant) = some pos ∧
      ((g.addConstant constant).2 = g ∨ constant ∉ g.constants ∧
        (g.addConstant constant).2 = { g with constants := g.constants ++ [constant] }) := by
  unfold addConstant
  split
  · rename_i pos h
    exact ⟨pos, rfl, h, .inl rfl⟩
  · rename_i h
    refine ⟨_, rfl, by simp [List.findIdx?_append, h], .inr ⟨fun hm => ?_, rfl⟩⟩
    simpa using List.findIdx?_eq_none_iff.mp h _ hm

theorem extends_addConstant (g : GraphEvaluator F) (constant : F) :
    g.Extends (g.addConstant constant).2 := by
  obtain ⟨_, -, -, h | ⟨-, h⟩⟩ := addConstant_spec g constant <;> rw [h]
  exact ⟨List.prefix_append _ _, List.prefix_refl _, List.prefix_refl _⟩

@[simp] theorem addConstant_calculations (g : GraphEvaluator F) (constant : F) :
    (g.addConstant constant).2.calculations = g.calculations := by
  unfold addConstant; split <;> rfl

theorem addConstant_of_extends {g g' : GraphEvaluator F} {constant : F}
    (h : (g.addConstant constant).2.Extends g') :
    g'.addConstant constant = ((g.addConstant constant).1, g') := by
  obtain ⟨pos, hpos, hfind, -⟩ := addConstant_spec g constant
  rw [addConstant, h.constants.findIdx?_eq_some hfind, hpos]

variable [CommRing F]

/-- Fixed positions to allow easy access: `0`, `1` and `2` come first. -/
protected def default : GraphEvaluator F :=
  { constants := [0, 1, 2], rotations := [], calculations := [], numIntermediates := 0 }

/-- Generates an optimized evaluation for the expression. -/
def addExpression (self : GraphEvaluator F) : Expression F → Option (ValueSource × GraphEvaluator F)
  | .constant scalar => some (self.addConstant scalar)
  | .selector _ => none
  | .fixed columnIndex rotation =>
    let (rotIdx, g) := self.addRotation rotation
    some (g.addCalculation (.store (.fixed columnIndex rotIdx)))
  | .advice columnIndex rotation =>
    let (rotIdx, g) := self.addRotation rotation
    some (g.addCalculation (.store (.advice columnIndex rotIdx)))
  | .«instance» columnIndex rotation =>
    let (rotIdx, g) := self.addRotation rotation
    some (g.addCalculation (.store (.«instance» columnIndex rotIdx)))
  | .challenge index => some (self.addCalculation (.store (.challenge index)))
  | .negated (.constant scalar) => some (self.addConstant (-scalar))
  | .negated a => do
    let (resultA, g) ← self.addExpression a
    some (g.emit (negatedStep resultA))
  -- Undo subtraction stored as `a + (-b)` in expressions
  | .sum a (.negated bInt) => do
    let (resultA, g) ← self.addExpression a
    let (resultB, g) ← g.addExpression bInt
    some (g.emit (subStep resultA resultB))
  | .sum a b => do
    let (resultA, g) ← self.addExpression a
    let (resultB, g) ← g.addExpression b
    some (g.emit (sumStep resultA resultB))
  | .product a b => do
    let (resultA, g) ← self.addExpression a
    let (resultB, g) ← g.addExpression b
    some (g.emit (productStep resultA resultB))
  | .scaled a f =>
    if f = 0 then some (.constant 0, self)
    else if f = 1 then self.addExpression a
    else
      let (cst, g) := self.addConstant f
      do
        let (resultA, g) ← g.addExpression a
        some (g.addCalculation (.mul resultA cst))

theorem extends_addExpression {g g' : GraphEvaluator F} {e : Expression F} {s : ValueSource}
    (h : g.addExpression e = some (s, g')) : g.Extends g' := by
  induction g, e using addExpression.induct generalizing s g' with
  | case1 g scalar | case7 g scalar =>
    obtain rfl := congrArg Prod.snd (Option.some.inj h)
    exact extends_addConstant g _
  | case2 => cases h
  | case3 g c r rotIdx g1 hr | case4 g c r rotIdx g1 hr | case5 g c r rotIdx g1 hr =>
    simp only [addExpression, hr] at h
    exact (hr ▸ extends_addRotation g r).trans (extends_of_some_addCalculation h)
  | case6 g i => exact extends_of_some_addCalculation h
  | case8 g a ha iha =>
    rw [addExpression] at h
    · simp only [Option.bind_eq_bind, Option.bind_eq_some] at h
      obtain ⟨⟨ra, g1⟩, h1, h⟩ := h
      obtain rfl := congrArg Prod.snd (Option.some.inj h)
      exact (iha h1).trans (extends_emit g1 _)
    · exact ha
  | case9 g a b iha ihb | case11 g a b iha ihb =>
    simp only [addExpression, Option.bind_eq_bind, Option.bind_eq_some] at h
    obtain ⟨⟨ra, g1⟩, h1, ⟨rb, g2⟩, h2, h⟩ := h
    obtain rfl := congrArg Prod.snd (Option.some.inj h)
    exact (iha h1).trans ((ihb g1 h2).trans (extends_emit g2 _))
  | case10 g a b hb iha ihb =>
    rw [addExpression] at h
    · simp only [Option.bind_eq_bind, Option.bind_eq_some] at h
      obtain ⟨⟨ra, g1⟩, h1, ⟨rb, g2⟩, h2, h⟩ := h
      obtain rfl := congrArg Prod.snd (Option.some.inj h)
      exact (iha h1).trans ((ihb g1 h2).trans (extends_emit g2 _))
    · exact hb
  | case12 g a =>
    simp only [addExpression, if_true] at h
    exact extends_of_some_self h
  | case13 g a h10 iha =>
    simp only [addExpression, h10, if_false, if_true] at h
    exact iha h
  | case14 g a f hf0 hf1 cst g1 hc iha =>
    simp only [addExpression, hf0, hf1, if_false, hc, Option.bind_eq_bind,
      Option.bind_eq_some] at h
    obtain ⟨⟨ra, g2⟩, h2, h⟩ := h
    exact (hc ▸ extends_addConstant g f).trans ((iha h2).trans (extends_of_some_addCalculation h))

/-- Compiles the expressions in order, threading the graph: `iter().map(add_expression)`. -/
def addExpressions (g : GraphEvaluator F) :
    List (Expression F) → Option (List ValueSource × GraphEvaluator F)
  | [] => some ([], g)
  | e :: es => do
    let (s, g) ← g.addExpression e
    let (parts, g) ← g.addExpressions es
    some (s :: parts, g)

theorem extends_addExpressions {g g' : GraphEvaluator F} {es : List (Expression F)}
    {parts : List ValueSource} (h : g.addExpressions es = some (parts, g')) : g.Extends g' := by
  induction es generalizing g parts with
  | nil =>
    obtain ⟨-, rfl⟩ := Prod.mk.inj (Option.some.inj h)
    rfl
  | cons e es ih =>
    simp only [addExpressions, Option.bind_eq_bind, Option.bind_eq_some] at h
    obtain ⟨⟨s, g1⟩, h1, ⟨ps, g2⟩, h2, h⟩ := h
    obtain ⟨-, rfl⟩ := Prod.mk.inj (Option.some.inj h)
    exact (extends_addExpression h1).trans (ih h2)

end GraphEvaluator

/-- Evaluator: one graph for all custom gates and one graph per lookup argument. -/
structure Evaluator (F : Type) where
  customGates : GraphEvaluator F
  lookups : List (GraphEvaluator F)

namespace Evaluator

variable [CommRing F] [DecidableEq F]

/-- The `evaluate_lc` closure of `Evaluator::new`. -/
def evaluateLc (graph : GraphEvaluator F) (expressions : List (Expression F)) :
    Option (ValueSource × GraphEvaluator F) := do
  let (parts, graph) ← graph.addExpressions expressions
  some (graph.addCalculation (.horner (.constant 0) parts .theta))

theorem extends_evaluateLc {g g' : GraphEvaluator F} {expressions : List (Expression F)}
    {s : ValueSource} (h : evaluateLc g expressions = some (s, g')) : g.Extends g' := by
  simp only [evaluateLc, Option.bind_eq_bind, Option.bind_eq_some] at h
  obtain ⟨⟨parts, g1⟩, h1, h⟩ := h
  exact (GraphEvaluator.extends_addExpressions h1).trans
    (GraphEvaluator.extends_of_some_addCalculation h)

def lookupGraph (lookup : Lookup.Argument F) : Option (GraphEvaluator F) := do
  -- Input coset
  let (compressedInputCoset, graph) ← evaluateLc GraphEvaluator.default lookup.inputExpressions
  -- table coset
  let (compressedTableCoset, graph) ← evaluateLc graph lookup.tableExpressions
  -- z(\omega X) (a'(X) + \beta) (s'(X) + \gamma)
  let (rightGamma, graph) := graph.addCalculation (.add compressedTableCoset .gamma)
  let (lc, graph) := graph.addCalculation (.add compressedInputCoset .beta)
  some (graph.addCalculation (.mul lc rightGamma)).2

/-- Creates a new evaluation structure. -/
def new (cs : ConstraintSystem F) : Option (Evaluator F) := do
  -- Custom gates
  let (parts, customGates) ←
    GraphEvaluator.default.addExpressions (cs.gates.flatMap (·.polynomials))
  let customGates := (customGates.addCalculation (.horner .previousValue parts .y)).2
  -- Lookups
  let lookups ← cs.lookups.mapM lookupGraph
  some ⟨customGates, lookups⟩

theorem new_lookups {cs : ConstraintSystem F} {ev : Evaluator F} (h : new cs = some ev) :
    cs.lookups.mapM lookupGraph = some ev.lookups := by
  simp only [new, Option.bind_eq_bind, Option.bind_eq_some] at h
  obtain ⟨_, -, lookups, hl, h⟩ := h
  rw [hl, ← Option.some.inj h]

end Evaluator

end PlonkEvaluation
