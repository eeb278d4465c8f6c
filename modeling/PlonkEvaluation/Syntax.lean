import Mathlib.Algebra.Ring.Defs
import PlonkEvaluation.Rotation

/-! The value sources, calculations and expressions of the quotient evaluator, with the
reference evaluator that reads an expression directly. -/

namespace PlonkEvaluation

inductive ValueSource
  | constant (idx : Nat)
  | intermediate (idx : Nat)
  | fixed (columnIndex rotation : Nat)
  | advice (columnIndex rotation : Nat)
  | «instance» (columnIndex rotation : Nat)
  | challenge (index : Nat)
  | beta
  | gamma
  | theta
  | y
  | previousValue
  deriving DecidableEq, Repr

/-- The derived `PartialOrd` compares the variant first, in declaration order, then the
fields from left to right; a missing field is padded with `0`. -/
def ValueSource.key : ValueSource → Nat × Nat × Nat
  | .constant i => (0, i, 0)
  | .intermediate i => (1, i, 0)
  | .fixed c r => (2, c, r)
  | .advice c r => (3, c, r)
  | .«instance» c r => (4, c, r)
  | .challenge i => (5, i, 0)
  | .beta => (6, 0, 0)
  | .gamma => (7, 0, 0)
  | .theta => (8, 0, 0)
  | .y => (9, 0, 0)
  | .previousValue => (10, 0, 0)

def ValueSource.ofKey : Nat × Nat × Nat → ValueSource
  | (0, i, _) => .constant i
  | (1, i, _) => .intermediate i
  | (2, c, r) => .fixed c r
  | (3, c, r) => .advice c r
  | (4, c, r) => .«instance» c r
  | (5, i, _) => .challenge i
  | (6, _, _) => .beta
  | (7, _, _) => .gamma
  | (8, _, _) => .theta
  | (9, _, _) => .y
  | _ => .previousValue

theorem ValueSource.ofKey_key (s : ValueSource) : ofKey s.key = s := by
  cases s <;> rfl

def ValueSource.le (a b : ValueSource) : Prop :=
  a.key.1 < b.key.1 ∨ a.key.1 = b.key.1 ∧
    (a.key.2.1 < b.key.2.1 ∨ a.key.2.1 = b.key.2.1 ∧ a.key.2.2 ≤ b.key.2.2)

instance : LE ValueSource := ⟨ValueSource.le⟩

instance : DecidableRel (α := ValueSource) (· ≤ ·) :=
  fun _ _ => inferInstanceAs (Decidable (_ ∨ _))

theorem ValueSource.le_total (a b : ValueSource) : a ≤ b ∨ b ≤ a := by
  show a.le b ∨ b.le a
  unfold le
  omega

theorem ValueSource.le_antisymm {a b : ValueSource} (hab : a ≤ b) (hba : b ≤ a) : a = b := by
  change a.le b at hab
  change b.le a at hba
  unfold le at hab hba
  have hkey : a.key = b.key := Prod.ext (by omega) (Prod.ext (by omega) (by omega))
  rw [← ofKey_key a, hkey, ofKey_key]

inductive Calculation
  | add (a b : ValueSource)
  | sub (a b : ValueSource)
  | mul (a b : ValueSource)
  | square (v : ValueSource)
  | double (v : ValueSource)
  | negate (v : ValueSource)
  /-- Horner's rule: `val = a; val = val * c + b[]`. -/
  | horner (startValue : ValueSource) (parts : List ValueSource) (factor : ValueSource)
  | store (v : ValueSource)
  deriving DecidableEq, Repr

def Calculation.sources : Calculation → List ValueSource
  | .add a b | .sub a b | .mul a b => [a, b]
  | .square v | .double v | .negate v | .store v => [v]
  | .horner startValue parts factor => startValue :: factor :: parts

structure CalculationInfo where
  calculation : Calculation
  target : Nat
  deriving DecidableEq, Repr

/-- The read-only arguments that every `get` and `evaluate` passes along. -/
structure Inputs (F : Type) where
  fixed : List (List F)
  advice : List (List F)
  «instance» : List (List F)
  challenges : List F
  beta : F
  gamma : F
  theta : F
  y : F
  previousValue : F

inductive Any
  | advice
  | fixed
  | «instance»
  deriving DecidableEq, Repr

structure Column where
  index : Nat
  columnType : Any
  deriving DecidableEq, Repr

variable {F : Type} [CommRing F]

def ValueSource.get (rotations : List Nat) (constants intermediates : List F) (inp : Inputs F) :
    ValueSource → F
  | .constant idx => constants.getD idx 0
  | .intermediate idx => intermediates.getD idx 0
  | .fixed columnIndex rotation =>
    (inp.fixed.getD columnIndex []).getD (rotations.getD rotation 0) 0
  | .advice columnIndex rotation =>
    (inp.advice.getD columnIndex []).getD (rotations.getD rotation 0) 0
  | .«instance» columnIndex rotation =>
    (inp.«instance».getD columnIndex []).getD (rotations.getD rotation 0) 0
  | .challenge index => inp.challenges.getD index 0
  | .beta => inp.beta
  | .gamma => inp.gamma
  | .theta => inp.theta
  | .y => inp.y
  | .previousValue => inp.previousValue

def Calculation.evaluate (rotations : List Nat) (constants intermediates : List F)
    (inp : Inputs F) : Calculation → F
  | .add a b => a.get rotations constants intermediates inp + b.get rotations constants intermediates inp
  | .sub a b => a.get rotations constants intermediates inp - b.get rotations constants intermediates inp
  | .mul a b => a.get rotations constants intermediates inp * b.get rotations constants intermediates inp
  | .square v => v.get rotations constants intermediates inp * v.get rotations constants intermediates inp
  | .double v => v.get rotations constants intermediates inp + v.get rotations constants intermediates inp
  | .negate v => -v.get rotations constants intermediates inp
  | .horner startValue parts factor =>
    parts.foldl (fun value part => value * factor.get rotations constants intermediates inp +
      part.get rotations constants intermediates inp) (startValue.get rotations constants intermediates inp)
  | .store v => v.get rotations constants intermediates inp

theorem Calculation.evaluate_congr (c : Calculation) {rotations rotations' : List Nat}
    {constants constants' intermediates intermediates' : List F} {inp : Inputs F}
    (h : ∀ s ∈ c.sources, s.get rotations constants intermediates inp =
      s.get rotations' constants' intermediates' inp) :
    c.evaluate rotations constants intermediates inp =
      c.evaluate rotations' constants' intermediates' inp := by
  cases c with
  | horner startValue parts factor =>
    simp only [sources, List.mem_cons, forall_eq_or_imp] at h
    obtain ⟨hs, hf, hp⟩ := h
    simp only [evaluate, hs, hf]
    exact List.foldl_ext _ _ _ fun value part hpart => by rw [hp part hpart]
  | _ => simp_all [sources, evaluate]

theorem Calculation.evaluate_horner (startValue factor : ValueSource)
    (parts : List ValueSource) (rotations : List Nat) (constants intermediates : List F) (inp : Inputs F) :
    (Calculation.horner startValue parts factor).evaluate rotations constants intermediates inp =
      (parts.map (·.get rotations constants intermediates inp)).foldl
        (fun acc x => acc * factor.get rotations constants intermediates inp + x)
        (startValue.get rotations constants intermediates inp) := by
  rw [Calculation.evaluate, List.foldl_map]

inductive Expression (F : Type)
  | constant (scalar : F)
  | selector (index : Nat)
  | fixed (columnIndex : Nat) (rotation : Int)
  | advice (columnIndex : Nat) (rotation : Int)
  | «instance» (columnIndex : Nat) (rotation : Int)
  | challenge (index : Nat)
  | negated (a : Expression F)
  | sum (a b : Expression F)
  | product (a b : Expression F)
  | scaled (a : Expression F) (f : F)

/-- No selector occurs: selectors are removed before an expression reaches the evaluator. -/
def Expression.selectorFree : Expression F → Bool
  | .selector _ => false
  | .negated a | .scaled a _ => a.selectorFree
  | .sum a b | .product a b => a.selectorFree && b.selectorFree
  | _ => true

/-- Modelled from the spec: `Expression::evaluate`, which is defined outside this file. -/
def Expression.evaluate {T : Type} (constant : F → T) (selectorColumn : Nat → T)
    (fixedColumn adviceColumn instanceColumn : Nat → Int → T) (challenge : Nat → T)
    (negated : T → T) (sum product : T → T → T) (scaled : T → F → T) : Expression F → T
  | .constant scalar => constant scalar
  | .selector index => selectorColumn index
  | .fixed columnIndex rotation => fixedColumn columnIndex rotation
  | .advice columnIndex rotation => adviceColumn columnIndex rotation
  | .«instance» columnIndex rotation => instanceColumn columnIndex rotation
  | .challenge index => challenge index
  | .negated a => negated (a.evaluate constant selectorColumn fixedColumn adviceColumn
      instanceColumn challenge negated sum product scaled)
  | .sum a b => sum (a.evaluate constant selectorColumn fixedColumn adviceColumn
      instanceColumn challenge negated sum product scaled) (b.evaluate constant selectorColumn
      fixedColumn adviceColumn instanceColumn challenge negated sum product scaled)
  | .product a b => product (a.evaluate constant selectorColumn fixedColumn adviceColumn
      instanceColumn challenge negated sum product scaled) (b.evaluate constant selectorColumn
      fixedColumn adviceColumn instanceColumn challenge negated sum product scaled)
  | .scaled a f => scaled (a.evaluate constant selectorColumn fixedColumn adviceColumn
      instanceColumn challenge negated sum product scaled) f

/-- The value the reference `evaluate` writes at row `idx`; a selector panics, which is `none`. -/
def evaluateRow (expression : Expression F) (idx : Nat) (rotScale isize : Int)
    (fixed advice «instance» : List (List F)) (challenges : List F) : Option F :=
  expression.evaluate some (fun _ => none)
    (fun columnIndex rotation =>
      some ((fixed.getD columnIndex []).getD (getRotationIdx idx rotation rotScale isize) 0))
    (fun columnIndex rotation =>
      some ((advice.getD columnIndex []).getD (getRotationIdx idx rotation rotScale isize) 0))
    (fun columnIndex rotation =>
      some ((«instance».getD columnIndex []).getD (getRotationIdx idx rotation rotScale isize) 0))
    (fun index => some (challenges.getD index 0))
    (fun a => (-·) <$> a) (fun a b => (· + ·) <$> a <*> b) (fun a b => (· * ·) <$> a <*> b)
    (fun a scalar => (· * scalar) <$> a)

/-- Simple evaluation of an expression, row by row (`evaluateParallel_eq` runs the workers). -/
def evaluate (expression : Expression F) (size : Nat) (rotScale : Int)
    (fixed advice «instance» : List (List F)) (challenges : List F) : Option (List F) :=
  (List.range size).mapM fun idx =>
    evaluateRow expression idx rotScale (toI32 size) fixed advice «instance» challenges

structure Gate (F : Type) where
  polynomials : List (Expression F)

structure Lookup.Argument (F : Type) where
  inputExpressions : List (Expression F)
  tableExpressions : List (Expression F)

structure Permutation.Argument where
  columns : List Column

/-- The parts of a constraint system the evaluator reads; `degree` and `blindingFactors` are
computed outside this file. -/
structure ConstraintSystem (F : Type) where
  gates : List (Gate F)
  lookups : List (Lookup.Argument F)
  permutation : Permutation.Argument
  degree : Nat
  blindingFactors : Nat

section evaluateRow

variable (idx : Nat) (rotScale isize : Int) (fixed advice «instance» : List (List F))
  (challenges : List F)

@[simp] theorem evaluateRow_constant (scalar : F) :
    evaluateRow (.constant scalar) idx rotScale isize fixed advice «instance» challenges =
      some scalar := rfl

@[simp] theorem evaluateRow_selector (index : Nat) :
    evaluateRow (.selector index) idx rotScale isize fixed advice «instance» challenges =
      (none : Option F) := rfl

@[simp] theorem evaluateRow_fixed (columnIndex : Nat) (rotation : Int) :
    evaluateRow (.fixed columnIndex rotation) idx rotScale isize fixed advice «instance»
      challenges =
      some ((fixed.getD columnIndex []).getD (getRotationIdx idx rotation rotScale isize) 0) :=
  rfl

@[simp] theorem evaluateRow_advice (columnIndex : Nat) (rotation : Int) :
    evaluateRow (.advice columnIndex rotation) idx rotScale isize fixed advice «instance»
      challenges =
      some ((advice.getD columnIndex []).getD (getRotationIdx idx rotation rotScale isize) 0) :=
  rfl

@[simp] theorem evaluateRow_instance (columnIndex : Nat) (rotation : Int) :
    evaluateRow (.«instance» columnIndex rotation) idx rotScale isize fixed advice «instance»
      challenges =
      some ((«instance».getD columnIndex []).getD (getRotationIdx idx rotation rotScale isize) 0) :=
  rfl

@[simp] theorem evaluateRow_challenge (index : Nat) :
    evaluateRow (.challenge index) idx rotScale isize fixed advice «instance» challenges =
      some (challenges.getD index 0) := rfl

@[simp] theorem evaluateRow_negated (a : Expression F) :
    evaluateRow (.negated a) idx rotScale isize fixed advice «instance» challenges =
      (-·) <$> evaluateRow a idx rotScale isize fixed advice «instance» challenges := rfl

@[simp] theorem evaluateRow_sum (a b : Expression F) :
    evaluateRow (.sum a b) idx rotScale isize fixed advice «instance» challenges =
      (· + ·) <$> evaluateRow a idx rotScale isize fixed advice «instance» challenges <*>
        evaluateRow b idx rotScale isize fixed advice «instance» challenges := rfl

@[simp] theorem evaluateRow_product (a b : Expression F) :
    evaluateRow (.product a b) idx rotScale isize fixed advice «instance» challenges =
      (· * ·) <$> evaluateRow a idx rotScale isize fixed advice «instance» challenges <*>
        evaluateRow b idx rotScale isize fixed advice «instance» challenges := rfl

@[simp] theorem evaluateRow_scaled (a : Expression F) (f : F) :
    evaluateRow (.scaled a f) idx rotScale isize fixed advice «instance» challenges =
      (· * f) <$> evaluateRow a idx rotScale isize fixed advice «instance» challenges := rfl

end evaluateRow

theorem mapM_eq_some {α β : Type} {f : α → Option β} :
    ∀ {l : List α} {vs : List β}, l.mapM f = some vs →
      vs.length = l.length ∧ ∀ i (hi : i < l.length), f l[i] = vs[i]?
  | [], vs, h => by
    simp only [List.mapM_nil, Option.pure_def, Option.some.injEq] at h
    subst h
    exact ⟨rfl, fun i hi => absurd hi (Nat.not_lt_zero _)⟩
  | a :: l, vs, h => by
    simp only [List.mapM_cons, Option.bind_eq_bind, Option.bind_eq_some, Option.pure_def,
      Option.some.injEq] at h
    obtain ⟨x, hx, xs, hxs, rfl⟩ := h
    obtain ⟨hlen, hget⟩ := mapM_eq_some hxs
    refine ⟨by simp [hlen], fun i hi => ?_⟩
    cases i with
    | zero => simpa using hx
    | succ i => simpa using hget i (Nat.lt_of_succ_lt_succ hi)

theorem mapM_isSome_iff {α β : Type} (f : α → Option β) :
    ∀ l : List α, (l.mapM f).isSome ↔ ∀ a ∈ l, (f a).isSome
  | [] => iff_of_true rfl fun _ h => absurd h (List.not_mem_nil _)
  | a :: l => by
    rw [List.mapM_cons, List.forall_mem_cons, ← mapM_isSome_iff f l]
    cases f a <;> cases l.mapM f <;> simp

theorem mapM_isSome {α β : Type} {f : α → Option β} {l : List α}
    (h : ∀ a ∈ l, ∃ b, f a = some b) : ∃ vs, l.mapM f = some vs :=
  Option.isSome_iff_exists.mp ((mapM_isSome_iff f l).mpr fun a ha =>
    Option.isSome_iff_exists.mpr (h a ha))

theorem mapM_congr {α β : Type} {f g : α → Option β} :
    ∀ {l : List α}, (∀ a ∈ l, f a = g a) → l.mapM f = l.mapM g
  | [], _ => rfl
  | a :: l, h => by
    simp only [List.mapM_cons, h a (List.mem_cons_self _ _),
      mapM_congr fun x hx => h x (List.mem_cons_of_mem _ hx)]

theorem evaluateRow_isSome {e : Expression F} (he : e.selectorFree) (idx : Nat)
    (rotScale isize : Int) (fixed advice «instance» : List (List F)) (challenges : List F) :
    ∃ v, evaluateRow e idx rotScale isize fixed advice «instance» challenges = some v := by
  induction e with
  | selector => cases he
  | negated a iha =>
    obtain ⟨v, hv⟩ := iha he
    exact ⟨-v, by simp [hv]⟩
  | sum a b iha ihb | product a b iha ihb =>
    simp only [Expression.selectorFree, Bool.and_eq_true] at he
    obtain ⟨va, hva⟩ := iha he.1
    obtain ⟨vb, hvb⟩ := ihb he.2
    simp [hva, hvb]
  | scaled a f iha =>
    obtain ⟨v, hv⟩ := iha he
    exact ⟨v * f, by simp [hv]⟩
  | _ => simp

theorem evaluate_isSome {e : Expression F} (he : e.selectorFree) (size : Nat) (rotScale : Int)
    (fixed advice «instance» : List (List F)) (challenges : List F) :
    ∃ values, evaluate e size rotScale fixed advice «instance» challenges = some values :=
  mapM_isSome fun idx _ => evaluateRow_isSome he idx rotScale _ fixed advice «instance» challenges

theorem evaluate_getElem? {expression : Expression F} {size : Nat} {rotScale : Int}
    {fixed advice «instance» : List (List F)} {challenges : List F} {values : List F}
    (h : evaluate expression size rotScale fixed advice «instance» challenges = some values)
    {idx : Nat} (hidx : idx < size) :
    evaluateRow expression idx rotScale (toI32 size) fixed advice «instance» challenges =
      values[idx]? := by
  have := (mapM_eq_some h).2 idx (by rwa [List.length_range])
  rwa [List.getElem_range] at this

theorem mapM_evaluate_getElem? {es : List (Expression F)} (hes : ∀ e ∈ es, e.selectorFree)
    (size : Nat) (rotScale : Int) (fixed advice «instance» : List (List F)) (challenges : List F)
    {idx : Nat} (hidx : idx < size) :
    es.mapM (fun e => (evaluate e size rotScale fixed advice «instance» challenges).bind (·[idx]?)) =
      es.mapM (fun e => evaluateRow e idx rotScale (toI32 size) fixed advice «instance» challenges) := by
  induction es with
  | nil => rfl
  | cons e es ih =>
    obtain ⟨values, hv⟩ := evaluate_isSome (hes e (List.mem_cons_self _ _)) size rotScale fixed
      advice «instance» challenges
    simp only [List.mapM_cons, hv, Option.some_bind, ← evaluate_getElem? hv hidx,
      ih fun x hx => hes x (List.mem_cons_of_mem _ hx)]

end PlonkEvaluation
