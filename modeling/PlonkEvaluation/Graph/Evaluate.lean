import PlonkEvaluation.Graph.WellFormed

/-! Evaluating a compiled graph at one row.  On a well-formed graph the scratch is settled whatever
it held before, and every source that `add_expression` returned reads the reference value. -/

namespace PlonkEvaluation

variable {F : Type}

structure EvaluationData (F : Type) where
  intermediates : List F
  rotations : List Nat

namespace GraphEvaluator

def evaluateRotations (self : GraphEvaluator F) (rotations : List Nat) (idx : Nat)
    (rotScale isize : Int) : List Nat :=
  self.rotations.enum.foldl (fun rotations (rotIdx, rot) =>
    rotations.set rotIdx (getRotationIdx idx rot rotScale isize)) rotations

private theorem foldl_set_enumFrom {α : Type} (f : α → Nat) :
    ∀ (l : List α) (k : Nat) (rs : List Nat), rs.length = k + l.length →
      (l.enumFrom k).foldl (fun rs p => rs.set p.1 (f p.2)) rs = rs.take k ++ l.map f
  | [], k, rs, h => by simp [List.take_of_length_le (by simpa using h.le)]
  | a :: l, k, rs, h => by
    simp only [List.length_cons] at h
    rw [List.enumFrom_cons, List.foldl_cons,
      foldl_set_enumFrom f l (k + 1) _ (by rw [List.length_set]; omega), List.take_succ,
      List.set_take, List.set_eq_of_length_le (List.length_take_le _ _),
      List.getElem?_set_self (by omega)]
    simp

theorem evaluateRotations_eq (g : GraphEvaluator F) {rotations : List Nat}
    (h : rotations.length = g.rotations.length) (idx : Nat) (rotScale isize : Int) :
    g.evaluateRotations rotations idx rotScale isize =
      g.rotations.map (getRotationIdx idx · rotScale isize) := by
  simpa using foldl_set_enumFrom (getRotationIdx idx · rotScale isize) g.rotations 0 rotations
    (by omega)

variable [CommRing F]

def «instance» (self : GraphEvaluator F) : EvaluationData F :=
  ⟨List.replicate self.numIntermediates 0, List.replicate self.rotations.length 0⟩

def evaluateCalculations (self : GraphEvaluator F) (rotations : List Nat)
    (intermediates : List F) (inp : Inputs F) : List F :=
  self.calculations.foldl (fun intermediates c =>
    intermediates.set c.target
      (c.calculation.evaluate rotations self.constants intermediates inp)) intermediates

/-- `GraphEvaluator::evaluate`.  The source's indexing panics out of range; every caller passes a
scratch of the sizes `instance()` gives. -/
def evaluate (self : GraphEvaluator F) (data : EvaluationData F) (inp : Inputs F) (idx : Nat)
    (rotScale isize : Int) : F × EvaluationData F :=
  let rotations := self.evaluateRotations data.rotations idx rotScale isize
  let intermediates := self.evaluateCalculations rotations data.intermediates inp
  (match self.calculations.getLast? with
    | some c => intermediates.getD c.target 0
    | none => 0,
    ⟨intermediates, rotations⟩)

@[simp] theorem instance_intermediates (g : GraphEvaluator F) :
    g.«instance».intermediates.length = g.numIntermediates := List.length_replicate _ _

@[simp] theorem instance_rotations (g : GraphEvaluator F) :
    g.«instance».rotations.length = g.rotations.length := List.length_replicate _ _

/-- Every calculation slot holds that calculation's value, read from the scratch itself. -/
def Settled (g : GraphEvaluator F) (rotations : List Nat) (intermediates : List F)
    (inp : Inputs F) : Prop :=
  ∀ i (hi : i < g.calculations.length), intermediates.getD i 0 =
    g.calculations[i].calculation.evaluate rotations g.constants intermediates inp

theorem get_congr_of_valid {g : GraphEvaluator F} {bound : Nat} {s : ValueSource}
    (hs : g.Valid bound s) {intermediates intermediates' : List F}
    (h : ∀ t < bound, intermediates.getD t 0 = intermediates'.getD t 0)
    (rotations : List Nat) (constants : List F) (inp : Inputs F) :
    s.get rotations constants intermediates inp = s.get rotations constants intermediates' inp := by
  cases s <;> first | rfl | exact h _ hs

private theorem foldl_settled (g : GraphEvaluator F) (rotations : List Nat) (inp : Inputs F) :
    ∀ (cs : List CalculationInfo) (k : Nat) (ints : List F), k + cs.length ≤ ints.length →
      (∀ j (hj : j < cs.length), cs[j].target = k + j) →
      (∀ j (hj : j < cs.length), ∀ s ∈ cs[j].calculation.sources, g.Valid (k + j) s) →
      (∀ t < k, (cs.foldl (fun ints c => ints.set c.target
        (c.calculation.evaluate rotations g.constants ints inp)) ints).getD t 0 = ints.getD t 0) ∧
      ∀ j (hj : j < cs.length), (cs.foldl (fun ints c => ints.set c.target
        (c.calculation.evaluate rotations g.constants ints inp)) ints).getD (k + j) 0 =
        cs[j].calculation.evaluate rotations g.constants (cs.foldl (fun ints c => ints.set c.target
          (c.calculation.evaluate rotations g.constants ints inp)) ints) inp
  | [], _, _, _, _, _ => ⟨fun _ _ => rfl, fun _ hj => absurd hj (Nat.not_lt_zero _)⟩
  | c :: cs, k, ints, hlen, ht, hv => by
    have hc : c.target = k := by simpa using ht 0 (Nat.succ_pos _)
    simp only [List.length_cons] at hlen
    obtain ⟨hlow, hhigh⟩ := foldl_settled g rotations inp cs (k + 1)
      (ints.set k (c.calculation.evaluate rotations g.constants ints inp))
      (by simp only [List.length_set]; omega)
      (fun j hj => by simpa [Nat.add_assoc, Nat.add_comm 1 j] using ht (j + 1) (by simpa using hj))
      (fun j hj => by simpa [Nat.add_assoc, Nat.add_comm 1 j] using hv (j + 1) (by simpa using hj))
    simp only [List.foldl_cons, hc]
    have hbelow : ∀ t < k, (cs.foldl (fun ints c => ints.set c.target
        (c.calculation.evaluate rotations g.constants ints inp))
        (ints.set k (c.calculation.evaluate rotations g.constants ints inp))).getD t 0 =
        ints.getD t 0 := fun t ht => by
      rw [hlow t (by omega)]
      simp [List.getD_eq_getElem?_getD, List.getElem?_set_ne (Nat.ne_of_gt ht)]
    refine ⟨hbelow, fun j hj => ?_⟩
    cases j with
    | zero =>
      rw [Nat.add_zero, hlow k (by omega)]
      simp only [List.getD_eq_getElem?_getD, List.getElem?_set_self (by omega : k < ints.length),
        Option.getD_some, List.getElem_cons_zero]
      exact c.calculation.evaluate_congr fun s hs =>
        (get_congr_of_valid (by simpa using hv 0 (Nat.succ_pos _) s hs)
          (fun t ht => (hbelow t ht).symm) _ _ _)
    | succ j => simpa [Nat.add_assoc, Nat.add_comm 1 j] using hhigh j (by simpa using hj)

theorem settled_evaluateCalculations {g : GraphEvaluator F} (hg : g.WellFormed)
    (rotations : List Nat) {intermediates : List F}
    (h : intermediates.length = g.numIntermediates) (inp : Inputs F) :
    Settled g rotations (g.evaluateCalculations rotations intermediates inp) inp := fun i hi => by
  simpa using (foldl_settled g rotations inp g.calculations 0 intermediates
    (by rw [h, hg.numIntermediates_eq]; omega) (fun j hj => by simpa using hg.target_eq j hj)
    (fun j hj => by simpa using hg.sources_valid j hj)).2 i hi

@[simp] theorem evaluate_rotations (g : GraphEvaluator F) (data : EvaluationData F)
    (inp : Inputs F) (idx : Nat) (rotScale isize : Int) :
    (g.evaluate data inp idx rotScale isize).2.rotations =
      g.evaluateRotations data.rotations idx rotScale isize := rfl

@[simp] theorem evaluate_intermediates (g : GraphEvaluator F) (data : EvaluationData F)
    (inp : Inputs F) (idx : Nat) (rotScale isize : Int) :
    (g.evaluate data inp idx rotScale isize).2.intermediates = g.evaluateCalculations
      (g.evaluateRotations data.rotations idx rotScale isize) data.intermediates inp := rfl

private theorem length_foldl_set {α β : Type} (t : β → Nat) (v : List α → β → α) :
    ∀ (cs : List β) (l : List α), (cs.foldl (fun l c => l.set (t c) (v l c)) l).length = l.length
  | [], _ => rfl
  | c :: cs, l => by rw [List.foldl_cons, length_foldl_set t v cs, List.length_set]

theorem evaluate_sizes (g : GraphEvaluator F) {data : EvaluationData F}
    (hd : data.intermediates.length = g.numIntermediates ∧
      data.rotations.length = g.rotations.length) (inp : Inputs F) (idx : Nat)
    (rotScale isize : Int) :
    (g.evaluate data inp idx rotScale isize).2.intermediates.length = g.numIntermediates ∧
      (g.evaluate data inp idx rotScale isize).2.rotations.length = g.rotations.length :=
  ⟨(length_foldl_set _ _ _ _).trans hd.1,
    by rw [evaluate_rotations, evaluateRotations_eq g hd.2, List.length_map]⟩

def emitValue (rotations : List Nat) (constants intermediates : List F) (inp : Inputs F) :
    ValueSource ⊕ Calculation → F
  | .inl source => source.get rotations constants intermediates inp
  | .inr calculation => calculation.evaluate rotations constants intermediates inp

section Steps

variable {rotations : List Nat} {constants intermediates : List F} {inp : Inputs F}
  (h0 : (ValueSource.constant 0).get rotations constants intermediates inp = 0)

include h0 in
theorem negatedStep_value (resultA : ValueSource) :
    emitValue rotations constants intermediates inp (negatedStep resultA) =
      -resultA.get rotations constants intermediates inp := by
  unfold negatedStep
  split_ifs with hc
  · subst hc; simp [emitValue, h0]
  · rfl

include h0 in
theorem subStep_value (resultA resultB : ValueSource) :
    emitValue rotations constants intermediates inp (subStep resultA resultB) =
      resultA.get rotations constants intermediates inp -
        resultB.get rotations constants intermediates inp := by
  unfold subStep
  split_ifs with hca hcb
  · subst hca; simp [emitValue, Calculation.evaluate, h0]
  · subst hcb; simp [emitValue, h0]
  · rfl

include h0 in
theorem sumStep_value (resultA resultB : ValueSource) :
    emitValue rotations constants intermediates inp (sumStep resultA resultB) =
      resultA.get rotations constants intermediates inp +
        resultB.get rotations constants intermediates inp := by
  unfold sumStep
  split_ifs with hca hcb
  · subst hca; simp [emitValue, h0]
  · subst hcb; simp [emitValue, h0]
  · rfl
  · exact add_comm _ _

include h0 in
theorem productStep_value
    (h1 : (ValueSource.constant 1).get rotations constants intermediates inp = 1)
    (h2 : (ValueSource.constant 2).get rotations constants intermediates inp = 2)
    (resultA resultB : ValueSource) :
    emitValue rotations constants intermediates inp (productStep resultA resultB) =
      resultA.get rotations constants intermediates inp *
        resultB.get rotations constants intermediates inp := by
  unfold productStep
  split_ifs with hc0 hca1 hcb1 hca2 hcb2 hab
  · rcases hc0 with rfl | rfl <;> simp [emitValue, h0]
  · subst hca1; simp [emitValue, h1]
  · subst hcb1; simp [emitValue, h1]
  · subst hca2; simp [emitValue, Calculation.evaluate, h2, two_mul]
  · subst hcb2; simp [emitValue, Calculation.evaluate, h2, mul_two]
  · subst hab; rfl
  · rfl
  · exact mul_comm _ _

end Steps

section Denotation

structure Agrees (g'' : GraphEvaluator F) (rotations : List Nat) (intermediates : List F)
    (inp : Inputs F) (idx : Nat) (rotScale isize : Int) : Prop where
  wf : g''.WellFormed
  rotations_eq : ∀ j (hj : j < g''.rotations.length),
    rotations.getD j 0 = getRotationIdx idx g''.rotations[j] rotScale isize
  settled : Settled g'' rotations intermediates inp

variable {g g' g'' : GraphEvaluator F} {rots : List Nat} {ints : List F} {inp : Inputs F}
  {idx : Nat} {rotScale isize : Int}

theorem agrees_evaluate (hg : g''.WellFormed) {data : EvaluationData F}
    (hd : data.intermediates.length = g''.numIntermediates ∧
      data.rotations.length = g''.rotations.length) (inp : Inputs F) (idx : Nat)
    (rotScale isize : Int) :
    Agrees g'' (g''.evaluate data inp idx rotScale isize).2.rotations
      (g''.evaluate data inp idx rotScale isize).2.intermediates inp idx rotScale isize where
  wf := hg
  rotations_eq j hj := by
    rw [evaluate_rotations, evaluateRotations_eq g'' hd.2, List.getD_eq_getElem?_getD,
      List.getElem?_map, List.getElem?_eq_getElem hj, Option.map_some', Option.getD_some]
  settled := settled_evaluateCalculations hg _ hd.1 inp

theorem Agrees.get_seeded (ha : Agrees g'' rots ints inp idx rotScale isize) :
    (ValueSource.constant 0).get rots g''.constants ints inp = 0 ∧
      (ValueSource.constant 1).get rots g''.constants ints inp = 1 ∧
      (ValueSource.constant 2).get rots g''.constants ints inp = 2 := by
  obtain ⟨t, ht⟩ := ha.wf.seeded
  simp [ValueSource.get, ← ht]

theorem Agrees.getD_addRotation (ha : Agrees g'' rots ints inp idx rotScale isize) {r : Int}
    (hx : (g.addRotation r).2.Extends g'') :
    rots.getD (g.addRotation r).1 0 = getRotationIdx idx r rotScale isize := by
  obtain ⟨hlt, hr, -⟩ := List.findIdx?_eq_some_iff_getElem.mp (addRotation_spec g r).1
  rw [ha.rotations_eq _ (lt_of_lt_of_le hlt hx.rotations.length_le),
    ← hx.rotations.getElem hlt, beq_iff_eq.mp hr]

theorem Agrees.get_addCalculation (ha : Agrees g'' rots ints inp idx rotScale isize)
    {c : Calculation} (hx : (g.addCalculation c).2.Extends g'') :
    (g.addCalculation c).1.get rots g''.constants ints inp =
      c.evaluate rots g''.constants ints inp := by
  obtain ⟨info, hinfo, hc, hfind, -⟩ := addCalculation_spec g c
  obtain ⟨i, hi, rfl⟩ :=
    List.getElem_of_mem (hx.calculations.subset (List.mem_of_find?_eq_some hfind))
  rw [hinfo, ← hc, ValueSource.get, ha.wf.target_eq i hi]
  exact ha.settled i hi

theorem Agrees.get_of_some_addCalculation (ha : Agrees g'' rots ints inp idx rotScale isize)
    {c : Calculation} {s : ValueSource} (h : some (g.addCalculation c) = some (s, g'))
    (hx : g'.Extends g'') :
    s.get rots g''.constants ints inp = c.evaluate rots g''.constants ints inp := by
  obtain ⟨rfl, rfl⟩ := Prod.ext_iff.mp (Option.some.inj h).symm
  exact ha.get_addCalculation hx

theorem Agrees.get_emit (ha : Agrees g'' rots ints inp idx rotScale isize)
    {r : ValueSource ⊕ Calculation} (hx : (g.emit r).2.Extends g'') :
    (g.emit r).1.get rots g''.constants ints inp = emitValue rots g''.constants ints inp r := by
  cases r with
  | inl x => rfl
  | inr c => exact ha.get_addCalculation hx

variable [DecidableEq F]

theorem get_addConstant {c : F} (hx : (g.addConstant c).2.Extends g'') :
    (g.addConstant c).1.get rots g''.constants ints inp = c := by
  obtain ⟨pos, hpos, hfind, -⟩ := addConstant_spec g c
  obtain ⟨hlt, hc, -⟩ := List.findIdx?_eq_some_iff_getElem.mp hfind
  rw [hpos, ValueSource.get, List.getD_eq_getElem?_getD,
    List.getElem?_eq_getElem (lt_of_lt_of_le hlt hx.constants.length_le),
    ← hx.constants.getElem hlt, beq_iff_eq.mp hc]
  rfl

theorem Agrees.get_of_addExpression (ha : Agrees g'' rots ints inp idx rotScale isize)
    {e : Expression F} {s : ValueSource} (he : e.selectorFree)
    (h : g.addExpression e = some (s, g')) (hx : g'.Extends g'') :
    evaluateRow e idx rotScale isize inp.fixed inp.advice inp.«instance» inp.challenges =
      some (s.get rots g''.constants ints inp) := by
  obtain ⟨v0, v1, v2⟩ := ha.get_seeded
  induction g, e using addExpression.induct generalizing s g' with
  | case1 g scalar =>
    obtain ⟨rfl, rfl⟩ := Prod.ext_iff.mp (Option.some.inj h).symm
    rw [evaluateRow_constant, get_addConstant hx]
  | case2 => cases he
  | case3 g c r rotIdx g1 hr | case4 g c r rotIdx g1 hr | case5 g c r rotIdx g1 hr =>
    simp only [addExpression, hr] at h
    have hrot : rots.getD (g.addRotation r).1 0 = getRotationIdx idx r rotScale isize :=
      ha.getD_addRotation (by rw [hr]; exact (extends_of_some_addCalculation h).trans hx)
    simp only [hr] at hrot
    rw [ha.get_of_some_addCalculation h hx]
    simp only [Calculation.evaluate, ValueSource.get, hrot, evaluateRow_fixed, evaluateRow_advice,
      evaluateRow_instance]
  | case6 g i =>
    rw [ha.get_of_some_addCalculation h hx]
    rfl
  | case7 g scalar =>
    obtain ⟨rfl, rfl⟩ := Prod.ext_iff.mp (Option.some.inj h).symm
    simp [get_addConstant hx]
  | case8 g a hna iha =>
    rw [addExpression] at h
    · simp only [Option.bind_eq_bind, Option.bind_eq_some] at h
      obtain ⟨⟨ra, g1⟩, h1, h⟩ := h
      obtain ⟨rfl, rfl⟩ := Prod.ext_iff.mp (Option.some.inj h).symm
      rw [evaluateRow_negated, iha he h1 ((extends_emit g1 _).trans hx), ha.get_emit hx,
        negatedStep_value v0]
      rfl
    · exact hna
  | case9 g a bInt iha ihb =>
    simp only [addExpression, Option.bind_eq_bind, Option.bind_eq_some] at h
    obtain ⟨⟨ra, g1⟩, h1, ⟨rb, g2⟩, h2, h⟩ := h
    obtain ⟨rfl, rfl⟩ := Prod.ext_iff.mp (Option.some.inj h).symm
    simp only [Expression.selectorFree, Bool.and_eq_true] at he
    have hx2 := (extends_emit g2 _).trans hx
    rw [evaluateRow_sum, evaluateRow_negated, iha he.1 h1 ((extends_addExpression h2).trans hx2),
      ihb g1 he.2 h2 hx2, ha.get_emit hx, subStep_value v0, sub_eq_add_neg]
    rfl
  | case10 g a b hb iha ihb =>
    rw [addExpression] at h
    · simp only [Option.bind_eq_bind, Option.bind_eq_some] at h
      obtain ⟨⟨ra, g1⟩, h1, ⟨rb, g2⟩, h2, h⟩ := h
      obtain ⟨rfl, rfl⟩ := Prod.ext_iff.mp (Option.some.inj h).symm
      simp only [Expression.selectorFree, Bool.and_eq_true] at he
      have hx2 := (extends_emit g2 _).trans hx
      rw [evaluateRow_sum, iha he.1 h1 ((extends_addExpression h2).trans hx2),
        ihb g1 he.2 h2 hx2, ha.get_emit hx, sumStep_value v0]
      rfl
    · exact hb
  | case11 g a b iha ihb =>
    simp only [addExpression, Option.bind_eq_bind, Option.bind_eq_some] at h
    obtain ⟨⟨ra, g1⟩, h1, ⟨rb, g2⟩, h2, h⟩ := h
    obtain ⟨rfl, rfl⟩ := Prod.ext_iff.mp (Option.some.inj h).symm
    simp only [Expression.selectorFree, Bool.and_eq_true] at he
    have hx2 := (extends_emit g2 _).trans hx
    rw [evaluateRow_product, iha he.1 h1 ((extends_addExpression h2).trans hx2),
      ihb g1 he.2 h2 hx2, ha.get_emit hx, productStep_value v0 v1 v2]
    rfl
  | case12 g a =>
    simp only [addExpression, if_true] at h
    cases h
    obtain ⟨v, hv⟩ := evaluateRow_isSome (show a.selectorFree from he) idx rotScale isize
      inp.fixed inp.advice inp.«instance» inp.challenges
    simp [hv, v0]
  | case13 g a h10 iha =>
    simp only [addExpression, h10, if_false, if_true] at h
    simp [iha he h hx]
  | case14 g a f hf0 hf1 cst g1 hc iha =>
    simp only [addExpression, hf0, hf1, if_false, hc, Option.bind_eq_bind,
      Option.bind_eq_some] at h
    obtain ⟨⟨ra, g2⟩, h2, h⟩ := h
    have hx2 := (extends_of_some_addCalculation h).trans hx
    have hcst : (g.addConstant f).1.get rots g''.constants ints inp = f :=
      get_addConstant (by rw [hc]; exact (extends_addExpression h2).trans hx2)
    rw [hc] at hcst
    rw [evaluateRow_scaled, iha he h2 hx2, ha.get_of_some_addCalculation h hx]
    simp [Calculation.evaluate, hcst]

/-- Compiling a selector-free expression into a reachable graph and evaluating the graph at a
row gives the reference `evaluate` at that row, whatever the scratch held before. -/
theorem evaluate_addExpression_eq_reference {g g' : GraphEvaluator F} {e : Expression F}
    {s : ValueSource} (hg : g.Reachable) (he : e.selectorFree)
    (h : g.addExpression e = some (s, g')) (data : EvaluationData F)
    (hd : data.intermediates.length = g'.«instance».intermediates.length ∧
      data.rotations.length = g'.«instance».rotations.length)
    (inp : Inputs F) (size idx : Nat) (hidx : idx < size) (rotScale : Int) :
    ∃ values, PlonkEvaluation.evaluate e size rotScale inp.fixed inp.advice inp.«instance» inp.challenges =
        some values ∧
      values[idx]? = some (s.get (g'.evaluate data inp idx rotScale (toI32 size)).2.rotations
        g'.constants (g'.evaluate data inp idx rotScale (toI32 size)).2.intermediates inp) := by
  have hr : g'.Reachable := Relation.ReflTransGen.tail hg (.addExpression h)
  have ha := agrees_evaluate hr.wellFormed.1 (by simpa using hd) inp idx rotScale (toI32 size)
  obtain ⟨values, hvalues⟩ := evaluate_isSome he size rotScale inp.fixed inp.advice
    inp.«instance» inp.challenges
  exact ⟨values, hvalues,
    (evaluate_getElem? hvalues hidx).symm.trans (ha.get_of_addExpression he h (Extends.refl _))⟩

theorem evaluate_addExpression_eq_reference_square_sub :
    let e : Expression ℤ :=
      .sum (.product (.advice 0 1) (.advice 0 1)) (.negated (.product (.constant 2) (.advice 0 1)))
    let r := (GraphEvaluator.default.addExpression e).getD (.constant 0, .default)
    let data : EvaluationData ℤ := ⟨[9, 9, 9, 9], [9]⟩
    let inp : Inputs ℤ := ⟨[], [[5, 6, 7, 8]], [], [], 0, 0, 0, 0, 0⟩
    ∃ values, PlonkEvaluation.evaluate e 4 1 inp.fixed inp.advice inp.«instance» inp.challenges =
        some values ∧
      values[3]? = some (r.1.get (r.2.evaluate data inp 3 1 (toI32 4)).2.rotations r.2.constants
        (r.2.evaluate data inp 3 1 (toI32 4)).2.intermediates inp) :=
  evaluate_addExpression_eq_reference .refl (by decide) (by rfl) ⟨[9, 9, 9, 9], [9]⟩
    (by constructor <;> rfl) ⟨[], [[5, 6, 7, 8]], [], [], 0, 0, 0, 0, 0⟩ 4 3 (by decide) 1

example : ((GraphEvaluator.default : GraphEvaluator ℤ).addExpression
      (.sum (.product (.advice 0 1) (.advice 0 1))
        (.negated (.product (.constant 2) (.advice 0 1))))).map (·.2.calculations.map (·.calculation)) =
    some [.store (.advice 0 0), .square (.intermediate 0), .double (.intermediate 0),
      .sub (.intermediate 1) (.intermediate 2)] := rfl

end Denotation

end GraphEvaluator

end PlonkEvaluation
