import PlonkEvaluation.Quotient.Keys
import PlonkEvaluation.Parallel
import Mathlib.Algebra.BigOperators.Group.List

/-! The permutation pass of `evaluate_h`.  The `right` products run one ladder of powers of `DELTA`
across all chunks of a row, seeded from `beta * ZETA * beta_term`; the worker starting at row `s`
seeds `beta_term` with `omega^s`, so each row's terms depend on the row alone. -/

namespace PlonkEvaluation

/-- `slice::chunks(chunk_len)`.  The source panics on `chunk_len = 0`, where this gives empty
pieces. -/
def chunksAux {α : Type} (chunkLen : Nat) : Nat → List α → List (List α)
  | 0, _ => []
  | _ + 1, [] => []
  | fuel + 1, x :: xs => (x :: xs).take chunkLen :: chunksAux chunkLen fuel ((x :: xs).drop chunkLen)

def chunks {α : Type} (chunkLen : Nat) (l : List α) : List (List α) :=
  chunksAux chunkLen l.length l

theorem chunksAux_map {α β : Type} (g : α → β) (chunkLen : Nat) :
    ∀ (fuel : Nat) (l : List α),
      chunksAux chunkLen fuel (l.map g) = (chunksAux chunkLen fuel l).map (List.map g)
  | 0, _ => rfl
  | _ + 1, [] => rfl
  | fuel + 1, x :: xs => by
    rw [List.map_cons, chunksAux, chunksAux, ← List.map_cons, ← List.map_take, ← List.map_drop,
      chunksAux_map g chunkLen fuel, List.map_cons]

theorem chunks_map {α β : Type} (g : α → β) (chunkLen : Nat) (l : List α) :
    chunks chunkLen (l.map g) = (chunks chunkLen l).map (List.map g) := by
  rw [chunks, chunks, List.length_map, chunksAux_map]

theorem flatten_chunksAux {α : Type} (chunkLen : Nat) :
    ∀ (fuel : Nat) (l : List α), (chunksAux chunkLen fuel l).flatten = l.take (chunkLen * fuel)
  | 0, _ => by simp [chunksAux]
  | _ + 1, [] => by simp [chunksAux]
  | fuel + 1, x :: xs => by
    rw [chunksAux, List.flatten_cons, flatten_chunksAux chunkLen fuel, Nat.mul_succ,
      Nat.add_comm, List.take_add]

theorem map_fst_flatten_chunks {α : Type} (chunkLen : Nat) (l : List α) :
    ∃ m, ((chunks chunkLen l.enum).flatten).map Prod.fst = List.range' 0 m :=
  ⟨_, by rw [chunks, flatten_chunksAux, List.map_take, List.enum_map_fst, List.take_range,
    List.range_eq_range']⟩

variable {F : Type} [CommRing F] [FieldExt F]

section Row

variable (fixed advice «instance» : List (List F)) (beta gamma y : F) (idx : Nat)

/-- The `left` loop of a chunk. -/
def permutationLeft (rNext : Nat) (set : List F) (columns : List Column)
    (cosets : List (List F)) : F :=
  (columns.zip cosets).foldl (fun left p =>
    left * ((columnValues fixed advice «instance» p.1).getD idx 0 + beta * p.2.getD idx 0 + gamma))
    (set.getD rNext 0)

/-- The `right` loop of a chunk, returning `right` and the advanced `current_delta`. -/
def permutationRight (columns : List Column) (right currentDelta : F) : F × F :=
  columns.foldl (fun acc column =>
    (acc.1 * ((columnValues fixed advice «instance» column).getD idx 0 + acc.2 + gamma),
      acc.2 * FieldExt.delta)) (right, currentDelta)

/-- The loop over the sets and their chunks, `current_delta` running on from chunk to chunk. -/
def permutationChunks (lActiveRow : List F) (rNext : Nat) (sets : List (List F))
    (columnChunks : List (List Column)) (cosetChunks : List (List (List F)))
    (value currentDelta : F) : F × F :=
  ((sets.zip columnChunks).zip cosetChunks).foldl (fun acc x =>
    let left := permutationLeft fixed advice «instance» beta gamma idx rNext x.1.1 x.1.2 x.2
    let right := permutationRight fixed advice «instance» gamma idx x.1.2 (x.1.1.getD idx 0) acc.2
    (acc.1 * y + (left - right.1) * lActiveRow.getD idx 0, right.2)) (value, currentDelta)

omit [FieldExt F] in
theorem permutationLeft_eq (rNext : Nat) (set : List F) (columns : List Column)
    (cosets : List (List F)) :
    permutationLeft fixed advice «instance» beta gamma idx rNext set columns cosets =
      set.getD rNext 0 * ((columns.zip cosets).map fun p =>
        (columnValues fixed advice «instance» p.1).getD idx 0 + beta * p.2.getD idx 0 + gamma).prod := by
  rw [permutationLeft, List.prod_eq_foldl, ← @List.foldl_assoc F (· * ·) _ _ _ 1, mul_one,
    List.foldl_map]

theorem permutationRight_ladder (d : F) :
    ∀ (columns : List (Nat × Column)) (j : Nat) (right : F),
      columns.map Prod.fst = List.range' j columns.length →
      permutationRight fixed advice «instance» gamma idx (columns.map Prod.snd) right
          (d * FieldExt.delta ^ j) =
        (right * (columns.map fun c =>
            (columnValues fixed advice «instance» c.2).getD idx 0 + d * FieldExt.delta ^ c.1 +
              gamma).prod,
          d * FieldExt.delta ^ (j + columns.length))
  | [], j, right, _ => by simp [permutationRight]
  | c :: columns, j, right, h => by
    rw [List.map_cons, List.length_cons, List.range'_succ] at h
    obtain ⟨rfl, h⟩ := List.cons_eq_cons.mp h
    have hstep : permutationRight fixed advice «instance» gamma idx ((c :: columns).map Prod.snd)
        right (d * FieldExt.delta ^ c.1) =
        permutationRight fixed advice «instance» gamma idx (columns.map Prod.snd)
          (right * ((columnValues fixed advice «instance» c.2).getD idx 0 +
            d * FieldExt.delta ^ c.1 + gamma)) (d * FieldExt.delta ^ (c.1 + 1)) := by
      simp only [permutationRight, List.map_cons, List.foldl_cons, pow_succ, mul_assoc]
    rw [hstep, permutationRight_ladder d columns (c.1 + 1) _ h]
    simp only [List.map_cons, List.prod_cons, List.length_cons, mul_assoc, Nat.add_assoc,
      Nat.add_comm 1]

theorem permutationChunks_ladder (lActiveRow : List F) (rNext : Nat) (d : F) :
    ∀ (cks : List (List (Nat × Column))) (sets : List (List F))
      (cosetChunks : List (List (List F))) (value : F) (j m : Nat),
      cks.flatten.map Prod.fst = List.range' j m →
      (permutationChunks fixed advice «instance» beta gamma y idx lActiveRow rNext sets
          (cks.map (List.map Prod.snd)) cosetChunks value (d * FieldExt.delta ^ j)).1 =
        hornerFold y value (((sets.zip cks).zip cosetChunks).map fun x =>
          (x.1.1.getD rNext 0 * (((x.1.2.map Prod.snd).zip x.2).map fun p =>
              (columnValues fixed advice «instance» p.1).getD idx 0 + beta * p.2.getD idx 0 +
                gamma).prod -
            x.1.1.getD idx 0 * (x.1.2.map fun c =>
              (columnValues fixed advice «instance» c.2).getD idx 0 + d * FieldExt.delta ^ c.1 +
                gamma).prod) * lActiveRow.getD idx 0)
  | [], _, _, _, _, _, _ => by simp [permutationChunks]
  | _ :: _, [], _, _, _, _, _ => by simp [permutationChunks]
  | _ :: _, _ :: _, [], _, _, _, _ => by simp [permutationChunks]
  | ck :: cks, z :: sets, cosets :: cosetChunks, value, j, m, h => by
    rw [List.flatten_cons, List.map_append, eq_comm, List.range'_eq_append_iff] at h
    obtain ⟨k, -, hck, hrest⟩ := h
    obtain rfl : k = ck.length := by simpa using (congrArg List.length hck).symm
    simp only [permutationChunks, List.map_cons, List.zip_cons_cons, List.foldl_cons,
      hornerFold_cons]
    rw [permutationRight_ladder fixed advice «instance» gamma idx d ck j _ hck, permutationLeft_eq]
    exact permutationChunks_ladder lActiveRow rNext d cks sets cosetChunks _ (j + ck.length) _ hrest

omit [FieldExt F] in
theorem stitching_eq (l0 : List F) (rLast : Nat) (sets : List (List F)) (value : F) :
    sets.enum.foldl (fun value x =>
      if x.1 ≠ 0 then
        value * y + (x.2.getD idx 0 - (sets.getD (x.1 - 1) []).getD rLast 0) * l0.getD idx 0
      else value) value =
      hornerFold y value ((List.range (sets.length - 1)).map fun i =>
        ((sets.getD (i + 1) []).getD idx 0 - (sets.getD i []).getD rLast 0) * l0.getD idx 0) := by
  cases sets with
  | nil => rfl
  | cons z zs =>
    have hmap : (zs.enumFrom 1).map (fun x =>
        (x.2.getD idx 0 - ((z :: zs).getD (x.1 - 1) []).getD rLast 0) * l0.getD idx 0) =
        (List.range ((z :: zs).length - 1)).map fun i =>
          (((z :: zs).getD (i + 1) []).getD idx 0 - ((z :: zs).getD i []).getD rLast 0) *
            l0.getD idx 0 :=
      List.ext_getElem (by simp) fun i h _ => by
        have hi : i < zs.length := by simpa using h
        simp [List.getElem_enumFrom, List.getD_eq_getElem?_getD, hi]
    rw [hornerFold, ← hmap, List.foldl_map, List.enum_cons, List.foldl_cons,
      if_neg (not_not.mpr rfl)]
    exact List.foldl_ext _ _ _ fun v x hx => if_pos (by have := (List.mem_enumFrom hx).1; omega)

end Row

section Pass

variable (pk : ProvingKey F) (advice «instance» : List (List F)) (beta gamma y : F)
  (sets : List (List F)) (rotScale isize : Int)

/-- One row of the permutation pass, `betaTerm` being the worker's running power of omega. -/
def permutationRow (idx : Nat) (betaTerm value : F) : F :=
  let lastRotation := -toI32 (pk.vk.cs.blindingFactors + 1)
  let chunkLen := pk.vk.cs.degree - 2
  let deltaStart := beta * FieldExt.zeta
  let firstSet := sets.headD []
  let lastSet := sets.getLastD []
  let rNext := getRotationIdx idx 1 rotScale isize
  let rLast := getRotationIdx idx lastRotation rotScale isize
  -- l_0(X) * (1 - z_0(X)) = 0
  let value := value * y + (1 - firstSet.getD idx 0) * pk.l0.getD idx 0
  -- l_last(X) * (z_l(X)^2 - z_l(X)) = 0
  let value := value * y +
    (lastSet.getD idx 0 * lastSet.getD idx 0 - lastSet.getD idx 0) * pk.lLast.getD idx 0
  -- l_0(X) * (z_i(X) - z_{i-1}(\omega^(last) X)) = 0, except for the first set
  let value := sets.enum.foldl (fun value x =>
    if x.1 ≠ 0 then
      value * y + (x.2.getD idx 0 - (sets.getD (x.1 - 1) []).getD rLast 0) * pk.l0.getD idx 0
    else value) value
  (permutationChunks pk.fixedCosets advice «instance» beta gamma y idx pk.lActiveRow rNext sets
    (chunks chunkLen pk.vk.cs.permutation.columns) (chunks chunkLen pk.permutation.cosets) value
    (deltaStart * betaTerm)).1

def permutationStep (betaTerm : F) (idx : Nat) (value : F) : F × F :=
  (permutationRow pk advice «instance» beta gamma y sets rotScale isize idx betaTerm value,
    betaTerm * pk.vk.domain.extendedOmega)

/-- The `right` factor of the `j`-th column: `col_j[idx] + beta * ZETA * omega^idx * DELTA^j + gamma`. -/
def deltaFactor (idx j : Nat) (column : Column) : F :=
  (columnValues pk.fixedCosets advice «instance» column).getD idx 0 +
    beta * FieldExt.zeta * pk.vk.domain.extendedOmega ^ idx * FieldExt.delta ^ j + gamma

def chunkResidual (idx rNext : Nat) (set : List F) (columns : List (Nat × Column))
    (cosets : List (List F)) : F :=
  (set.getD rNext 0 * (((columns.map Prod.snd).zip cosets).map fun p =>
      (columnValues pk.fixedCosets advice «instance» p.1).getD idx 0 + beta * p.2.getD idx 0 +
        gamma).prod -
    set.getD idx 0 * (columns.map fun c => deltaFactor pk advice «instance» beta gamma idx c.1 c.2).prod) *
    pk.lActiveRow.getD idx 0

/-- The permutation residuals at row `idx` in closed form. -/
def permutationResiduals (idx : Nat) : List F :=
  let lastRotation := -toI32 (pk.vk.cs.blindingFactors + 1)
  let chunkLen := pk.vk.cs.degree - 2
  let rNext := getRotationIdx idx 1 rotScale isize
  let rLast := getRotationIdx idx lastRotation rotScale isize
  (1 - (sets.headD []).getD idx 0) * pk.l0.getD idx 0 ::
    ((sets.getLastD []).getD idx 0 ^ 2 - (sets.getLastD []).getD idx 0) * pk.lLast.getD idx 0 ::
    ((List.range (sets.length - 1)).map fun i =>
      ((sets.getD (i + 1) []).getD idx 0 - (sets.getD i []).getD rLast 0) * pk.l0.getD idx 0) ++
    ((sets.zip (chunks chunkLen pk.vk.cs.permutation.columns.enum)).zip
        (chunks chunkLen pk.permutation.cosets)).map fun x =>
      chunkResidual pk advice «instance» beta gamma idx rNext x.1.1 x.1.2 x.2

theorem permutationRow_eq (idx : Nat) (value : F) :
    permutationRow pk advice «instance» beta gamma y sets rotScale isize idx
        (pk.vk.domain.extendedOmega ^ idx) value =
      hornerFold y value (permutationResiduals pk advice «instance» beta gamma sets rotScale isize idx) := by
  obtain ⟨m, hm⟩ := map_fst_flatten_chunks (pk.vk.cs.degree - 2) pk.vk.cs.permutation.columns
  have hl := fun value => permutationChunks_ladder pk.fixedCosets advice «instance» beta gamma y
    idx pk.lActiveRow (getRotationIdx idx 1 rotScale isize)
    (beta * FieldExt.zeta * pk.vk.domain.extendedOmega ^ idx) _ sets
    (chunks (pk.vk.cs.degree - 2) pk.permutation.cosets) value 0 m hm
  simp only [pow_zero, mul_one, ← chunks_map, List.enum_map_snd] at hl
  simp only [permutationRow, permutationResiduals, hornerFold_cons, hornerFold_append,
    stitching_eq, pow_two, hl]
  rfl

theorem permutationStep_good (betaTerm : F) (idx : Nat) (v : F)
    (hs : betaTerm = pk.vk.domain.extendedOmega ^ idx) :
    (permutationStep pk advice «instance» beta gamma y sets rotScale isize betaTerm idx v).1 =
        hornerFold y v (permutationResiduals pk advice «instance» beta gamma sets rotScale isize idx) ∧
      (permutationStep pk advice «instance» beta gamma y sets rotScale isize betaTerm idx v).2 =
        pk.vk.domain.extendedOmega ^ (idx + 1) := by
  subst hs
  exact ⟨permutationRow_eq pk advice «instance» beta gamma y sets rotScale isize idx v,
    (pow_succ _ _).symm⟩

theorem permutationPass_eq (lens order : List Nat) (values : List F)
    (hlens : lens.sum = values.length) :
    parallelPass (fun start => pk.vk.domain.extendedOmega ^ start)
        (permutationStep pk advice «instance» beta gamma y sets rotScale isize) lens order values =
      values.mapIdx fun idx value =>
        hornerFold y value (permutationResiduals pk advice «instance» beta gamma sets rotScale isize idx) :=
  parallelPass_eq (permutationStep_good pk advice «instance» beta gamma y sets rotScale isize)
    (fun _ => rfl) lens order values hlens

end Pass

/-- For every split and interleaving, each worker holds `beta_term = omega^idx` at the row it
writes, so the pass folds into each row the residuals of that row alone. -/
theorem permutation_beta_term_delta_ladder (pk : ProvingKey F) (advice «instance» : List (List F))
    (beta gamma y : F) (sets : List (List F)) (rotScale isize : Int) :
    (∀ (lens order : List Nat) (values : List F),
      ∀ w ∈ Worker.run (permutationStep pk advice «instance» beta gamma y sets rotScale isize)
        (Worker.spawn (fun start => pk.vk.domain.extendedOmega ^ start) 0 lens values) order,
        w.state = pk.vk.domain.extendedOmega ^ (w.start + w.done)) ∧
    (∀ (idx : Nat) (value : F),
      permutationRow pk advice «instance» beta gamma y sets rotScale isize idx
          (pk.vk.domain.extendedOmega ^ idx) value =
        hornerFold y value (permutationResiduals pk advice «instance» beta gamma sets rotScale isize idx)) ∧
    ∀ (values : List F) (split : Split values.length) (order : List Nat),
      parallelPass (fun start => pk.vk.domain.extendedOmega ^ start)
          (permutationStep pk advice «instance» beta gamma y sets rotScale isize) split.lens order
          values =
        values.mapIdx fun idx value =>
          hornerFold y value (permutationResiduals pk advice «instance» beta gamma sets rotScale isize idx) :=
  ⟨fun lens order values => Worker.good_run
      (permutationStep_good pk advice «instance» beta gamma y sets rotScale isize) (fun _ => rfl)
      lens order values,
    permutationRow_eq pk advice «instance» beta gamma y sets rotScale isize,
    fun values split order => permutationPass_eq pk advice «instance» beta gamma y sets rotScale
      isize split.lens order values split.sum_eq⟩

end PlonkEvaluation
