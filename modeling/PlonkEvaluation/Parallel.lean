import Mathlib.Data.List.Forall2
import Mathlib.Algebra.Order.Ring.Nat
import Mathlib.Data.PNat.Basic

/-! The parallel passes of `evaluate_h`.  `chunks_mut` hands each contiguous chunk to a worker,
which runs over its rows in order with a state of its own; the scope joins every worker.  A row
is one step: the body writes `*value` several times, but only into the worker's own chunk, which
no other worker reads before the join.  If each row gets `f idx` whenever the worker's state is
good for it, every split and every interleaving leave `f idx` at every row. -/

namespace PlonkEvaluation

/-- A worker: the row its chunk starts at, the chunk, how many rows it has written, its state. -/
structure Worker (α S : Type) where
  start : Nat
  chunk : List α
  done : Nat
  state : S

namespace Worker

variable {α S : Type}

/-- `chunks_mut(..).enumerate()`: workers over consecutive chunks of the given lengths. -/
def spawn (init : Nat → S) : Nat → List Nat → List α → List (Worker α S)
  | _, [], _ => []
  | start, len :: lens, values =>
    ⟨start, values.take len, 0, init start⟩ :: spawn init (start + len) lens (values.drop len)

/-- The worker runs its body on its next row, `start + done`, if it has one left. -/
def step (body : S → Nat → α → α × S) (w : Worker α S) : Worker α S :=
  match w.chunk[w.done]? with
  | some value =>
    ⟨w.start, w.chunk.set w.done (body w.state (w.start + w.done) value).1, w.done + 1,
      (body w.state (w.start + w.done) value).2⟩
  | none => w

/-- The workers after stepping in the order `order`; a done worker or a missing name does nothing. -/
def run (body : S → Nat → α → α × S) (workers : List (Worker α S)) (order : List Nat) :
    List (Worker α S) :=
  order.foldl (fun workers k => workers.modify (step body) k) workers

def finish (body : S → Nat → α → α × S) (w : Worker α S) : Worker α S :=
  (step body)^[w.chunk.length - w.done] w

end Worker

variable {α S : Type}

/-- A parallel pass: chunks of lengths `lens`, steps in the order `order`, then the join. -/
def parallelPass (init : Nat → S) (body : S → Nat → α → α × S) (lens order : List Nat)
    (values : List α) : List α :=
  ((Worker.run body (Worker.spawn init 0 lens values) order).map
    fun w => (w.finish body).chunk).flatten

structure Split (n : Nat) where
  lens : List Nat
  sum_eq : lens.sum = n

/-- The lengths of the chunks `chunks_mut(chunk_size)` cuts `rows` rows into. -/
def chunkLens (chunkSize : Nat) : Nat → Nat → List Nat
  | 0, _ => []
  | fuel + 1, rows =>
    if rows = 0 then [] else min chunkSize rows :: chunkLens chunkSize fuel (rows - chunkSize)

theorem sum_chunkLens {chunkSize : Nat} (hc : 0 < chunkSize) :
    ∀ {fuel rows : Nat}, rows ≤ fuel → (chunkLens chunkSize fuel rows).sum = rows
  | 0, rows, h => by rw [Nat.le_zero.mp h]; rfl
  | fuel + 1, rows, h => by
    rw [chunkLens]
    split_ifs with h0
    · exact h0.symm
    · rw [List.sum_cons, sum_chunkLens hc (by omega)]
      omega

theorem length_chunkLens {chunkSize : Nat} (hc : 0 < chunkSize) :
    ∀ {fuel rows : Nat}, rows ≤ fuel →
      (chunkLens chunkSize fuel rows).length = (rows + chunkSize - 1) / chunkSize
  | 0, rows, h => by rw [Nat.le_zero.mp h, Nat.div_eq_of_lt (by omega)]; rfl
  | fuel + 1, rows, h => by
    rw [chunkLens]
    split_ifs with h0
    · rw [h0, Nat.div_eq_of_lt (by omega)]; rfl
    · rw [List.length_cons, length_chunkLens hc (by omega),
        show rows + chunkSize - 1 = rows - 1 + chunkSize by omega, Nat.add_div_right _ hc]
      rcases le_or_lt chunkSize rows with hle | hlt
      · congr 2; omega
      · rw [Nat.div_eq_of_lt (by omega), Nat.div_eq_of_lt (by omega)]

/-- With `chunk_size = (size + num_threads - 1) / num_threads`, `chunks_mut` cuts the rows into at
most `num_threads` chunks. -/
theorem chunks_mut_at_most_num_threads (numThreads : ℕ+) (rows : Nat) :
    (chunkLens ((rows + numThreads - 1) / numThreads) rows rows).length ≤ numThreads := by
  rcases Nat.eq_zero_or_pos rows with rfl | hrows
  · exact Nat.zero_le _
  have hn := numThreads.pos
  have hcover : rows ≤ (rows + numThreads - 1) / numThreads * numThreads := by
    have := Nat.lt_div_mul_add (a := rows + numThreads - 1) hn
    omega
  have hc : 0 < (rows + numThreads - 1) / numThreads := Nat.div_pos (by omega) hn
  rw [length_chunkLens hc le_rfl, ← Nat.lt_succ_iff, Nat.div_lt_iff_lt_mul hc, Nat.succ_mul,
    Nat.mul_comm]
  omega

example : (chunkLens ((9 + 4 - 1) / 4) 9 9).length = 3 := rfl

section Written

variable {Good : S → Nat → Prop} {f : Nat → α → α} {init : Nat → S}
  {body : S → Nat → α → α × S}

structure Worker.Written (Good : S → Nat → Prop) (f : Nat → α → α) (w w₀ : Worker α S) :
    Prop where
  start_eq : w.start = w₀.start
  done_le : w.done ≤ w₀.chunk.length
  good : Good w.state (w.start + w.done)
  chunk_eq : w.chunk = w₀.chunk.mapIdx fun i v => if i < w.done then f (w.start + i) v else v

theorem Worker.written_spawn (hinit : ∀ start, Good (init start) start) :
    ∀ (start : Nat) (lens : List Nat) (values : List α),
      List.Forall₂ (Worker.Written Good f) (Worker.spawn init start lens values)
        (Worker.spawn init start lens values)
  | _, [], _ => .nil
  | start, len :: lens, values =>
    .cons ⟨rfl, Nat.zero_le _, hinit start,
        List.ext_getElem (by simp) fun _ _ _ => by simp⟩
      (written_spawn hinit (start + len) lens (values.drop len))

variable (hbody : ∀ s idx v, Good s idx → (body s idx v).1 = f idx v ∧ Good (body s idx v).2 (idx + 1))
include hbody

theorem Worker.Written.step {w w₀ : Worker α S} (hw : w.Written Good f w₀) :
    (w.step body).Written Good f w₀ := by
  obtain ⟨start, _, done, state⟩ := w
  obtain ⟨hs, hd, hg, hc⟩ := hw
  dsimp only at hs hd hg hc
  subst hc
  cases hv : w₀.chunk[done]? with
  | none => simpa only [Worker.step, List.getElem?_mapIdx, hv] using ⟨hs, hd, hg, rfl⟩
  | some v =>
    obtain ⟨hf, hg'⟩ := hbody state _ v hg
    have hlt : done < w₀.chunk.length := (List.getElem?_eq_some_iff.mp hv).1
    simp only [Worker.step, List.getElem?_mapIdx, hv, Option.map_some', lt_irrefl, if_false, hf]
    refine ⟨hs, hlt, hg', List.ext_getElem? fun i => ?_⟩
    simp only [List.getElem?_set, List.getElem?_mapIdx, List.length_mapIdx]
    by_cases hi : done = i
    · subst hi
      simp [hlt, hv]
    · simp only [if_neg hi, show i < done + 1 ↔ i < done by omega]

theorem Worker.Written.finish {w w₀ : Worker α S} (hw : w.Written Good f w₀) :
    (w.finish body).chunk = w₀.chunk.mapIdx fun i v => f (w₀.start + i) v := by
  suffices ∀ m (w : Worker α S), w.Written Good f w₀ → m = w.chunk.length - w.done →
      ((Worker.step body)^[m] w).Written Good f w₀ ∧
        ((Worker.step body)^[m] w).done = w₀.chunk.length by
    obtain ⟨hw', hd⟩ := this _ w hw rfl
    rw [Worker.finish, hw'.chunk_eq, hd, hw'.start_eq]
    exact List.ext_getElem (by simp) fun i _ h => by simp [show i < w₀.chunk.length by simpa using h]
  intro m
  induction m with
  | zero =>
    intro w hw hm
    have := hw.done_le
    exact ⟨hw, show w.done = _ by rw [hw.chunk_eq, List.length_mapIdx] at hm; omega⟩
  | succ m ih =>
    intro w hw hm
    have hlen : w.chunk.length = w₀.chunk.length := by rw [hw.chunk_eq, List.length_mapIdx]
    obtain ⟨v, hv⟩ := Option.ne_none_iff_exists'.mp
      (List.getElem?_eq_none_iff.not.mpr (by omega : ¬w.chunk.length ≤ w.done))
    refine ih _ (hw.step hbody) ?_
    simp only [Worker.step, hv, List.length_set]
    omega

omit hbody in
theorem forall₂_modify {β : Type} {R : α → β → Prop} {g : α → α} (hg : ∀ a b, R a b → R (g a) b) :
    ∀ {l : List α} {l' : List β}, List.Forall₂ R l l' → ∀ k, List.Forall₂ R (l.modify g k) l'
  | _, _, .nil, k => by rw [List.modify_nil]; exact .nil
  | _, _, .cons h hl, 0 => by rw [List.modify_zero_cons]; exact .cons (hg _ _ h) hl
  | _, _, .cons h hl, k + 1 => by
    rw [List.modify_succ_cons]; exact .cons h (forall₂_modify hg hl k)

theorem Worker.written_run {workers workers₀ : List (Worker α S)}
    (h : List.Forall₂ (Worker.Written Good f) workers workers₀) (order : List Nat) :
    List.Forall₂ (Worker.Written Good f) (Worker.run body workers order) workers₀ := by
  induction order generalizing workers with
  | nil => exact h
  | cons k order ih =>
    exact ih (forall₂_modify (fun _ _ hw => Worker.Written.step hbody hw) h k)

omit hbody in
private theorem exists_of_forall₂ {β : Type} {R : α → β → Prop} :
    ∀ {l : List α} {l' : List β}, List.Forall₂ R l l' → ∀ a ∈ l, ∃ b, R a b
  | _, _, .nil, _, h => absurd h (List.not_mem_nil _)
  | _, _, .cons hab hl, a, h =>
    (List.mem_cons.mp h).elim (fun h => ⟨_, h ▸ hab⟩) (exists_of_forall₂ hl a)

omit hbody in
theorem flatten_spawn (init : Nat → S) :
    ∀ (start : Nat) (lens : List Nat) (values : List α), lens.sum ≤ values.length →
      ((Worker.spawn init start lens values).map
          fun w => w.chunk.mapIdx fun i v => f (w.start + i) v).flatten =
        (values.take lens.sum).mapIdx fun i v => f (start + i) v
  | _, [], _, _ => by simp [Worker.spawn]
  | start, len :: lens, values, h => by
    rw [List.sum_cons] at h
    rw [Worker.spawn, List.map_cons, List.flatten_cons,
      flatten_spawn init (start + len) lens (values.drop len) (by rw [List.length_drop]; omega),
      List.sum_cons, List.take_add, List.mapIdx_append, List.length_take,
      Nat.min_eq_left (by omega)]
    simp only [Nat.add_assoc, Nat.add_comm len]

theorem Worker.good_run (hinit : ∀ start, Good (init start) start) (lens order : List Nat)
    (values : List α) :
    ∀ w ∈ Worker.run body (Worker.spawn init 0 lens values) order, Good w.state (w.start + w.done) := by
  intro w hw
  obtain ⟨_, hw'⟩ := exists_of_forall₂ (Worker.written_run hbody
    (Worker.written_spawn hinit 0 lens values) order) w hw
  exact hw'.good

theorem parallelPass_eq (hinit : ∀ start, Good (init start) start) (lens order : List Nat)
    (values : List α) (hlens : lens.sum = values.length) :
    parallelPass init body lens order values = values.mapIdx f := by
  have hrun := Worker.written_run hbody (Worker.written_spawn hinit 0 lens values) order
  have hmap : (Worker.run body (Worker.spawn init 0 lens values) order).map
      (fun w => (w.finish body).chunk) = (Worker.spawn init 0 lens values).map
      (fun w => w.chunk.mapIdx fun i v => f (w.start + i) v) := by
    rw [← List.forall₂_eq_eq_eq, List.forall₂_map_left_iff, List.forall₂_map_right_iff]
    exact hrun.imp fun _ _ hw => hw.finish hbody
  rw [parallelPass, hmap, flatten_spawn init 0 lens values hlens.le, hlens, List.take_length]
  simp

end Written

end PlonkEvaluation
