import PlonkEvaluation.Syntax

/-! The data `evaluate_h` reads besides the evaluator: the proving key, and what each proof has
committed to.  Polynomials are their lists of values. -/

namespace PlonkEvaluation

/-- The field constants the permutation argument uses (`ZETA` and `DELTA`). -/
class FieldExt (F : Type) where
  zeta : F
  delta : F

/-- The evaluation domain: `2^k` rows, extended to `2^extended_k`, with the extended root of unity
and `coeff_to_extended`, computed outside this file. -/
structure EvaluationDomain (F : Type) where
  k : Nat
  extendedK : Nat
  extendedOmega : F
  coeffToExtended : List F → List F

def EvaluationDomain.extendedLen {F : Type} (domain : EvaluationDomain F) : Nat :=
  2 ^ domain.extendedK

def EvaluationDomain.emptyExtended {F : Type} [Zero F] (domain : EvaluationDomain F) : List F :=
  List.replicate domain.extendedLen 0

/-- `rot_scale` of `evaluate_h`: `1 << (extended_k - k)`, an `i32`. -/
def EvaluationDomain.rotScale {F : Type} (domain : EvaluationDomain F) : Int :=
  toI32 (2 ^ (domain.extendedK - domain.k))

structure VerifyingKey (F : Type) where
  domain : EvaluationDomain F
  cs : ConstraintSystem F

structure Permutation.ProvingKey (F : Type) where
  cosets : List (List F)

/-- The proving key; its polynomials are on the extended coset. -/
structure ProvingKey (F : Type) where
  vk : VerifyingKey F
  l0 : List F
  lLast : List F
  lActiveRow : List F
  fixedCosets : List (List F)
  permutation : Permutation.ProvingKey F

/-- What a proof has committed to for one lookup, in the coefficient basis. -/
structure Lookup.Committed (F : Type) where
  permutedInputPoly : List F
  permutedTablePoly : List F
  productPoly : List F

structure Permutation.CommittedSet (F : Type) where
  permutationProductCoset : List F

structure Permutation.Committed (F : Type) where
  sets : List (Permutation.CommittedSet F)

/-- The coset of a column, chosen by its type (`col_vals`). -/
def columnValues {F : Type} (fixed advice «instance» : List (List F)) (column : Column) :
    List F :=
  match column.columnType with
  | .advice => advice.getD column.index []
  | .fixed => fixed.getD column.index []
  | .«instance» => «instance».getD column.index []

variable {F : Type} [CommRing F]

/-- The sequential Horner fold `v ← v * y + c` of the residuals into the value `v`. -/
def hornerFold (y value : F) (residuals : List F) : F :=
  residuals.foldl (fun v c => v * y + c) value

@[simp] theorem hornerFold_nil (y value : F) : hornerFold y value [] = value := rfl

@[simp] theorem hornerFold_cons (y value c : F) (residuals : List F) :
    hornerFold y value (c :: residuals) = hornerFold y (value * y + c) residuals := rfl

@[simp] theorem hornerFold_append (y value : F) (rs rs' : List F) :
    hornerFold y value (rs ++ rs') = hornerFold y (hornerFold y value rs) rs' :=
  List.foldl_append _ _ _ _

theorem hornerFold_flatten (y : F) :
    ∀ (rss : List (List F)) (value : F), hornerFold y value rss.flatten = rss.foldl (hornerFold y) value
  | [], _ => rfl
  | rs :: rss, value => by
    rw [List.flatten_cons, hornerFold_append, List.foldl_cons, hornerFold_flatten y rss]

end PlonkEvaluation
