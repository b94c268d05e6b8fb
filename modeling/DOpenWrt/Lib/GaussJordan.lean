import Mathlib.LinearAlgebra.Matrix.NonsingularInverse
import Mathlib.Tactic.LinearCombination

/-!
# In-place Gauss–Jordan inversion over a field

One array `M` holds both halves of the augmented matrix `[A | 1]`. After the pivots `piv`, the
row operations made so far have a product `E`; a column of `M` that is not pivoted yet still shows
`E * A`, a pivoted column `c` (where `E * A` is a unit vector) is reused for column `τ c` of `E`,
`τ` being the product of the row swaps. `Invariant` states this, and the rules below are what one swap
and one pivot do to it, what a zero row among the unpivoted ones means, and what is left when every
column is pivoted.
-/

namespace GaussJordan
open Matrix Equiv

section Swaps
variable {F n : Type*} [DecidableEq n]

/-- Rows `p` and `q` exchanged. -/
def swapRows (p q : n) (M : Matrix n n F) : Matrix n n F := M.submatrix (swap p q) id

/-- Columns `p` and `q` exchanged. -/
def swapCols (p q : n) (M : Matrix n n F) : Matrix n n F := M.submatrix id (swap p q)

/-- Undoing the recorded swaps, the last one first, undoes their product on the columns. -/
theorem foldr_swapCols (ps : List (n × n)) (M : Matrix n n F) :
    ps.foldr (fun p M => swapCols p.1 p.2 M) M =
      M.submatrix id ((ps.map fun p => swap p.1 p.2).prod⁻¹ : Perm n) := by
  induction ps with
  | nil => simp
  | cons p ps ih =>
    have hinv : ((p :: ps).map fun p => swap p.1 p.2).prod⁻¹ =
        (ps.map fun p => swap p.1 p.2).prod⁻¹ * swap p.1 p.2 := by
      rw [List.map_cons, List.prod_cons, ← swap_inv p.1 p.2]
      exact mul_inv_rev _ _
    rw [List.foldr_cons, ih, hinv]
    rfl

end Swaps

variable {F n : Type*} [Field F] [Fintype n] [DecidableEq n]

/-- Row `c` times `(M c c)⁻¹`, the pivot cell taken as `1`. -/
def normalize (c : n) (M : Matrix n n F) : Matrix n n F := of fun i j =>
  if i = c then (if j = c then 1 else M c j) * (M c c)⁻¹ else M i j

/-- Column `c` cleared outside row `c`, its cells taken as `0`. -/
def eliminate (c : n) (M : Matrix n n F) : Matrix n n F := of fun i j =>
  if i = c then M i j else (if j = c then 0 else M i j) - M i c * M c j

/-- The column that multiplies row `c` by `(v c)⁻¹` and subtracts it from the others. -/
def pivotCol (c : n) (v : n → F) : n → F := fun i => if i = c then (v c)⁻¹ else -(v i * (v c)⁻¹)

/-- The row operation with column `w` at `c`. -/
def rowOp (c : n) (w : n → F) : Matrix n n F := (1 : Matrix n n F).updateCol c w

theorem det_rowOp (c : n) (w : n → F) : (rowOp c w).det = w c := by
  rw [rowOp, ← cramer_apply, cramer_one]; rfl

theorem rowOp_mul (c : n) (w : n → F) (B : Matrix n n F) (i j : n) :
    (rowOp c w * B) i j = (if i = c then 0 else B i j) + w i * B c j := by
  have hsplit : ∀ k, rowOp c w i k * B k j =
      (if k = i then (if i = c then 0 else B i j) else 0) + (if k = c then w i * B c j else 0) := by
    intro k
    by_cases hkc : k = c
    · subst hkc; by_cases hki : k = i
      · subst hki; simp [rowOp]
      · simp [rowOp, hki]
    · by_cases hki : k = i
      · subst hki; simp [rowOp, hkc]
      · simp [rowOp, hkc, hki, one_apply_ne' hki]
  rw [mul_apply, Finset.sum_congr rfl fun k _ => hsplit k, Finset.sum_add_distrib]
  simp

/-- `eliminate` after `normalize` is the row operation, except that column `c` receives the
operation's own column. -/
theorem eliminate_normalize (c : n) (M : Matrix n n F) (i j : n) :
    eliminate c (normalize c M) i j =
      if j = c then pivotCol c (fun r => M r c) i
      else (rowOp c (pivotCol c fun r => M r c) * M) i j := by
  rw [rowOp_mul]
  by_cases hi : i = c <;> by_cases hj : j = c <;>
    simp only [eliminate, normalize, pivotCol, of_apply, hi, hj, ↓reduceIte] <;> ring

/-- The state of the inversion of `A` after pivoting the columns `piv`. -/
structure Invariant (A M : Matrix n n F) (piv : Finset n) (τ : Perm n) (E : Matrix n n F) : Prop where
  det : E.det ≠ 0
  /-- Pivoted columns of `E * A` are unit vectors. -/
  unit : ∀ c ∈ piv, ∀ i, (E * A) i c = (1 : Matrix n n F) i c
  /-- Pivoted columns of `M` hold `E`. -/
  stored : ∀ c ∈ piv, ∀ i, M i c = E i (τ c)
  /-- The other columns of `M` hold `E * A`. -/
  shown : ∀ c ∉ piv, ∀ i, M i c = (E * A) i c
  /-- and `E` is still a unit vector there. -/
  fresh : ∀ c ∉ piv, ∀ i, E i (τ c) = (1 : Matrix n n F) i c

theorem Invariant.init (A : Matrix n n F) : Invariant A A ∅ 1 1 where
  det := by simp
  unit := by simp
  stored := by simp
  shown := by simp
  fresh _ _ _ := rfl

namespace Invariant
variable {A M E : Matrix n n F} {piv : Finset n} {τ : Perm n}

/-- Swapping two unpivoted rows. -/
theorem swapRows (h : Invariant A M piv τ E) {p q : n} (hp : p ∉ piv) (hq : q ∉ piv) :
    Invariant A (swapRows p q M) piv (τ * swap p q) (GaussJordan.swapRows p q E) := by
  have hmul : ∀ i c, (GaussJordan.swapRows p q E * A) i c = (E * A) (swap p q i) c := fun _ _ => rfl
  have hfix : ∀ c ∈ piv, swap p q c = c := fun c hc =>
    swap_apply_of_ne_of_ne (fun h => hp (h ▸ hc)) (fun h => hq (h ▸ hc))
  have hmem : ∀ c, c ∉ piv → swap p q c ∉ piv := fun c hc hs => by
    rw [← swap_apply_self p q c, hfix _ hs] at hc; exact hc hs
  have hone : ∀ i c, (1 : Matrix n n F) (swap p q i) (swap p q c) = (1 : Matrix n n F) i c :=
    fun i c => by simp [one_apply]
  refine ⟨?_, fun c hc i => ?_, fun c hc i => ?_, fun c hc i => ?_, fun c hc i => ?_⟩
  · have : (GaussJordan.swapRows p q E).det = Perm.sign (swap p q) * E.det := det_permute _ _
    rw [this]
    exact mul_ne_zero (by rcases Int.units_eq_one_or (Perm.sign (swap p q)) with h | h <;> simp [h]) h.det
  · rw [hmul, h.unit c hc, ← hone i c, hfix c hc]
  · rw [Perm.mul_apply, hfix c hc]; exact h.stored c hc _
  · rw [hmul]; exact h.shown c hc _
  · rw [Perm.mul_apply, ← hone i c]; exact h.fresh _ (hmem c hc) _

/-- Pivoting an unpivoted column at a nonzero diagonal cell. -/
theorem pivot (h : Invariant A M piv τ E) {c : n} (hc : c ∉ piv) (h0 : M c c ≠ 0) :
    Invariant A (eliminate c (normalize c M)) (insert c piv) τ (rowOp c (pivotCol c fun r => M r c) * E) := by
  set v : n → F := fun r => M r c with hv
  set w := pivotCol c v with hw
  have hwc : w c = (v c)⁻¹ := by simp [hw, pivotCol]
  have hvA : ∀ i, v i = (E * A) i c := fun i => h.shown c hc i
  have hmulA : ∀ i j, (rowOp c w * E * A) i j = (rowOp c w * (E * A)) i j := fun i j => by
    rw [Matrix.mul_assoc]
  -- the row operation fixes the unit vectors of the other columns
  have hfix : ∀ (B : Matrix n n F) (x : n) (j : n), x ≠ c → (∀ i, B i j = (1 : Matrix n n F) i x) →
      ∀ i, (rowOp c w * B) i j = (1 : Matrix n n F) i x := fun B x j hx hB i => by
    rw [rowOp_mul, hB c, hB i, one_apply_ne (Ne.symm hx)]
    by_cases hi : i = c
    · subst hi; simp [one_apply_ne (Ne.symm hx)]
    · simp [hi]
  have hM : ∀ i j, eliminate c (normalize c M) i j = if j = c then w i else (rowOp c w * M) i j :=
    eliminate_normalize c M
  have hcol : ∀ (B : Matrix n n F) (j j' : n), (∀ i, M i j = B i j') → ∀ i, (rowOp c w * M) i j =
      (rowOp c w * B) i j' := fun B j j' hB i => by rw [rowOp_mul, rowOp_mul, hB c, hB i]
  refine ⟨?_, fun x hx i => ?_, fun x hx i => ?_, fun x hx i => ?_, fun x hx i => ?_⟩
  · rw [det_mul, det_rowOp, hwc]; exact mul_ne_zero (inv_ne_zero h0) h.det
  · rw [hmulA]
    rcases Finset.mem_insert.1 hx with rfl | hx
    · rw [rowOp_mul, ← hvA, ← hvA]
      by_cases hi : i = x
      · subst hi; simp [hwc, inv_mul_cancel₀ (show v i ≠ 0 from h0)]
      · have hwi : w i = -(v i * (v x)⁻¹) := by simp [hw, pivotCol, hi]
        rw [hwi, one_apply_ne hi]
        have : (v x)⁻¹ * v x = 1 := inv_mul_cancel₀ h0
        simp only [hi, ↓reduceIte]
        linear_combination (-v i) * this
    · exact hfix _ x x (fun hxc => hc (hxc ▸ hx)) (h.unit x hx) i
  · rw [hM]
    rcases Finset.mem_insert.1 hx with rfl | hx
    · rw [if_pos rfl, rowOp_mul, h.fresh x hc, h.fresh x hc]
      by_cases hi : i = x <;> simp [hi]
    · rw [if_neg fun hxc : x = c => hc (hxc ▸ hx)]
      exact hcol E x (τ x) (h.stored x hx) i
  · obtain ⟨hxc, hxp⟩ : x ≠ c ∧ x ∉ piv := by simpa [not_or] using hx
    rw [hM, if_neg hxc, hmulA]
    exact hcol (E * A) x x (h.shown x hxp) i
  · obtain ⟨hxc, hxp⟩ : x ≠ c ∧ x ∉ piv := by simpa [not_or] using hx
    exact hfix E x (τ x) hxc (h.fresh x hxp) i

/-- An unpivoted row that is zero on the unpivoted columns shows that `A` is singular. -/
theorem singular (h : Invariant A M piv τ E) {r : n} (hr : r ∉ piv) (h0 : ∀ c ∉ piv, M r c = 0) :
    A.det = 0 := by
  have hrow : ∀ c, (E * A) r c = 0 := fun c => by
    by_cases hc : c ∈ piv
    · rw [h.unit c hc, one_apply_ne fun hrc : r = c => hr (hrc ▸ hc)]
    · rw [← h.shown c hc, h0 c hc]
  have hdet : (E * A).det = 0 := det_eq_zero_of_row_eq_zero r hrow
  rw [det_mul] at hdet
  exact (mul_eq_zero.1 hdet).resolve_left h.det

/-- When every column is pivoted, `M` is the inverse with its columns permuted by `τ`. -/
theorem final (h : Invariant A M Finset.univ τ E) : A.det ≠ 0 ∧ M = A⁻¹.submatrix id τ := by
  have hEA : E * A = 1 := by ext i c; exact h.unit c (Finset.mem_univ c) i
  have hA : A⁻¹ = E := inv_eq_left_inv hEA
  refine ⟨fun h0 => ?_, ?_⟩
  · have := congrArg Matrix.det hEA
    rw [det_mul, h0] at this; simp at this
  · rw [hA]; ext i c; exact h.stored c (Finset.mem_univ c) i

end Invariant

end GaussJordan
