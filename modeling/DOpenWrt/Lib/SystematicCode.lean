import Mathlib.Data.Matrix.ColumnRowPartitioned
import Mathlib.LinearAlgebra.Matrix.NonsingularInverse
import Mathlib.LinearAlgebra.Vandermonde

/-!
# Systematic linear erasure codes

`k` data blocks and `m` parity blocks, the parity blocks being `G` times the data. Received blocks
are picked by `idx`; a left inverse of the picked rows recovers the data (`recover`). For parity
rows `V_b * V_a⁻¹` with distinct Vandermonde nodes every choice of `k` distinct rows is invertible
(`det_pick_ne_zero`): the code is maximum-distance separable.
-/

namespace SystematicCode
open Matrix

variable {F ι : Type*} [Field F] {k m : ℕ}

/-- The rows of the code: the identity for the data blocks over `G` for the parity blocks. -/
def rows (G : Matrix (Fin m) (Fin k) F) : Matrix (Fin k ⊕ Fin m) (Fin k) F := fromRows 1 G

/-- The rows picked by `idx`. -/
def pick (G : Matrix (Fin m) (Fin k) F) (idx : ι → Fin k ⊕ Fin m) : Matrix ι (Fin k) F :=
  (rows G).submatrix idx id

/-- All blocks of the code word of `X`: the data blocks, then the parity blocks. -/
def encode (G : Matrix (Fin m) (Fin k) F) {σ : Type*} (X : Matrix (Fin k) σ F) :
    Matrix (Fin k ⊕ Fin m) σ F := fromRows X (G * X)

theorem pick_mul (G : Matrix (Fin m) (Fin k) F) (idx : ι → Fin k ⊕ Fin m) {σ : Type*}
    (X : Matrix (Fin k) σ F) : pick G idx * X = (encode G X).submatrix idx id := by
  have h : rows G * X = encode G X := by rw [rows, fromRows_mul, Matrix.one_mul, encode]
  rw [← h]; rfl

/-- The received blocks times a left inverse of the received rows are the data. -/
theorem recover {G : Matrix (Fin m) (Fin k) F} {idx : Fin k → Fin k ⊕ Fin m}
    {N : Matrix (Fin k) (Fin k) F} (hN : N * pick G idx = 1) {σ : Type*} (X : Matrix (Fin k) σ F) :
    N * (encode G X).submatrix idx id = X := by
  rw [← pick_mul, ← Matrix.mul_assoc, hN, Matrix.one_mul]

/-- Row `i` lists the first `k` powers of the node `v i`. -/
def powers (k : ℕ) (v : ι → F) : Matrix ι (Fin k) F := of fun i j => v i ^ (j : ℕ)

theorem det_powers_ne_zero {v : Fin k → F} (hv : Function.Injective v) : (powers k v).det ≠ 0 :=
  det_vandermonde_ne_zero_iff.2 hv

/-- Times the data nodes' Vandermonde matrix, the rows of the code are Vandermonde rows. -/
theorem rows_mul_powers {a : Fin k → F} (b : Fin m → F) (ha : Function.Injective a) :
    rows (powers k b * (powers k a)⁻¹) * powers k a = powers k (Sum.elim a b) := by
  have hu : IsUnit (powers k a).det := isUnit_iff_ne_zero.2 (det_powers_ne_zero ha)
  rw [rows, fromRows_mul, Matrix.one_mul, Matrix.mul_assoc, nonsing_inv_mul _ hu, Matrix.mul_one]
  ext i j
  rcases i with i | i <;> rfl

/-- Any `k` distinct rows of a Vandermonde systematic code with distinct nodes are independent. -/
theorem det_pick_ne_zero {a : Fin k → F} {b : Fin m → F} (hab : Function.Injective (Sum.elim a b))
    {idx : Fin k → Fin k ⊕ Fin m} (hidx : Function.Injective idx) :
    (pick (powers k b * (powers k a)⁻¹) idx).det ≠ 0 := by
  have ha : Function.Injective a := fun i j h => Sum.inl_injective (hab h)
  have hprod : pick (powers k b * (powers k a)⁻¹) idx * powers k a =
      powers k (Sum.elim a b ∘ idx) := by
    have h := congrArg (fun M => M.submatrix idx id) (rows_mul_powers b ha)
    exact h
  have hdet := det_powers_ne_zero (hab.comp hidx)
  rw [← hprod, det_mul] at hdet
  exact left_ne_zero_of_mul hdet

end SystematicCode
