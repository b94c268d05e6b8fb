import Mathlib.Algebra.CharP.Two
import Mathlib.Algebra.Field.ZMod
import Mathlib.FieldTheory.Finiteness
import Mathlib.RingTheory.AdjoinRoot
import Mathlib.Tactic.ComputeDegree
import DOpenWrt.Rtp2httpd.RsFecSpec

/-!
# The field of the tables

`GF256`, whose product is what the tables say, is the ring of polynomials over two elements modulo
`x^8+x^4+x^3+x^2+1`, a byte being the polynomial with its bits as coefficients. So `matrix_inv_gf256` inverts over that
ring.
-/

namespace Rtp2httpd
open Polynomial

/-- The polynomial that `RS_MODULUS` stands for. -/
noncomputable def rsPolynomial : (ZMod 2)[X] := X ^ 8 + X ^ 4 + X ^ 3 + X ^ 2 + 1

/-- The polynomial with the bits of a byte as coefficients, modulo `rsPolynomial`. -/
noncomputable def fieldElement (b : UInt8) : AdjoinRoot rsPolynomial :=
  ∑ i ∈ Finset.range 8, if b.toNat.testBit i then AdjoinRoot.root rsPolynomial ^ i else 0

theorem rsPolynomial_monic : rsPolynomial.Monic := by
  unfold rsPolynomial
  monicity!

theorem natDegree_rsPolynomial : rsPolynomial.natDegree = 8 := by
  unfold rsPolynomial
  compute_degree!

/-! ### The map to bytes -/

instance : CharP GF256 2 := CharTwo.of_one_ne_zero_of_two_eq_zero one_ne_zero (GF256.ext (by decide))

/-- A byte by its number. -/
def byteIndex (a : GF256) : Fin 256 := ⟨a.byte.toNat, a.byte.toNat_lt⟩

theorem byteIndex_injective : Function.Injective byteIndex := fun _ _ h =>
  GF256.ext (UInt8.toNat_inj.1 (congrArg Fin.val h))

theorem byteIndex_surjective : Function.Surjective byteIndex := fun i =>
  ⟨⟨UInt8.ofNat i⟩, Fin.ext (UInt8.toNat_ofNat_of_lt' i.isLt)⟩

theorem card_GF256 : Nat.card GF256 = 256 := by
  rw [Nat.card_congr (Equiv.ofBijective byteIndex ⟨byteIndex_injective, byteIndex_surjective⟩), Nat.card_fin]

theorem pow_two_eq (i : ℕ) (hi : i < 255) : (⟨2⟩ : GF256) ^ i = ⟨rsExp i⟩ := by
  rw [← GF256.mk_rsExp_mod, Nat.mod_eq_of_lt hi]

theorem eval_rsPolynomial (f : ZMod 2 →+* GF256) : rsPolynomial.eval₂ f ⟨2⟩ = 0 := by
  rw [rsPolynomial]
  simp only [eval₂_add, eval₂_X_pow, eval₂_one, pow_two_eq 8 (by decide), pow_two_eq 4 (by decide),
    pow_two_eq 3 (by decide), pow_two_eq 2 (by decide), ← GF256.mk_one, ← GF256.mk_xor]
  exact GF256.ext (by decide +kernel)

noncomputable def toByte : AdjoinRoot rsPolynomial →+* GF256 :=
  AdjoinRoot.lift (ZMod.castHom (dvd_refl 2) GF256) ⟨2⟩ (eval_rsPolynomial _)

theorem toByte_root : toByte (AdjoinRoot.root rsPolynomial) = ⟨2⟩ := AdjoinRoot.lift_root (eval_rsPolynomial _)

theorem toByte_surjective : Function.Surjective toByte := by
  intro a
  by_cases ha : a = 0
  · exact ⟨0, by rw [map_zero, ha]⟩
  · obtain ⟨i, hi, hbyte⟩ := exists_iterate_xtime a.byte fun h => ha (GF256.ext h)
    refine ⟨AdjoinRoot.root rsPolynomial ^ i, ?_⟩
    rw [map_pow, toByte_root, pow_two_eq i hi, rsExp_eq i hi, hbyte]

theorem card_adjoinRoot : Nat.card (AdjoinRoot rsPolynomial) = 256 := by
  have : Module.Finite (ZMod 2) (AdjoinRoot rsPolynomial) := rsPolynomial_monic.finite_adjoinRoot
  have hrank : Module.finrank (ZMod 2) (AdjoinRoot rsPolynomial) = 8 := by
    rw [(AdjoinRoot.powerBasis' rsPolynomial_monic).finrank, AdjoinRoot.powerBasis'_dim, natDegree_rsPolynomial]
  rw [Module.natCard_eq_pow_finrank (K := ZMod 2), hrank, Nat.card_zmod]; rfl

theorem toByte_bijective : Function.Bijective toByte := by
  have : Finite (AdjoinRoot rsPolynomial) := Nat.finite_of_card_ne_zero (by rw [card_adjoinRoot]; decide)
  refine toByte_surjective.bijective_of_nat_card_le ?_
  rw [card_adjoinRoot, card_GF256]

/-- The byte with the one bit `i` of `n`. -/
def bitOf (n i : ℕ) : UInt8 := if n.testBit i then rsExp i else 0

theorem xor_bitOf : ∀ n < 256, 0 ^^^ bitOf n 0 ^^^ bitOf n 1 ^^^ bitOf n 2 ^^^ bitOf n 3 ^^^ bitOf n 4 ^^^ bitOf n 5 ^^^
    bitOf n 6 ^^^ bitOf n 7 = UInt8.ofNat n := by
  decide +kernel

/-- A byte is the sum of its bits. -/
theorem toByte_fieldElement (b : UInt8) : toByte (fieldElement b) = ⟨b⟩ := by
  have hbit : ∀ i ∈ Finset.range 8, toByte (if b.toNat.testBit i then AdjoinRoot.root rsPolynomial ^ i else 0) =
      ⟨bitOf b.toNat i⟩ := by
    intro i hi
    rw [bitOf]
    split
    · rw [map_pow, toByte_root, pow_two_eq i ((Finset.mem_range.1 hi).trans (by decide))]
    · rw [map_zero, ← GF256.mk_zero]
  have hsum := xor_bitOf b.toNat b.toNat_lt
  rw [UInt8.ofNat_toNat] at hsum
  rw [fieldElement, map_sum, Finset.sum_congr rfl hbit]
  simp only [Finset.sum_range_succ, Finset.sum_range_zero, ← GF256.mk_zero, ← GF256.mk_xor]
  rw [hsum]

noncomputable def byteEquiv : GF256 ≃+* AdjoinRoot rsPolynomial := (RingEquiv.ofBijective toByte toByte_bijective).symm

theorem byteEquiv_mk (b : UInt8) : byteEquiv ⟨b⟩ = fieldElement b := by
  rw [byteEquiv, RingEquiv.symm_apply_eq]
  exact (toByte_fieldElement b).symm

/-! ### The inversion -/

section
variable {n : ℕ}

theorem map_fieldElement (A : Matrix (Fin n) (Fin n) UInt8) : A.map fieldElement = byteEquiv.mapMatrix (gf A) := by
  ext i j
  exact (byteEquiv_mk (A i j)).symm

/-- A matrix of bytes is invertible modulo the polynomial if its determinant in `GF256` is not zero. -/
theorem isUnit_fieldElement (A : Matrix (Fin n) (Fin n) UInt8) :
    IsUnit (A.map fieldElement) ↔ (gf A).det ≠ 0 := by
  have hunit : IsUnit (byteEquiv.mapMatrix (gf A)) ↔ IsUnit (gf A) :=
    MulEquiv.isUnit_map (byteEquiv.mapMatrix : Matrix (Fin n) (Fin n) GF256 ≃+* _)
  rw [map_fieldElement, hunit, Matrix.isUnit_iff_isUnit_det, isUnit_iff_ne_zero]

/-- `matrix_inv_gf256` returns 0 if and only if the matrix has an inverse, which it leaves in the array. -/
theorem matrixInvGf256_exact (A : Matrix (Fin n) (Fin n) UInt8) (hpos : 1 ≤ n) (hle : n ≤ 255) :
    ((matrixInvGf256 A).isSome ↔ IsUnit (A.map fieldElement)) ∧
    ∀ N, matrixInvGf256 A = some N →
      A.map fieldElement * N.map fieldElement = 1 ∧ N.map fieldElement * A.map fieldElement = 1 := by
  have hlt : n < 256 := Nat.lt_succ_of_le hle
  refine ⟨?_, fun N hN => ?_⟩
  · have hnone := (matrixInvGf256_eq_none_iff hpos hlt A).not
    rw [isUnit_fieldElement, ne_eq, ← hnone, ← ne_eq, ← Option.isSome_iff_ne_none]
  · obtain ⟨hdet, hinv⟩ := (matrixInvGf256_eq_some_iff hpos hlt A N).1 hN
    have hdet' : IsUnit (gf A).det := isUnit_iff_ne_zero.2 hdet
    rw [map_fieldElement, map_fieldElement, ← map_mul, ← map_mul, hinv, Matrix.mul_nonsing_inv _ hdet',
      Matrix.nonsing_inv_mul _ hdet', map_one]
    exact ⟨rfl, rfl⟩

/-- The largest entry of the first round stands below the diagonal. -/
def offDiagonal : Matrix (Fin 3) (Fin 3) UInt8 := !![0, 2, 1; 3, 0, 1; 1, 1, 0]

/-- The last row is the sum of the others. -/
def dependentRows : Matrix (Fin 3) (Fin 3) UInt8 := !![0, 2, 1; 3, 0, 1; 3, 2, 0]

/-- Rows are swapped, and the columns of the inverse put back; dependent rows are refused. -/
theorem matrixInvGf256_exact_swapped :
    matrixInvGf256 offDiagonal = some !![1, 1, 2; 1, 1, 3; 3, 2, 6] ∧
    (offDiagonal.map fieldElement * (!![1, 1, 2; 1, 1, 3; 3, 2, 6] : Matrix _ _ UInt8).map fieldElement = 1 ∧
      (!![1, 1, 2; 1, 1, 3; 3, 2, 6] : Matrix _ _ UInt8).map fieldElement * offDiagonal.map fieldElement = 1) ∧
    ¬ IsUnit (dependentRows.map fieldElement) := by
  have hinverse : matrixInvGf256 offDiagonal = some !![1, 1, 2; 1, 1, 3; 3, 2, 6] := by decide +kernel
  have hrefused : (matrixInvGf256 dependentRows).isSome = false := by decide +kernel
  refine ⟨hinverse, (matrixInvGf256_exact offDiagonal (by decide) (by decide)).2 _ hinverse, fun hunit => ?_⟩
  rw [(matrixInvGf256_exact dependentRows (by decide) (by decide)).1.2 hunit] at hrefused
  cases hrefused

end

end Rtp2httpd
