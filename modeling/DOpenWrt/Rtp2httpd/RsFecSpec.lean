import DOpenWrt.Lib.SystematicCode
import DOpenWrt.Rtp2httpd.RsFec

/-!
# `matrix_inv_gf256` is Gauss–Jordan over GF(256)

The table arithmetic of the coder is the arithmetic of `GF256`, so one round of the inversion is a
swap and a pivot of `GaussJordan`; `InvSpec` carries `GaussJordan.Invariant` through the rounds.
`matrixInvGf256_eq_some_iff` is what the rest of the coder uses.
-/

namespace Rtp2httpd
open Matrix

variable {k m n : Nat}

/-- A matrix of bytes as a matrix over the field. -/
def gf {α β : Type*} (M : Matrix α β UInt8) : Matrix α β GF256 := M.map GF256.mk

theorem gf_apply {α β : Type*} (M : Matrix α β UInt8) (i : α) (j : β) : gf M i j = ⟨M i j⟩ := rfl

theorem gf_injective {α β : Type*} : Function.Injective (gf : Matrix α β UInt8 → _) := fun M N h => by
  ext i j : 1
  exact GF256.mk.inj (congrFun (congrFun h i) j)

theorem mk_xorMul (acc a b : UInt8) : GF256.mk (xorMul acc a b) = ⟨acc⟩ + ⟨a⟩ * ⟨b⟩ := by
  rw [← GF256.mk_gfMul, ← GF256.mk_xor]
  unfold xorMul gfMul
  split <;> simp

theorem mk_foldl_xorMul {σ : Type*} (l : List σ) (f g : σ → UInt8) (acc : UInt8) :
    GF256.mk (l.foldl (fun acc x => xorMul acc (f x) (g x)) acc) =
      ⟨acc⟩ + (l.map fun x => (⟨f x⟩ * ⟨g x⟩ : GF256)).sum := by
  induction l generalizing acc with
  | nil => simp
  | cons x l ih => rw [List.foldl_cons, ih, List.map_cons, List.sum_cons, ← add_assoc, mk_xorMul]

/-- The coder's accumulation loop over `0 .. n-1` is the sum of products. -/
theorem mk_foldl_finRange (f g : Fin n → UInt8) :
    GF256.mk ((List.finRange n).foldl (fun acc l => xorMul acc (f l) (g l)) 0) =
      ∑ l, (⟨f l⟩ * ⟨g l⟩ : GF256) := by
  rw [mk_foldl_xorMul, ← List.ofFn_eq_map, List.sum_ofFn, GF256.mk_zero, zero_add]

theorem gf_matrixMulGf256 (a : Matrix (Fin m) (Fin n) UInt8) (b : Matrix (Fin n) (Fin k) UInt8) :
    gf (matrixMulGf256 a b) = gf a * gf b := by
  ext i j : 1
  rw [mul_apply]
  exact mk_foldl_finRange (fun l => a i l) fun l => b l j

theorem gfMul_gfInv_eq {a p : UInt8} (ha : a ≠ 0) (hp : p ≠ 0) :
    gfMul a (gfInv p) = rsExp ((rsLog a + (255 - rsLog p)) % 255) := by
  have hinv : gfInv p ≠ 0 := by
    rw [gfInv, if_neg hp, rsExp_mod]; exact iterate_xtime_ne_zero _
  have hlog : rsLog (gfInv p) = (255 - rsLog p) % 255 := by
    rw [gfInv, if_neg hp, rsExp_mod, rsLog_iterate]
  rw [gfMul, if_pos ⟨ha, hinv⟩, hlog, Nat.add_mod_mod]

theorem gf_scaleRow {c : Fin n} {M : Matrix (Fin n) (Fin n) UInt8} (h0 : M c c ≠ 0) :
    gf (scaleRow c (255 - rsLog (M c c)) M) = GaussJordan.normalize c (gf M) := by
  ext i j : 1
  simp only [gf_apply, scaleRow, GaussJordan.normalize, of_apply]
  by_cases hi : i = c
  · have hone : (if j = c then 1 else GF256.mk (M c j)) = ⟨if j = c then 1 else M c j⟩ := by
      split <;> rfl
    rw [if_pos hi, if_pos hi, hone, ← GF256.mk_gfInv, ← GF256.mk_gfMul]
    generalize (if j = c then 1 else M c j) = x
    by_cases hx : x = 0
    · rw [if_neg (not_not.2 hx), hx, zero_gfMul]
    · rw [if_pos hx, gfMul_gfInv_eq hx h0]
  · rw [if_neg hi, if_neg hi]

theorem gf_clearCol (c : Fin n) (M : Matrix (Fin n) (Fin n) UInt8) :
    gf (clearCol c M) = GaussJordan.eliminate c (gf M) := by
  ext i j : 1
  simp only [gf_apply, clearCol, GaussJordan.eliminate, of_apply]
  by_cases hi : i = c
  · rw [if_pos hi, if_pos hi]
  · have hzero : (if j = c then 0 else GF256.mk (M i j)) = ⟨if j = c then 0 else M i j⟩ := by
      split <;> rfl
    rw [if_neg hi, if_neg hi, hzero, mk_xorMul, GF256.sub_eq_add, mul_comm]

/-! ### The pivot search -/

section Search
variable (matrix : Matrix (Fin n) (Fin n) UInt8) (ipiv : Fin n → Nat)

/-- `p` is an unpivoted cell with its value. -/
def Pivot.Valid (p : Pivot n) : Prop :=
  ipiv p.irow = 0 ∧ ipiv p.icol = 0 ∧ p.big = matrix p.irow p.icol

/-- What the search keeps of `p`: it is valid, unless no cell was seen. -/
def Pivot.Ok (p : Pivot n) : Prop := p.Valid matrix ipiv ∨ p.big = 0

/-- `p'` follows `p` in a search that has seen the cells `seen`. -/
structure Pivot.Seen (p p' : Pivot n) (seen : Fin n → Fin n → Prop) : Prop where
  ok : p'.Ok matrix ipiv
  le : p.big ≤ p'.big
  keep : p.Valid matrix ipiv → p'.Valid matrix ipiv
  cell : ∀ j c, seen j c → ipiv j = 0 → ipiv c = 0 → p'.Valid matrix ipiv ∧ matrix j c ≤ p'.big

variable {matrix ipiv}

theorem Pivot.Seen.refl {p : Pivot n} (h : p.Ok matrix ipiv) :
    Pivot.Seen matrix ipiv p p fun _ _ => False :=
  ⟨h, UInt8.le_refl _, id, fun _ _ hs => hs.elim⟩

theorem Pivot.Seen.trans {p p' p'' : Pivot n} {s s' : Fin n → Fin n → Prop}
    (h : Pivot.Seen matrix ipiv p p' s) (h' : Pivot.Seen matrix ipiv p' p'' s') :
    Pivot.Seen matrix ipiv p p'' fun j c => s j c ∨ s' j c := by
  refine ⟨h'.ok, UInt8.le_trans h.le h'.le, fun hv => h'.keep (h.keep hv), fun j c hs hj hc => ?_⟩
  rcases hs with hs | hs
  · obtain ⟨hv, hle⟩ := h.cell j c hs hj hc
    exact ⟨h'.keep hv, UInt8.le_trans hle h'.le⟩
  · exact h'.cell j c hs hj hc

theorem Pivot.Seen.mono {p p' : Pivot n} {s s' : Fin n → Fin n → Prop}
    (h : Pivot.Seen matrix ipiv p p' s) (hs : ∀ j c, s' j c → ipiv j = 0 → ipiv c = 0 → s j c) :
    Pivot.Seen matrix ipiv p p' s' :=
  ⟨h.ok, h.le, h.keep, fun j c hj h1 h2 => h.cell j c (hs j c hj h1 h2) h1 h2⟩

theorem pivotCell_spec (h1 : ∀ c, ipiv c ≤ 1) {j : Fin n} (hj : ipiv j = 0) {p : Pivot n}
    (hp : p.Ok matrix ipiv) (c : Fin n) :
    ∃ p', pivotCell matrix ipiv j p c = some p' ∧
      Pivot.Seen matrix ipiv p p' fun j' c' => j' = j ∧ c' = c := by
  unfold pivotCell
  by_cases hc : ipiv c = 0
  · by_cases hge : matrix j c ≥ p.big
    · have hv : Pivot.Valid matrix ipiv ⟨matrix j c, j, c⟩ := ⟨hj, hc, rfl⟩
      refine ⟨_, by rw [if_pos hc, if_pos hge], .inl hv, hge, fun _ => hv, ?_⟩
      rintro _ _ ⟨rfl, rfl⟩ _ _
      exact ⟨hv, UInt8.le_refl _⟩
    · refine ⟨p, by rw [if_pos hc, if_neg hge], hp, UInt8.le_refl _, id, ?_⟩
      rintro _ _ ⟨rfl, rfl⟩ _ _
      -- a cell below `big` cannot be the first one, `big` being `0` there
      have hlt := UInt8.not_le.1 hge
      refine ⟨hp.resolve_right fun h0 => ?_, UInt8.le_of_lt hlt⟩
      rw [h0] at hlt
      exact absurd hlt (by simp)
  · have hle := h1 c
    refine ⟨p, by rw [if_neg hc, if_neg (by omega)], hp, UInt8.le_refl _, id, ?_⟩
    rintro _ _ ⟨rfl, rfl⟩ _ h
    exact absurd h hc

/-- A fold of searching steps sees the cells of all of them. -/
theorem foldlM_seen {σ : Type*} (step : Pivot n → σ → Option (Pivot n)) (s : σ → Fin n → Fin n → Prop)
    (hstep : ∀ p x, p.Ok matrix ipiv → ∃ p', step p x = some p' ∧ Pivot.Seen matrix ipiv p p' (s x))
    (l : List σ) {p : Pivot n} (hp : p.Ok matrix ipiv) :
    ∃ p', l.foldlM step p = some p' ∧ Pivot.Seen matrix ipiv p p' fun j c => ∃ x ∈ l, s x j c := by
  induction l generalizing p with
  | nil => exact ⟨p, rfl, (Pivot.Seen.refl hp).mono fun _ _ h _ _ => by simp at h⟩
  | cons x l ih =>
    obtain ⟨p₁, h₁, hs₁⟩ := hstep p x hp
    obtain ⟨p₂, h₂, hs₂⟩ := ih hs₁.ok
    refine ⟨p₂, by rw [List.foldlM_cons, h₁]; exact h₂, (hs₁.trans hs₂).mono ?_⟩
    intro j c h _ _
    simpa using h

theorem pivotRow_spec (h1 : ∀ c, ipiv c ≤ 1) {p : Pivot n} (hp : p.Ok matrix ipiv) (j : Fin n) :
    ∃ p', pivotRow matrix ipiv p j = some p' ∧ Pivot.Seen matrix ipiv p p' fun j' _ => j' = j := by
  unfold pivotRow
  by_cases hj : ipiv j = 1
  · refine ⟨p, by rw [if_neg (not_not.2 hj)], (Pivot.Seen.refl hp).mono ?_⟩
    rintro _ _ rfl h0 _
    omega
  · rw [if_pos hj]
    have hj0 : ipiv j = 0 := by have := h1 j; omega
    obtain ⟨p', h, hs⟩ := foldlM_seen (pivotCell matrix ipiv j) (fun c j' c' => j' = j ∧ c' = c)
      (fun p c hp => pivotCell_spec h1 hj0 hp c) (List.finRange n) hp
    refine ⟨p', h, hs.mono ?_⟩
    rintro _ c rfl _ _
    exact ⟨c, List.mem_finRange c, rfl, rfl⟩

/-- While a column is unpivoted, the search returns the largest unpivoted cell. -/
theorem findPivot_spec (h1 : ∀ c, ipiv c ≤ 1) {x : Fin n} (hx : ipiv x = 0) (irow icol : Fin n) :
    ∃ p, findPivot matrix ipiv irow icol = some p ∧ p.Valid matrix ipiv ∧
      ∀ j c, ipiv j = 0 → ipiv c = 0 → matrix j c ≤ p.big := by
  obtain ⟨p, h, hs⟩ := foldlM_seen (pivotRow matrix ipiv) (fun j j' _ => j' = j)
    (fun p j hp => pivotRow_spec h1 hp j) (List.finRange n) (p := ⟨0, irow, icol⟩) (.inr rfl)
  have hcell : ∀ j c, ipiv j = 0 → ipiv c = 0 → p.Valid matrix ipiv ∧ matrix j c ≤ p.big :=
    fun j c => hs.cell j c ⟨j, List.mem_finRange j, rfl⟩
  exact ⟨p, h, (hcell x x hx hx).1, fun j c hj hc => (hcell j c hj hc).2⟩

end Search

/-! ### The rounds -/

/-- The pivoted columns. -/
def pivoted (ipiv : Fin n → Nat) : Finset (Fin n) := Finset.univ.filter fun c => ipiv c = 1

/-- The invariant of the main loop: `A` is the matrix the inversion started from. -/
structure InvSpec (A : Matrix (Fin n) (Fin n) GF256) (s : InvState n) : Prop where
  le_one : ∀ c, s.ipiv c ≤ 1
  gj : ∃ E, GaussJordan.Invariant A (gf s.matrix) (pivoted s.ipiv)
    (s.swaps.map fun p => Equiv.swap p.1 p.2).prod E

theorem InvSpec.init (A : Matrix (Fin n) (Fin n) UInt8) (z : Fin n) :
    InvSpec (gf A) ⟨A, fun _ => 0, z, z, []⟩ := by
  refine ⟨fun _ => by simp, 1, ?_⟩
  have hp : pivoted (fun _ : Fin n => 0) = ∅ := by simp [pivoted]
  simp only [hp, List.map_nil, List.prod_nil]
  exact GaussJordan.Invariant.init _

/-- The swap is skipped when it would do nothing. -/
theorem swapPivotRow_eq (p q : Fin n) (M : Matrix (Fin n) (Fin n) UInt8) :
    swapPivotRow p q M = GaussJordan.swapRows p q M := by
  unfold swapPivotRow
  split
  · rfl
  · rename_i h
    rw [not_not.1 h]
    simp [GaussJordan.swapRows]

theorem swapPivotCol_eq (p q : Fin n) (M : Matrix (Fin n) (Fin n) UInt8) :
    swapPivotCol p q M = GaussJordan.swapCols p q M := by
  unfold swapPivotCol
  split
  · rfl
  · rename_i h
    rw [not_not.1 h]
    simp [GaussJordan.swapCols]

theorem pivoted_update {ipiv : Fin n → Nat} {c : Fin n} (hc : ipiv c = 0) :
    pivoted (Function.update ipiv c (ipiv c + 1)) = insert c (pivoted ipiv) := by
  ext x
  by_cases hx : x = c
  · subst hx; simp [pivoted, hc]
  · simp [pivoted, hx]

theorem card_pivoted_update {ipiv : Fin n → Nat} {c : Fin n} (hc : ipiv c = 0) :
    (pivoted (Function.update ipiv c (ipiv c + 1))).card = (pivoted ipiv).card + 1 := by
  rw [pivoted_update hc, Finset.card_insert_of_notMem (by simp [pivoted, hc])]

/-- One round either pivots a further column or finds that `A` is singular. -/
theorem invRound_spec {A : Matrix (Fin n) (Fin n) GF256} {s : InvState n} (h : InvSpec A s) {x : Fin n}
    (hx : s.ipiv x = 0) :
    (invRound s = none ∧ A.det = 0) ∨ ∃ s', invRound s = some s' ∧ InvSpec A s' ∧
      (pivoted s'.ipiv).card = (pivoted s.ipiv).card + 1 := by
  obtain ⟨⟨big, irow, icol⟩, hfind, ⟨hrow, hcol, hbig⟩, hmax⟩ :=
    @findPivot_spec _ s.matrix _ h.le_one _ hx s.irow s.icol
  simp only at hrow hcol hbig hmax
  obtain ⟨E, hE⟩ := h.gj
  have hmem : ∀ c, c ∉ pivoted s.ipiv ↔ s.ipiv c = 0 := fun c => by
    have := h.le_one c; simp only [pivoted, Finset.mem_filter, Finset.mem_univ, true_and]; omega
  set M := GaussJordan.swapRows irow icol s.matrix with hM
  have hsw := hE.swapRows ((hmem irow).2 hrow) ((hmem icol).2 hcol)
  have hpiv : M icol icol = big := by rw [hbig]; simp [hM, GaussJordan.swapRows]
  unfold invRound
  simp only [hfind, swapPivotRow_eq, ← hM]
  by_cases h0 : M icol icol = 0
  · rw [if_pos h0]
    refine .inl ⟨rfl, hE.singular ((hmem icol).2 hcol) fun c hc => ?_⟩
    have hle := hmax icol c hcol ((hmem c).1 hc)
    rw [← hpiv, h0] at hle
    exact GF256.mk_eq_zero.2 (UInt8.le_zero_iff.1 hle)
  · rw [if_neg h0]
    have h0' : gf M icol icol ≠ 0 := fun h => h0 (GF256.mk_eq_zero.1 h)
    have hpivot := hsw.pivot ((hmem icol).2 hcol) h0'
    refine .inr ⟨_, rfl, ⟨fun c => ?_, ?_⟩, card_pivoted_update hcol⟩
    · by_cases hc : c = icol
      · subst hc; simp [hcol]
      · simpa [hc] using h.le_one c
    · have hgf : gf (clearCol icol (scaleRow icol (255 - rsLog (M icol icol)) M)) =
          GaussJordan.eliminate icol (GaussJordan.normalize icol (gf M)) := by
        rw [gf_clearCol, gf_scaleRow h0]
      simp only [hgf, pivoted_update hcol, List.map_append, List.map_cons, List.map_nil,
        List.prod_append, List.prod_cons, List.prod_nil, mul_one]
      exact ⟨_, hpivot⟩

/-- The remaining rounds pivot the remaining columns, or find that `A` is singular. -/
theorem invLoop_spec {A : Matrix (Fin n) (Fin n) GF256} (i : Nat) {s : InvState n} (h : InvSpec A s)
    (hi : (pivoted s.ipiv).card + i = n) :
    (invLoop i s = none ∧ A.det = 0) ∨
      ∃ s', invLoop i s = some s' ∧ InvSpec A s' ∧ pivoted s'.ipiv = Finset.univ := by
  induction i generalizing s with
  | zero =>
    refine .inr ⟨s, rfl, h, (Finset.card_eq_iff_eq_univ _).1 ?_⟩
    rw [Fintype.card_fin]; omega
  | succ i ih =>
    obtain ⟨x, hx⟩ : ∃ x, s.ipiv x = 0 := by
      by_contra hno
      have hall : pivoted s.ipiv = Finset.univ := Finset.filter_true_of_mem fun c _ => by
        have := h.le_one c
        have := (not_exists.1 hno) c
        omega
      rw [hall, Finset.card_univ, Fintype.card_fin] at hi
      omega
    unfold invLoop
    rcases invRound_spec h hx with ⟨hn, hdet⟩ | ⟨s', hs, h', hcard⟩
    · rw [hn]; exact .inl ⟨rfl, hdet⟩
    · rw [hs]; exact ih h' (by omega)

theorem unscramble_eq (s : InvState n) : unscramble s =
    s.swaps.foldr (fun p M => GaussJordan.swapCols p.1 p.2 M) s.matrix := by
  simp only [unscramble, swapPivotCol_eq]

/-- `matrix_inv_gf256` succeeds exactly on the invertible matrices and returns the inverse. -/
theorem matrixInvGf256_eq_some_iff (h0 : 0 < n) (hn : n < 256) (A N : Matrix (Fin n) (Fin n) UInt8) :
    matrixInvGf256 A = some N ↔ (gf A).det ≠ 0 ∧ gf N = (gf A)⁻¹ := by
  have hlt : ¬(n ≥ 0x100 ∨ n = 0) := by omega
  have hcard : (pivoted (fun _ : Fin n => 0)).card + n = n := by simp [pivoted]
  unfold matrixInvGf256
  rw [dif_neg hlt]
  rcases invLoop_spec n (InvSpec.init A ⟨0, h0⟩) hcard with ⟨hnone, hdet⟩ | ⟨s, hs, ⟨-, E, hE⟩, huniv⟩
  · simp [hnone, hdet]
  · rw [huniv] at hE
    obtain ⟨hdet, hM⟩ := hE.final
    have hres : gf (unscramble s) = (gf A)⁻¹ := by
      have hcols : gf (unscramble s) =
          (gf s.matrix).submatrix id ((s.swaps.map fun p => Equiv.swap p.1 p.2).prod⁻¹ : Equiv.Perm _) := by
        rw [unscramble_eq, GaussJordan.foldr_swapCols]; rfl
      rw [hcols, hM, submatrix_submatrix, ← Equiv.Perm.coe_mul, mul_inv_cancel]
      rfl
    simp only [hs, Option.map_some]
    constructor
    · intro heq
      exact ⟨hdet, by rw [← Option.some.inj heq, hres]⟩
    · rintro ⟨-, hN⟩
      exact congrArg some (gf_injective (hres.trans hN.symm))

theorem matrixInvGf256_eq_none_iff (h0 : 0 < n) (hn : n < 256) (A : Matrix (Fin n) (Fin n) UInt8) :
    matrixInvGf256 A = none ↔ (gf A).det = 0 := by
  constructor
  · intro h
    by_contra hdet
    have := (matrixInvGf256_eq_some_iff h0 hn A ((gf A)⁻¹.map GF256.byte)).2 ⟨hdet, rfl⟩
    rw [h] at this
    cases this
  · intro hdet
    cases hA : matrixInvGf256 A with
    | none => rfl
    | some N => exact absurd hdet ((matrixInvGf256_eq_some_iff h0 hn A N).1 hA).1

end Rtp2httpd
