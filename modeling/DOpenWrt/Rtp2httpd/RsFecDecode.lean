import DOpenWrt.Rtp2httpd.RsFecSpec

/-!
# Decoding recovers the data

The sub-matrix rows and the gathered blocks of `rs_fec_decode` come from separate loops. Both follow
`pickIds`, the first `k` received block numbers, so the sub-matrix is a `SystematicCode.pick` of the
generator and the gathered blocks are the same choice from the code word. With fewer than `k` blocks
a row of the sub-matrix stays zero and the inversion refuses it.
-/

namespace Rtp2httpd
open Matrix

variable {k m S : Nat}

/-- The numbers of the received blocks, in index order. -/
def recvIds (lostMap : Fin k ⊕ Fin m → Bool) : List (Fin k ⊕ Fin m) := (blockIds k m).filter lostMap

/-- The generator row of a block: a unit vector or a parity row. -/
def genRow (code : RsFec k m) : Fin k ⊕ Fin m → Fin k → UInt8 :=
  Sum.elim (fun i => Pi.single i 1) code.enGM.row

theorem mem_blockIds (b : Fin k ⊕ Fin m) : b ∈ blockIds k m := by
  rcases b with i | j <;> simp [blockIds]

theorem nodup_blockIds : (blockIds k m).Nodup := by
  refine List.nodup_append.2 ⟨?_, ?_, ?_⟩
  · exact (List.nodup_finRange k).map Sum.inl_injective
  · exact (List.nodup_finRange m).map Sum.inr_injective
  · intro a ha b hb hab
    obtain ⟨i, -, rfl⟩ := List.mem_map.1 ha
    obtain ⟨j, -, rfl⟩ := List.mem_map.1 hb
    cases hab

theorem nodup_recvIds (lostMap : Fin k ⊕ Fin m → Bool) : (recvIds lostMap).Nodup :=
  nodup_blockIds.filter _

theorem mem_recvIds {lostMap : Fin k ⊕ Fin m → Bool} {b : Fin k ⊕ Fin m} :
    b ∈ recvIds lostMap ↔ lostMap b = true := by
  simp [recvIds, mem_blockIds]

theorem length_recvIds (lostMap : Fin k ⊕ Fin m → Bool) :
    (recvIds lostMap).length = (Finset.univ.filter fun b => lostMap b = true).card := by
  rw [← List.toFinset_card_of_nodup (nodup_recvIds lostMap)]
  congr 1
  ext b
  simp [mem_recvIds]

/-- The received data blocks come first. -/
theorem recvIds_eq (lostMap : Fin k ⊕ Fin m → Bool) : recvIds lostMap =
    ((List.finRange k).filter fun i => lostMap (.inl i)).map .inl ++
      ((List.finRange m).filter fun j => lostMap (.inr j)).map .inr := by
  rw [recvIds, blockIds, List.filter_append, List.filter_map, List.filter_map]
  rfl

/-! ### The two gathering loops -/

theorem addFecRows_eq (code : RsFec k m) (lostMap : Fin k ⊕ Fin m → Bool) (js : List (Fin m))
    (rows : List (Fin k → UInt8)) (hrows : rows.length ≤ k) : addFecRows code lostMap js rows =
      rows ++ ((js.filter fun j => lostMap (.inr j)).map code.enGM.row).take (k - rows.length) := by
  induction js generalizing rows with
  | nil => simp [addFecRows]
  | cons j js ih =>
    unfold addFecRows
    cases hj : lostMap (.inr j) with
    | false => simp only [Bool.false_eq_true, ↓reduceIte, hj, List.filter_cons]; exact ih rows hrows
    | true =>
      simp only [↓reduceIte, hj, List.filter_cons]
      split
      · rename_i hlt
        have hsub : k - rows.length = k - (rows.length + 1) + 1 := by omega
        rw [ih _ (by simpa using hlt), List.length_append, List.length_singleton, hsub,
          List.map_cons, List.take_succ_cons, List.append_assoc]
        rfl
      · have : k - rows.length = 0 := by omega
        simp [this]

theorem gatherRecv_eq {β : Type} (block : Fin k ⊕ Fin m → β) (lostMap : Fin k ⊕ Fin m → Bool)
    (is : List (Fin k ⊕ Fin m)) (recv : List β) (hrecv : recv.length < k) :
    gatherRecv block lostMap is recv =
      recv ++ ((is.filter lostMap).map block).take (k - recv.length) := by
  induction is generalizing recv with
  | nil => simp [gatherRecv]
  | cons i is ih =>
    unfold gatherRecv
    cases hi : lostMap i with
    | false =>
      simp only [Bool.false_eq_true, ↓reduceIte, hi, List.filter_cons, Nat.ne_of_lt hrecv]
      exact ih recv hrecv
    | true =>
      have hsub : k - recv.length = k - (recv.length + 1) + 1 := by omega
      simp only [↓reduceIte, hi, List.filter_cons, List.length_append, List.length_singleton]
      rw [hsub, List.map_cons, List.take_succ_cons]
      split
      · rename_i heq
        have : k - (recv.length + 1) = 0 := by omega
        simp [this]
      · rename_i hne
        rw [ih _ (by rw [List.length_append, List.length_singleton]; omega), List.length_append,
          List.length_singleton, List.append_assoc]
        rfl

/-- The rows of `de_subGM` are the generator rows of the first `k` received blocks. -/
theorem deSubGM_row (code : RsFec k m) (lostMap : Fin k ⊕ Fin m → Bool) (r : Fin k) :
    deSubGM code lostMap r = ((recvIds lostMap).map (genRow code)).getD r 0 := by
  have hlen : (dataRows lostMap : List (Fin k → UInt8)).length ≤ k := by
    have := List.length_filter_le (fun i => lostMap (.inl i)) (List.finRange k)
    simpa [dataRows] using this
  have hdata : dataRows lostMap = ((((List.finRange k).filter fun i => lostMap (.inl i)).map
      Sum.inl).map (genRow code) : List (Fin k → UInt8)) := by
    rw [List.map_map]; rfl
  show (addFecRows code lostMap (List.finRange m) (dataRows lostMap)).getD r 0 = _
  rw [addFecRows_eq code lostMap _ _ hlen, recvIds_eq, List.map_append, ← hdata, List.map_map]
  simp only [List.getD_eq_getElem?_getD]
  rcases Nat.lt_or_ge r (dataRows lostMap : List (Fin k → UInt8)).length with hlt | hge
  · rw [List.getElem?_append_left hlt, List.getElem?_append_left hlt]
  · have hr := r.isLt
    rw [List.getElem?_append_right hge, List.getElem?_append_right hge, List.getElem?_take,
      if_pos (by omega)]
    rfl

theorem getD_gatherRecv (block : Fin k ⊕ Fin m → Fin S → UInt8) (lostMap : Fin k ⊕ Fin m → Bool)
    (r : Fin k) : (gatherRecv block lostMap (blockIds k m) []).getD r 0 =
      ((recvIds lostMap).map block).getD r 0 := by
  have hr := r.isLt
  rw [gatherRecv_eq block lostMap _ _ (by rw [List.length_nil]; omega), List.nil_append,
    List.length_nil, Nat.sub_zero]
  simp only [List.getD_eq_getElem?_getD, List.getElem?_take, hr, ↓reduceIte]
  rfl

/-! ### Enough blocks -/

/-- The choice of rows made by the decoder when at least `k` blocks were received. -/
def pickIds (lostMap : Fin k ⊕ Fin m → Bool) (h : k ≤ (recvIds lostMap).length) (r : Fin k) :
    Fin k ⊕ Fin m := (recvIds lostMap)[r.val]

theorem pickIds_injective (lostMap : Fin k ⊕ Fin m → Bool) (h : k ≤ (recvIds lostMap).length) :
    Function.Injective (pickIds lostMap h) := fun r r' hrr => by
  exact Fin.ext ((nodup_recvIds lostMap).getElem_inj_iff.1 hrr)

theorem lostMap_pickIds (lostMap : Fin k ⊕ Fin m → Bool) (h : k ≤ (recvIds lostMap).length)
    (r : Fin k) : lostMap (pickIds lostMap h r) = true :=
  mem_recvIds.1 (List.getElem_mem _)

theorem getD_map_recvIds {β : Type*} (f : Fin k ⊕ Fin m → β) (d : β) {lostMap : Fin k ⊕ Fin m → Bool}
    (h : k ≤ (recvIds lostMap).length) (r : Fin k) :
    ((recvIds lostMap).map f).getD r d = f (pickIds lostMap h r) := by
  rw [List.getD_eq_getElem?_getD, List.getElem?_map,
    List.getElem?_eq_getElem (Nat.lt_of_lt_of_le r.isLt h)]
  rfl

theorem gf_deSubGM (code : RsFec k m) {lostMap : Fin k ⊕ Fin m → Bool}
    (h : k ≤ (recvIds lostMap).length) :
    gf (deSubGM code lostMap) = SystematicCode.pick (gf code.enGM) (pickIds lostMap h) := by
  ext r c : 1
  rw [gf_apply, deSubGM_row, getD_map_recvIds (genRow code) 0 h]
  show _ = SystematicCode.rows (gf code.enGM) (pickIds lostMap h r) c
  rcases pickIds lostMap h r with i | j
  · show GF256.mk ((Pi.single i 1 : Fin k → UInt8) c) = (1 : Matrix (Fin k) (Fin k) GF256) i c
    by_cases hc : c = i
    · subst hc; simp [GF256.mk_one]
    · rw [Pi.single_eq_of_ne hc, one_apply_ne' hc]; rfl
  · rfl

/-- The blocks of a code word, restricted to what was received. -/
def IsReceived (code : RsFec k m) (orig data : Fin k → Fin S → UInt8) (fecData : Fin m → Fin S → UInt8)
    (lostMap : Fin k ⊕ Fin m → Bool) : Prop :=
  ∀ b, lostMap b = true → ∀ r, GF256.mk (Sum.elim data fecData b r) =
    SystematicCode.encode (gf code.enGM) (gf (of orig)) b r

/-- The decoder's result when the inversion succeeds. -/
def decodedBlock (data : Fin k → Fin S → UInt8) (fecData : Fin m → Fin S → UInt8)
    (lostMap : Fin k ⊕ Fin m → Bool) (inv : Matrix (Fin k) (Fin k) UInt8) (i : Fin k) (r : Fin S) :
    UInt8 :=
  (List.finRange k).foldl (fun acc l => xorMul acc (inv i l)
    ((gatherRecv (Sum.elim data fecData) lostMap (blockIds k m) []).getD l 0 r)) 0

/-- Row `i` of the inverse times the gathered blocks is original block `i`. -/
theorem decodedBlock_eq (code : RsFec k m) {orig data : Fin k → Fin S → UInt8}
    {fecData : Fin m → Fin S → UInt8} {lostMap : Fin k ⊕ Fin m → Bool}
    (hrecv : IsReceived code orig data fecData lostMap) (h : k ≤ (recvIds lostMap).length)
    {inv : Matrix (Fin k) (Fin k) UInt8} (hinv : gf inv * gf (deSubGM code lostMap) = 1) (i : Fin k) :
    decodedBlock data fecData lostMap inv i = orig i := by
  funext r
  apply GF256.mk.inj
  rw [gf_deSubGM code h] at hinv
  have hrec := congrFun (congrFun (SystematicCode.recover hinv (gf (of orig))) i) r
  calc GF256.mk (decodedBlock data fecData lostMap inv i r)
      = ∑ l, GF256.mk (inv i l) * ⟨(gatherRecv (Sum.elim data fecData) lostMap
          (blockIds k m) []).getD l 0 r⟩ := mk_foldl_finRange _ _
    _ = ∑ l, gf inv i l * SystematicCode.encode (gf code.enGM) (gf (of orig)) (pickIds lostMap h l) r := by
        refine Finset.sum_congr rfl fun l _ => ?_
        rw [getD_gatherRecv, getD_map_recvIds _ _ h, hrecv _ (lostMap_pickIds lostMap h l)]
        rfl
    _ = gf (of orig) i r := by rw [← hrec, mul_apply]; rfl

/-- With fewer than `k` received blocks a row of the sub-matrix is zero. -/
theorem det_deSubGM_of_lt (code : RsFec k m) {lostMap : Fin k ⊕ Fin m → Bool}
    (h : (recvIds lostMap).length < k) : (gf (deSubGM code lostMap)).det = 0 := by
  refine det_eq_zero_of_row_eq_zero ⟨_, h⟩ fun c => ?_
  rw [gf_apply, deSubGM_row, List.getD_eq_getElem?_getD, List.getElem?_eq_none (by simp)]
  rfl

theorem mem_lostPktId {lostMap : Fin k ⊕ Fin m → Bool} {i : Fin k} :
    i ∈ lostPktId lostMap ↔ lostMap (.inl i) = false := by
  simp [lostPktId]

/-! ### `rs_fec_new` -/

theorem rsFecNew_pos_lt {code : RsFec k m} (h : rsFecNew k m = some code) : 0 < k ∧ k < 256 := by
  unfold rsFecNew at h
  split at h
  · omega
  · by_contra hk
    have hnone : matrixInvGf256 (enRight k) = none := dif_pos (by omega)
    rw [hnone] at h
    cases h

/-- The nodes of the fallback's Vandermonde matrices, shifted by `o`. -/
def node (o : Nat) {n : Nat} (i : Fin n) : GF256 := ⟨2⟩ ^ (o + i.val)

theorem gf_enRight (k : Nat) : gf (enRight k) = SystematicCode.powers k (node 0) := by
  ext i j : 1
  show GF256.mk (rsExp ((i * j) % 255)) = _
  rw [GF256.mk_rsExp_mod, pow_mul]
  simp [SystematicCode.powers, node]

theorem gf_enLeft (k m : Nat) : gf (enLeft k m) = SystematicCode.powers k (node k) := by
  ext i j : 1
  show GF256.mk (rsExp (((k + i) * j) % 255)) = _
  rw [GF256.mk_rsExp_mod, pow_mul]
  rfl

theorem node_injective (hkm : k + m ≤ 255) :
    Function.Injective (Sum.elim (node 0 : Fin k → GF256) (node k : Fin m → GF256)) := by
  have key : ∀ a b : Nat, a < 255 → b < 255 → (⟨2⟩ : GF256) ^ a = ⟨2⟩ ^ b → a = b :=
    fun _ _ => GF256.pow_injOn
  rintro (i | i) (j | j) h
  · have := key (0 + i) (0 + j) (by omega) (by omega) h
    exact congrArg _ (Fin.ext (by omega))
  · have := key (0 + i) (k + j) (by omega) (by omega) h
    omega
  · have := key (k + i) (0 + j) (by omega) (by omega) h
    omega
  · have := key (k + i) (k + j) (by omega) (by omega) h
    exact congrArg _ (Fin.ext (by omega))

/-- The generator of the fallback code: `V_bot * V_top⁻¹`. -/
noncomputable def fallbackGM (k m : Nat) : Matrix (Fin m) (Fin k) GF256 :=
  SystematicCode.powers k (node k : Fin m → GF256) * (SystematicCode.powers k (node 0 : Fin k → GF256))⁻¹

theorem rsFecNew_fallback (hk : 0 < k) (hkm : k + m ≤ 255) (hne : ¬(k = 100 ∧ m = 5)) :
    ∃ code : RsFec k m, rsFecNew k m = some code ∧ gf code.enGM = fallbackGM k m := by
  have hinj : Function.Injective (node 0 : Fin k → GF256) := fun i j h =>
    Sum.inl_injective (node_injective hkm h)
  have hdet : (gf (enRight k)).det ≠ 0 := by
    rw [gf_enRight]; exact SystematicCode.det_powers_ne_zero hinj
  cases hinv : matrixInvGf256 (enRight k) with
  | none => exact absurd ((matrixInvGf256_eq_none_iff hk (by omega) _).1 hinv) hdet
  | some right =>
    refine ⟨⟨matrixMulGf256 (enLeft k m) right⟩, by rw [rsFecNew, if_neg hne, hinv], ?_⟩
    have hright := ((matrixInvGf256_eq_some_iff hk (by omega) _ _).1 hinv).2
    show gf (matrixMulGf256 (enLeft k m) right) = _
    have hpowers := hright.trans (congrArg (·⁻¹) (gf_enRight k))
    exact (gf_matrixMulGf256 _ _).trans (congrArg₂ (· * ·) (gf_enLeft k m) hpowers)

/-- Lost data blocks are made up for by received parity blocks. -/
theorem le_length_recvIds {lostMap : Fin k ⊕ Fin m → Bool}
    (h : (lostPktId lostMap).length ≤ ((List.finRange m).filter fun j => lostMap (.inr j)).length) :
    k ≤ (recvIds lostMap).length := by
  have hsplit := List.length_eq_length_filter_add (l := List.finRange k) fun i => lostMap (.inl i)
  rw [List.length_finRange] at hsplit
  have hlost : (lostPktId lostMap).length =
      ((List.finRange k).filter fun i => !lostMap (.inl i)).length := rfl
  rw [recvIds_eq, List.length_append, List.length_map, List.length_map]
  omega

/-- Decoding succeeds when the sub-matrix is invertible and not too many data blocks are lost. -/
theorem rsFecDecode_isSome (code : RsFec k m) (hk : 0 < k) (hk' : k < 256)
    (data : Fin k → Fin S → UInt8) (fecData : Fin m → Fin S → UInt8) {lostMap : Fin k ⊕ Fin m → Bool}
    (hlost : (lostPktId lostMap).length ≤ m) (hdet : (gf (deSubGM code lostMap)).det ≠ 0) :
    ∃ out, rsFecDecode code data fecData lostMap = some out := by
  unfold rsFecDecode
  rw [if_neg (by omega)]
  cases hinv : matrixInvGf256 (deSubGM code lostMap) with
  | none => exact absurd ((matrixInvGf256_eq_none_iff hk hk' _).1 hinv) hdet
  | some inv => exact ⟨_, rfl⟩

/-- The fallback code decodes every loss of at most `m` data blocks that enough parity blocks cover. -/
theorem rsFecDecode_fallback {code : RsFec k m} (hk : 0 < k) (hkm : k + m ≤ 255)
    (hcode : gf code.enGM = fallbackGM k m)
    (data : Fin k → Fin S → UInt8) (fecData : Fin m → Fin S → UInt8) {lostMap : Fin k ⊕ Fin m → Bool}
    (hlost : (lostPktId lostMap).length ≤ m)
    (hrecv : (lostPktId lostMap).length ≤ ((List.finRange m).filter fun j => lostMap (.inr j)).length) :
    ∃ out, rsFecDecode code data fecData lostMap = some out := by
  have h := le_length_recvIds hrecv
  refine rsFecDecode_isSome code hk (by omega) data fecData hlost ?_
  rw [gf_deSubGM code h, hcode]
  exact SystematicCode.det_pick_ne_zero (node_injective hkm) (pickIds_injective lostMap h)

theorem rsFecDecode_none_of_lt (code : RsFec k m) (hk : 0 < k) (hk' : k < 256)
    (data : Fin k → Fin S → UInt8) (fecData : Fin m → Fin S → UInt8) {lostMap : Fin k ⊕ Fin m → Bool}
    (h : (recvIds lostMap).length < k) : rsFecDecode code data fecData lostMap = none := by
  unfold rsFecDecode
  split
  · rfl
  · rw [(matrixInvGf256_eq_none_iff hk hk' _).2 (det_deSubGM_of_lt code h)]

/-- What a successful decoding returns. -/
theorem rsFecDecode_spec (code : RsFec k m) (hk : 0 < k) (hk' : k < 256)
    {orig data : Fin k → Fin S → UInt8} {fecData : Fin m → Fin S → UInt8}
    {lostMap : Fin k ⊕ Fin m → Bool} (hrecv : IsReceived code orig data fecData lostMap)
    {out : Fin k → Fin S → UInt8} (hout : rsFecDecode code data fecData lostMap = some out) (i : Fin k) :
    out i = if lostMap (.inl i) then data i else orig i := by
  have hle : k ≤ (recvIds lostMap).length := by
    by_contra h
    rw [rsFecDecode_none_of_lt code hk hk' data fecData (by omega)] at hout
    cases hout
  unfold rsFecDecode at hout
  split at hout
  · cases hout
  cases hinv : matrixInvGf256 (deSubGM code lostMap) with
  | none => rw [hinv] at hout; cases hout
  | some inv =>
    rw [hinv] at hout
    obtain ⟨hdet, hN⟩ := (matrixInvGf256_eq_some_iff hk hk' _ _).1 hinv
    have hmul : gf inv * gf (deSubGM code lostMap) = 1 := by
      rw [hN, nonsing_inv_mul _ (isUnit_iff_ne_zero.2 hdet)]
    have hres : out i = if i ∈ lostPktId lostMap then decodedBlock data fecData lostMap inv i
        else data i := by
      rw [← Option.some.inj hout]
      funext r
      by_cases hi : i ∈ lostPktId lostMap
      · simp only [hi, ↓reduceIte]; rfl
      · simp only [hi, ↓reduceIte]
    rw [hres, decodedBlock_eq code hrecv hle hmul]
    cases hi : lostMap (.inl i) with
    | false => rw [if_pos (mem_lostPktId.2 hi)]; rfl
    | true => rw [if_neg fun h => by rw [mem_lostPktId.1 h] at hi; cases hi]; rfl

theorem length_filter_finRange {n : Nat} (p : Fin n → Bool) :
    ((List.finRange n).filter p).length = (Finset.univ.filter fun i => p i = true).card := by
  rw [← List.toFinset_card_of_nodup ((List.nodup_finRange n).filter p)]
  congr 1
  ext i
  simp

theorem isReceived_of_parity {code : RsFec k m} {orig data : Fin k → Fin S → UInt8}
    {fecData : Fin m → Fin S → UInt8} {lostMap : Fin k ⊕ Fin m → Bool}
    (hdata : ∀ i, lostMap (.inl i) = true → data i = orig i)
    (hfec : ∀ j, lostMap (.inr j) = true → ∀ r,
      GF256.mk (fecData j r) = ∑ i, ⟨code.enGM j i⟩ * ⟨orig i r⟩) :
    IsReceived code orig data fecData lostMap := by
  rintro (i | j) hb r
  · show GF256.mk (data i r) = GF256.mk (orig i r)
    rw [hdata i hb]
  · show GF256.mk (fecData j r) = (gf code.enGM * gf (of orig)) j r
    rw [hfec j hb r, mul_apply]
    rfl

/-- Decoding undoes encoding: what `rs_fec_decode` returns has the original contents in every lost
data block and leaves the received ones alone; with fewer than `k` blocks it returns `-1`. -/
theorem rsFecDecode_undoes_encode {code : RsFec k m} (hnew : rsFecNew k m = some code)
    (orig data : Fin k → Fin S → UInt8) (fecData : Fin m → Fin S → UInt8)
    (lostMap : Fin k ⊕ Fin m → Bool) (hdata : ∀ i, lostMap (.inl i) = true → data i = orig i)
    (hfec : ∀ j, lostMap (.inr j) = true → ∀ r,
      GF256.mk (fecData j r) = ∑ i, ⟨code.enGM j i⟩ * ⟨orig i r⟩) :
    (∀ out, rsFecDecode code data fecData lostMap = some out →
      (∀ i, lostMap (.inl i) = false → out i = orig i) ∧
      ∀ i, lostMap (.inl i) = true → out i = data i) ∧
    ((Finset.univ.filter fun b => lostMap b = true).card < k →
      rsFecDecode code data fecData lostMap = none) := by
  obtain ⟨hk, hk'⟩ := rsFecNew_pos_lt hnew
  refine ⟨fun out hout => ?_, fun h => ?_⟩
  · have hspec := rsFecDecode_spec code hk hk' (isReceived_of_parity hdata hfec) hout
    refine ⟨fun i hi => ?_, fun i hi => ?_⟩
    · rw [hspec i, hi]; rfl
    · rw [hspec i, hi]; rfl
  · rw [← length_recvIds] at h
    exact rsFecDecode_none_of_lt code hk hk' data fecData h

/-- Two data blocks and one parity block, the first data block lost. -/
theorem rsFecDecode_undoes_encode_two_one :
    ∃ (code : RsFec 2 1) (fecData : Fin 1 → Fin 1 → UInt8) (out : Fin 2 → Fin 1 → UInt8),
      rsFecNew 2 1 = some code ∧
      rsFecDecode code ![![0], ![9]] fecData (fun b => b ≠ .inl 0) = some out ∧
      out 0 = ![7] ∧ out 1 = ![9] ∧
      rsFecDecode code ![![0], ![9]] fecData (fun b => b = .inr 0) = none := by
  obtain ⟨code, hnew, hcode⟩ := rsFecNew_fallback (k := 2) (m := 1) (by decide) (by decide) (by decide)
  let orig : Fin 2 → Fin 1 → UInt8 := ![![7], ![9]]
  let data : Fin 2 → Fin 1 → UInt8 := ![![0], ![9]]
  let fecData : Fin 1 → Fin 1 → UInt8 := fun j r =>
    (∑ i, (⟨code.enGM j i⟩ * ⟨orig i r⟩ : GF256)).byte
  obtain ⟨out, hout⟩ := @rsFecDecode_fallback 2 1 _ _ (by decide) (by decide) hcode data fecData
    (fun b => b ≠ .inl 0) (by decide) (by decide)
  obtain ⟨hlost, hkept⟩ := (rsFecDecode_undoes_encode hnew orig data fecData (fun b => b ≠ .inl 0)
    (by decide) fun _ _ _ => rfl).1 out hout
  have hnone := (rsFecDecode_undoes_encode hnew orig data fecData (fun b => b = .inr 0)
    (by decide) fun _ _ _ => rfl).2 (by decide)
  exact ⟨code, fecData, out, hnew, hout, hlost 0 rfl, hkept 1 rfl, hnone⟩

/-- The fallback code is maximum-distance separable: it exists, and it decodes every loss of at
most `m` data blocks for which as many parity blocks were received. -/
theorem rsFecNew_mds (hk : 1 ≤ k) (hkm : k + m ≤ 255) (hne : (k, m) ≠ (100, 5)) :
    ∃ code : RsFec k m, rsFecNew k m = some code ∧
      ∀ (S : Nat) (data : Fin k → Fin S → UInt8) (fecData : Fin m → Fin S → UInt8)
        (lostMap : Fin k ⊕ Fin m → Bool),
        (Finset.univ.filter fun i => lostMap (.inl i) = false).card ≤ m →
        (Finset.univ.filter fun i => lostMap (.inl i) = false).card ≤
          (Finset.univ.filter fun j => lostMap (.inr j) = true).card →
        ∃ out, rsFecDecode code data fecData lostMap = some out := by
  obtain ⟨code, hnew, hcode⟩ := rsFecNew_fallback (m := m) hk hkm fun h => hne (by rw [h.1, h.2])
  refine ⟨code, hnew, fun S data fecData lostMap hlost hrecv => ?_⟩
  have hcard : (lostPktId lostMap).length =
      (Finset.univ.filter fun i => lostMap (.inl i) = false).card := by
    rw [lostPktId, length_filter_finRange]
    simp
  rw [← hcard] at hlost hrecv
  rw [← length_filter_finRange] at hrecv
  exact rsFecDecode_fallback hk hkm hcode data fecData hlost hrecv

/-- Two of three data blocks lost, both parity blocks received. -/
theorem rsFecNew_mds_three_two :
    ∃ code : RsFec 3 2, rsFecNew 3 2 = some code ∧
      ∃ out, rsFecDecode code (fun _ _ => 0) (fun _ => ![1, 2]) (fun b => b ≠ .inl 0 ∧ b ≠ .inl 2) =
        some out := by
  obtain ⟨code, hnew, hdec⟩ := rsFecNew_mds (k := 3) (m := 2) (by decide) (by decide) (by decide)
  exact ⟨code, hnew, hdec 2 _ _ _ (by decide) (by decide)⟩

end Rtp2httpd
