import Mathlib.Algebra.Field.Basic
import Mathlib.Algebra.Field.MinimalAxioms
import Mathlib.Data.Fintype.Card
import Mathlib.Data.UInt
import Mathlib.Dynamics.PeriodicPts.Lemmas

/-!
# GF(256) by exponential and logarithm tables (`rs_fec.c`)

`generate_gf_tables` walks the powers of `x` modulo `x^8+x^4+x^3+x^2+1`; the coder multiplies by
adding logarithms modulo 255. `xtime` is multiplication by `x` on bytes: it is additive, its orbit
of `1` has length 255 and so passes through every nonzero byte. With `gfMul a b` read as "apply
`xtime` `rsLog a` times to `b`" the field laws follow, and `GF256` is the byte type with these
operations.
-/

namespace Rtp2httpd

/-- `RS_MODULUS`: x^8+x^4+x^3+x^2+1=0. -/
def rsModulus : UInt16 := 0x1d

/-- One turn of the loop of `generate_gf_tables` on its `uint16_t y`. -/
def gfNext (y : UInt16) : UInt16 :=
  let y := y <<< 1
  let y := if y &&& 0x100 ≠ 0 then y ^^^ rsModulus else y
  y % 0x100

/-- The loop of `generate_gf_tables` that fills `rs_exp[0..n-1]`; `x` is `y` as a `uint8_t`. -/
def genExp : Nat → UInt16 → List UInt8
  | 0, _ => []
  | n + 1, y => y.toUInt8 :: genExp n (gfNext y)

/-- `rs_exp`: the powers, and `0` at index `RS_SIZE`. -/
def rsExpTable : List UInt8 := genExp 255 1 ++ [0]

def rsExp (i : Nat) : UInt8 := rsExpTable.getD i 0

/-- `rs_log`: the second loop of `generate_gf_tables`, `rs_log[rs_exp[i]] = i` for `i ≤ RS_SIZE`. -/
def rsLog : UInt8 → Nat :=
  rsExpTable.zipIdx.foldl (fun t p => Function.update t p.1 p.2) fun _ => 0

/-- The product as the coder writes it out: skipped when a factor is zero. -/
def gfMul (a b : UInt8) : UInt8 :=
  if a ≠ 0 ∧ b ≠ 0 then rsExp ((rsLog a + rsLog b) % 255) else 0

/-! ### Multiplication by `x` -/

/-- Multiplication by `x` on a byte. -/
def xtime (a : UInt8) : UInt8 := ⟨a.toBitVec <<< 1 ^^^ if a.toBitVec.msb then 0x1d else 0⟩

theorem xtime_xor (a b : UInt8) : xtime (a ^^^ b) = xtime a ^^^ xtime b := by
  have hred : ∀ m n : Bool, (if m ^^ n then (0x1d : BitVec 8) else 0) =
      (if m then 0x1d else 0) ^^^ if n then 0x1d else 0 := by decide
  apply UInt8.toBitVec_inj.1
  simp only [xtime, UInt8.toBitVec_xor, BitVec.shiftLeft_xor_distrib, BitVec.msb_xor, hred]
  ac_rfl

theorem xtime_zero : xtime 0 = 0 := by decide

theorem xtime_injective : Function.Injective xtime := by
  intro a b h
  have h0 : xtime (a ^^^ b) = 0 := by rw [xtime_xor, h, UInt8.xor_self]
  have key : ∀ c : Fin 256, xtime (UInt8.ofNat c) = 0 → UInt8.ofNat c = 0 := by decide +kernel
  have := key ⟨(a ^^^ b).toNat, (a ^^^ b).toNat_lt⟩ (by simpa using h0)
  exact UInt8.xor_eq_zero_iff.1 (by simpa using this)

theorem iterate_xtime_xor (i : Nat) (a b : UInt8) :
    xtime^[i] (a ^^^ b) = xtime^[i] a ^^^ xtime^[i] b := by
  induction i generalizing a b with
  | zero => rfl
  | succ i ih => rw [Function.iterate_succ_apply, xtime_xor, ih]; rfl

theorem iterate_xtime_zero (i : Nat) : xtime^[i] 0 = 0 :=
  Function.iterate_fixed xtime_zero i

/-- The orbit of `1` closes after 255 steps and not at a proper divisor of 255. -/
theorem minimalPeriod_xtime : Function.minimalPeriod xtime 1 = 255 := by
  have hper : Function.IsPeriodicPt xtime 255 1 := by
    show xtime^[255] 1 = 1
    decide +kernel
  have hdvd := hper.minimalPeriod_dvd
  have hpos := hper.minimalPeriod_pos (by decide)
  have hfix := Function.isPeriodicPt_minimalPeriod xtime (1 : UInt8)
  have hno : ∀ d < 255, 0 < d → d ∣ 255 → xtime^[d] 1 ≠ 1 := by decide +kernel
  refine le_antisymm (Nat.le_of_dvd (by decide) hdvd) (Nat.le_of_not_lt fun hlt => ?_)
  exact hno _ hlt hpos hdvd hfix

theorem iterate_xtime_injOn {i j : Nat} (hi : i < 255) (hj : j < 255)
    (h : xtime^[i] 1 = xtime^[j] 1) : i = j := by
  have := Function.iterate_injOn_Iio_minimalPeriod (f := xtime) (x := (1 : UInt8))
  rw [minimalPeriod_xtime] at this
  exact this hi hj h

theorem iterate_xtime_ne_zero (i : Nat) : xtime^[i] 1 ≠ 0 := by
  intro h
  rw [← iterate_xtime_zero i] at h
  exact absurd (xtime_injective.iterate i h) (by decide)

theorem iterate_xtime_mod (i : Nat) : xtime^[i % 255] 1 = xtime^[i] 1 := by
  rw [← minimalPeriod_xtime]
  exact Function.iterate_mod_minimalPeriod_eq

/-- Every nonzero byte is a power of `x`. -/
theorem exists_iterate_xtime (a : UInt8) (ha : a ≠ 0) : ∃ i < 255, xtime^[i] 1 = a := by
  set f : Nat → Nat := fun i => (xtime^[i] 1).toNat with hf
  have hinj : Set.InjOn f (Finset.range 255) := fun i hi j hj h =>
    iterate_xtime_injOn (by simpa using hi) (by simpa using hj) (UInt8.toNat_inj.1 h)
  have hsub : (Finset.range 255).image f ⊆ (Finset.range 256).erase 0 := fun x hx => by
    obtain ⟨i, -, rfl⟩ := Finset.mem_image.1 hx
    refine Finset.mem_erase.2 ⟨fun h => iterate_xtime_ne_zero i (UInt8.toNat_inj.1 h), ?_⟩
    exact Finset.mem_range.2 (UInt8.toNat_lt _)
  have heq := Finset.eq_of_subset_of_card_le hsub (by
    rw [Finset.card_image_of_injOn hinj]; simp)
  have hmem : a.toNat ∈ (Finset.range 256).erase 0 :=
    Finset.mem_erase.2 ⟨fun h => ha (UInt8.toNat_inj.1 h), Finset.mem_range.2 (UInt8.toNat_lt _)⟩
  rw [← heq] at hmem
  obtain ⟨i, hi, h⟩ := Finset.mem_image.1 hmem
  exact ⟨i, Finset.mem_range.1 hi, UInt8.toNat_inj.1 h⟩

/-! ### The tables -/

theorem gfNext_toUInt8 (y : UInt16) (hy : y.toNat < 256) :
    (gfNext y).toNat < 256 ∧ (gfNext y).toUInt8 = xtime y.toUInt8 := by
  have key : ∀ c : Fin 256, (gfNext (UInt16.ofNat c)).toNat < 256 ∧
      (gfNext (UInt16.ofNat c)).toUInt8 = xtime (UInt16.ofNat c).toUInt8 := by decide +kernel
  simpa using key ⟨y.toNat, hy⟩

theorem getD_genExp (n i : Nat) (y : UInt16) (hy : y.toNat < 256) (hi : i < n) :
    (genExp n y).getD i 0 = xtime^[i] y.toUInt8 := by
  induction n generalizing i y with
  | zero => omega
  | succ n ih =>
    obtain ⟨hlt, hnext⟩ := gfNext_toUInt8 y hy
    cases i with
    | zero => rfl
    | succ i =>
      rw [genExp, List.getD_cons_succ, ih i _ hlt (by omega), hnext, Function.iterate_succ_apply]

theorem length_genExp (n : Nat) (y : UInt16) : (genExp n y).length = n := by
  induction n generalizing y with
  | zero => rfl
  | succ n ih => simp [genExp, ih]

/-- `rs_exp[i]` is the `i`-th power of `x`. -/
theorem rsExp_eq (i : Nat) (hi : i < 255) : rsExp i = xtime^[i] 1 := by
  have h := getD_genExp 255 i 1 (by decide) hi
  rw [List.getD_eq_getElem?_getD] at h
  rw [rsExp, rsExpTable, List.getD_eq_getElem?_getD,
    List.getElem?_append_left (by rw [length_genExp]; exact hi), h]
  rfl

theorem rsExp_255 : rsExp 255 = 0 := by
  rw [rsExp, rsExpTable, List.getD_eq_getElem?_getD,
    List.getElem?_append_right (by rw [length_genExp]), length_genExp]
  rfl

theorem rsExp_mod (i : Nat) : rsExp (i % 255) = xtime^[i] 1 := by
  rw [rsExp_eq _ (Nat.mod_lt i (by decide)), iterate_xtime_mod]

theorem rsExp_injOn {i j : Nat} (hi : i < 256) (hj : j < 256) (h : rsExp i = rsExp j) : i = j := by
  rcases Nat.lt_succ_iff_lt_or_eq.1 hi with hi' | rfl <;>
    rcases Nat.lt_succ_iff_lt_or_eq.1 hj with hj' | rfl
  · rw [rsExp_eq i hi', rsExp_eq j hj'] at h; exact iterate_xtime_injOn hi' hj' h
  · rw [rsExp_eq i hi', rsExp_255] at h; exact absurd h (iterate_xtime_ne_zero i)
  · rw [rsExp_eq j hj', rsExp_255] at h; exact absurd h.symm (iterate_xtime_ne_zero j)
  · rfl

/-- A table filled by `t[x] = i` for the distinct entries `x` of a list holds the index of each. -/
theorem foldl_update_zipIdx {α : Type*} [DecidableEq α] (l : List α) (hl : l.Nodup) (t : α → Nat)
    (o i : Nat) (hi : i < l.length) :
    (l.zipIdx o).foldl (fun t p => Function.update t p.1 p.2) t l[i] = o + i := by
  induction l using List.reverseRecOn with
  | nil => simp at hi
  | append_singleton l x ih =>
    rw [List.zipIdx_append, List.foldl_append, List.zipIdx_singleton, List.foldl_cons, List.foldl_nil]
    obtain ⟨hnd, -, hx⟩ := List.nodup_append.1 hl
    rcases Nat.lt_or_ge i l.length with hlt | hge
    · have hne : l[i] ≠ x := hx _ (List.getElem_mem hlt) _ (List.mem_singleton_self x)
      rw [List.getElem_append_left hlt, Function.update_of_ne hne]
      exact ih hnd hlt
    · have hi' : i = l.length := by rw [List.length_append, List.length_singleton] at hi; omega
      subst hi'
      simp

theorem length_rsExpTable : rsExpTable.length = 256 := by
  simp [rsExpTable, length_genExp]

theorem getElem_rsExpTable {i : Nat} (hi : i < rsExpTable.length) : rsExpTable[i] = rsExp i := by
  rw [rsExp, List.getD_eq_getElem?_getD, List.getElem?_eq_getElem hi, Option.getD_some]

/-- `rs_log` inverts `rs_exp`. -/
theorem rsLog_rsExp (i : Nat) (hi : i < 256) : rsLog (rsExp i) = i := by
  have hlt : i < rsExpTable.length := by rw [length_rsExpTable]; exact hi
  have hnd : rsExpTable.Nodup := List.nodup_iff_injective_getElem.2 fun a b h => by
    have ha : a.val < 256 := length_rsExpTable ▸ a.isLt
    have hb : b.val < 256 := length_rsExpTable ▸ b.isLt
    simp only [getElem_rsExpTable] at h
    exact Fin.ext (rsExp_injOn ha hb h)
  have h := foldl_update_zipIdx rsExpTable hnd (fun _ => 0) 0 i hlt
  rwa [getElem_rsExpTable, Nat.zero_add] at h

theorem rsLog_iterate (i : Nat) : rsLog (xtime^[i] 1) = i % 255 := by
  have hi := Nat.mod_lt i (show 255 > 0 by decide)
  rw [← rsExp_mod, rsLog_rsExp _ (by omega)]

theorem rsLog_lt {a : UInt8} (ha : a ≠ 0) : rsLog a < 255 := by
  obtain ⟨i, hi, rfl⟩ := exists_iterate_xtime a ha
  rw [rsLog_iterate]; omega

theorem iterate_rsLog {a : UInt8} (ha : a ≠ 0) : xtime^[rsLog a] 1 = a := by
  obtain ⟨i, hi, rfl⟩ := exists_iterate_xtime a ha
  rw [rsLog_iterate, iterate_xtime_mod]

/-! ### The field -/

theorem gfMul_zero (a : UInt8) : gfMul a 0 = 0 := by simp [gfMul]
theorem zero_gfMul (a : UInt8) : gfMul 0 a = 0 := by simp [gfMul]

/-- Multiplying by `a` is multiplying by `x`, `rsLog a` times. -/
theorem gfMul_eq_iterate {a : UInt8} (ha : a ≠ 0) (b : UInt8) : gfMul a b = xtime^[rsLog a] b := by
  by_cases hb : b = 0
  · rw [hb, gfMul_zero, iterate_xtime_zero]
  · rw [gfMul, if_pos ⟨ha, hb⟩, rsExp_mod, Function.iterate_add_apply, iterate_rsLog hb]

theorem gfMul_ne_zero {a b : UInt8} (ha : a ≠ 0) (hb : b ≠ 0) : gfMul a b ≠ 0 := by
  rw [gfMul, if_pos ⟨ha, hb⟩, rsExp_mod]; exact iterate_xtime_ne_zero _

theorem rsLog_gfMul {a b : UInt8} (ha : a ≠ 0) (hb : b ≠ 0) :
    rsLog (gfMul a b) = (rsLog a + rsLog b) % 255 := by
  rw [gfMul, if_pos ⟨ha, hb⟩, rsExp_mod, rsLog_iterate]

theorem gfMul_comm (a b : UInt8) : gfMul a b = gfMul b a := by
  simp only [gfMul, and_comm, Nat.add_comm]

theorem gfMul_assoc (a b c : UInt8) : gfMul (gfMul a b) c = gfMul a (gfMul b c) := by
  by_cases ha : a = 0
  · simp [ha, zero_gfMul]
  by_cases hb : b = 0
  · simp [hb, zero_gfMul, gfMul_zero]
  rw [gfMul_eq_iterate (gfMul_ne_zero ha hb), gfMul_eq_iterate ha (gfMul b c), gfMul_eq_iterate hb,
    ← Function.iterate_add_apply, rsLog_gfMul ha hb]
  by_cases hc : c = 0
  · simp [hc, iterate_xtime_zero]
  · rw [← iterate_rsLog hc, ← Function.iterate_add_apply, ← Function.iterate_add_apply,
      ← iterate_xtime_mod, ← iterate_xtime_mod (_ + _ + _), Nat.mod_add_mod]

theorem gfMul_xor (a b c : UInt8) : gfMul a (b ^^^ c) = gfMul a b ^^^ gfMul a c := by
  by_cases ha : a = 0
  · simp [ha, zero_gfMul]
  · simp only [gfMul_eq_iterate ha, iterate_xtime_xor]

theorem one_gfMul (a : UInt8) : gfMul 1 a = a := by
  have h1 : rsLog 1 = 0 := rsLog_iterate 0
  rw [gfMul_eq_iterate (by decide), h1]; rfl

/-- The inverse as `matrix_inv_gf256` looks it up: `rs_exp[RS_SIZE - rs_log[a]]`, modulo `RS_SIZE`. -/
def gfInv (a : UInt8) : UInt8 := if a = 0 then 0 else rsExp ((255 - rsLog a) % 255)

theorem gfMul_gfInv {a : UInt8} (ha : a ≠ 0) : gfMul a (gfInv a) = 1 := by
  have hlt := rsLog_lt ha
  rw [gfInv, if_neg ha, gfMul_eq_iterate ha, rsExp_mod, ← Function.iterate_add_apply,
    ← iterate_xtime_mod, show (rsLog a + (255 - rsLog a)) % 255 = 0 by omega]
  rfl

/-- A byte as an element of GF(256). -/
@[ext] structure GF256 where
  byte : UInt8
deriving DecidableEq

namespace GF256

instance : Add GF256 := ⟨fun a b => ⟨a.byte ^^^ b.byte⟩⟩
instance : Zero GF256 := ⟨⟨0⟩⟩
instance : Neg GF256 := ⟨id⟩
instance : Mul GF256 := ⟨fun a b => ⟨gfMul a.byte b.byte⟩⟩
instance : One GF256 := ⟨⟨1⟩⟩
instance : Inv GF256 := ⟨fun a => ⟨gfInv a.byte⟩⟩

instance : Field GF256 :=
  Field.ofMinimalAxioms GF256
    (fun _ _ _ => GF256.ext (UInt8.xor_assoc ..)) (fun _ => GF256.ext UInt8.zero_xor)
    (fun _ => GF256.ext UInt8.xor_self) (fun _ _ _ => GF256.ext (gfMul_assoc ..))
    (fun _ _ => GF256.ext (gfMul_comm ..)) (fun _ => GF256.ext (one_gfMul _))
    (fun _ ha => GF256.ext (gfMul_gfInv fun h => ha (GF256.ext h))) (GF256.ext rfl)
    (fun _ _ _ => GF256.ext (gfMul_xor ..)) ⟨0, 1, fun h => absurd (congrArg byte h) (by decide)⟩

theorem mk_eq_zero {a : UInt8} : mk a = 0 ↔ a = 0 := mk.injEq .. ▸ Iff.rfl

theorem mk_zero : mk 0 = 0 := rfl
theorem mk_one : mk 1 = 1 := rfl
theorem mk_xor (a b : UInt8) : mk (a ^^^ b) = mk a + mk b := rfl
theorem mk_gfMul (a b : UInt8) : mk (gfMul a b) = mk a * mk b := rfl
theorem mk_gfInv (a : UInt8) : mk (gfInv a) = (mk a)⁻¹ := rfl

theorem sub_eq_add (a b : GF256) : a - b = a + b := sub_eq_add_neg a b

/-- The powers of `x`. -/
theorem mk_rsExp_mod (i : Nat) : mk (rsExp (i % 255)) = mk 2 ^ i := by
  rw [rsExp_mod]
  induction i with
  | zero => rfl
  | succ i ih =>
    have h2 : rsLog 2 = 1 := rsLog_iterate 1
    have hx : xtime (xtime^[i] 1) = gfMul 2 (xtime^[i] 1) := by
      rw [gfMul_eq_iterate (by decide), h2]; rfl
    rw [Function.iterate_succ_apply', hx, mk_gfMul, ih, pow_succ']

/-- The first 255 powers of `x` are distinct. -/
theorem pow_injOn {i j : Nat} (hi : i < 255) (hj : j < 255) (h : mk 2 ^ i = mk 2 ^ j) : i = j := by
  rw [← mk_rsExp_mod, ← mk_rsExp_mod, Nat.mod_eq_of_lt hi, Nat.mod_eq_of_lt hj] at h
  exact rsExp_injOn (by omega) (by omega) (mk.inj h)

end GF256

end Rtp2httpd
