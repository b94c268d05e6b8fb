import Mathlib.Data.BitVec
import Mathlib.Tactic

/-!
# Serial numbers

Counters of `n` bits that wrap around. `ahead a b` says how many steps `a` is ahead of `b`, and
`sdiff a b` is their difference read as a signed number, the comparison by which protocols order such
counters. A ring of `w` slots with `w ∣ 2 ^ n` gives each of `w` consecutive numbers a slot of its own. The comparison
is an order on numbers that lie within half the circle, and on no others: three numbers can each be behind the next.
-/

namespace Serial

variable {n : ℕ} {a b c : BitVec n}

/-- How many steps `a` is ahead of `b`. -/
def ahead (a b : BitVec n) : ℕ := (a - b).toNat

/-- The signed difference. -/
def sdiff (a b : BitVec n) : ℤ := (a - b).toInt

theorem ahead_lt (a b : BitVec n) : ahead a b < 2 ^ n := (a - b).isLt

@[simp] theorem ahead_self (a : BitVec n) : ahead a a = 0 := by simp [ahead]

theorem ahead_eq_zero : ahead a b = 0 ↔ a = b := by
  constructor
  · intro h
    have : a - b = 0 := BitVec.eq_of_toNat_eq (by simpa [ahead] using h)
    simpa [BitVec.sub_eq_iff_eq_add] using this
  · rintro rfl
    exact ahead_self a

/-- `a` is where it is ahead of `b`. -/
theorem add_ahead (a b : BitVec n) : b + BitVec.ofNat n (ahead a b) = a := by
  rw [ahead, BitVec.ofNat_toNat, BitVec.setWidth_eq, BitVec.add_comm, BitVec.sub_add_cancel]

theorem ahead_add {i : ℕ} (hi : i < 2 ^ n) (b : BitVec n) : ahead (b + BitVec.ofNat n i) b = i := by
  rw [ahead, BitVec.add_comm, BitVec.add_sub_cancel, BitVec.toNat_ofNat, Nat.mod_eq_of_lt hi]

theorem ahead_left_injective (h : ahead a c = ahead b c) : a = b := by
  rw [← add_ahead a c, h, add_ahead]

/-- Going from `c` to `b` and on to `a`. -/
theorem ahead_trans (a b c : BitVec n) : ahead a c = (ahead a b + ahead b c) % 2 ^ n := by
  have : a - c = (a - b) + (b - c) := (sub_add_sub_cancel a b c).symm
  rw [ahead, this, BitVec.toNat_add]
  rfl

theorem ahead_trans_of_lt (h : ahead a b + ahead b c < 2 ^ n) :
    ahead a c = ahead a b + ahead b c := by
  rw [ahead_trans a b c, Nat.mod_eq_of_lt h]

/-- The way back is the rest of the circle. -/
theorem ahead_swap (h : a ≠ b) : ahead a b + ahead b a = 2 ^ n := by
  have h0 : ahead a b ≠ 0 := fun h' => h (ahead_eq_zero.1 h')
  have ht := ahead_trans a b a
  rw [ahead_self] at ht
  have h1 := ahead_lt a b
  have h2 := ahead_lt b a
  exact Nat.eq_of_dvd_of_lt_two_mul (by omega) (Nat.dvd_of_mod_eq_zero ht.symm) (by omega)

/-- Moving the reference on by one, past a number other than `a`. -/
theorem ahead_succ (h : a ≠ b) : ahead a (b + 1) = ahead a b - 1 := by
  have h0 : ahead a b ≠ 0 := fun h' => h (ahead_eq_zero.1 h')
  have hlt := ahead_lt a b
  have hn : 0 < n := by
    rcases Nat.eq_zero_or_pos n with rfl | hn
    · omega
    · exact hn
  have h1 : a = (b + 1) + BitVec.ofNat n (ahead a b - 1) := by
    rw [BitVec.add_assoc]
    have : (1 : BitVec n) + BitVec.ofNat n (ahead a b - 1) = BitVec.ofNat n (ahead a b) := by
      apply BitVec.eq_of_toNat_eq
      have h1n : 1 < 2 ^ n := Nat.one_lt_two_pow (by omega)
      simp only [BitVec.toNat_add, BitVec.toNat_ofNat, BitVec.ofNat_eq_ofNat]
      rw [Nat.mod_eq_of_lt h1n, Nat.mod_eq_of_lt (show ahead a b - 1 < 2 ^ n by omega)]
      congr 1
      omega
    rw [this, add_ahead]
  conv_lhs => rw [h1]
  exact ahead_add (by omega) _

/-- Moving the reference past `a` itself. -/
theorem ahead_succ_self (hn : 0 < n) (a : BitVec n) : ahead a (a + 1) = 2 ^ n - 1 := by
  have h1n : 1 < 2 ^ n := Nat.one_lt_two_pow (by omega)
  have h : a + 1 ≠ a := by
    intro h
    have := ahead_add h1n a
    rw [show BitVec.ofNat n 1 = 1 from rfl, h, ahead_self] at this
    omega
  have := ahead_swap h
  rw [show (1 : BitVec n) = BitVec.ofNat n 1 from rfl, ahead_add h1n a] at this
  rw [show (1 : BitVec n) = BitVec.ofNat n 1 from rfl]
  omega

theorem sdiff_eq (a b : BitVec n) :
    sdiff a b = if 2 * ahead a b < 2 ^ n then (ahead a b : ℤ) else ahead a b - (2 : ℤ) ^ n := by
  rw [sdiff, BitVec.toInt_eq_toNat_cond]
  simp [ahead]

/-! ### Slots -/

section Slots

variable {w : ℕ}

/-- The slot of the number `i` steps after `b`. -/
theorem toNat_add_mod (hw : w ∣ 2 ^ n) (b : BitVec n) (i : ℕ) :
    (b + BitVec.ofNat n i).toNat % w = (b.toNat + i) % w := by
  rw [BitVec.toNat_add, BitVec.toNat_ofNat, Nat.mod_mod_of_dvd _ hw, Nat.add_mod,
    Nat.mod_mod_of_dvd _ hw, ← Nat.add_mod]

/-- Among `w` consecutive numbers no two share a slot. -/
theorem eq_of_slot_eq (hw : w ∣ 2 ^ n) (ha : ahead a c < w) (hb : ahead b c < w)
    (h : a.toNat % w = b.toNat % w) : a = b := by
  rw [← add_ahead a c, ← add_ahead b c, toNat_add_mod hw, toNat_add_mod hw] at h
  have hmod : (ahead a c) % w = (ahead b c) % w := Nat.ModEq.add_left_cancel' c.toNat h
  rw [Nat.mod_eq_of_lt ha, Nat.mod_eq_of_lt hb] at hmod
  exact ahead_left_injective hmod

end Slots

/-! ### The earliest of some numbers -/

section Earliest

variable {s t : Set (BitVec n)} {m e : BitVec n}

/-- The numbers of `s` lie within half the circle. -/
def HalfCircle (s : Set (BitVec n)) : Prop := ∃ lo, ∀ a ∈ s, 2 * ahead a lo < 2 ^ n

/-- `m` is one of the numbers `s`, and none of them is before it. -/
def IsEarliest (s : Set (BitVec n)) (m : BitVec n) : Prop := m ∈ s ∧ ∀ a ∈ s, 0 ≤ sdiff a m

theorem HalfCircle.mono (h : HalfCircle s) (hts : t ⊆ s) : HalfCircle t := by
  obtain ⟨lo, hlo⟩ := h
  exact ⟨lo, fun a ha => hlo a (hts ha)⟩

/-- On half the circle the signed difference is one of positions. -/
theorem sdiff_of_half {lo : BitVec n} (ha : 2 * ahead a lo < 2 ^ n) (hb : 2 * ahead b lo < 2 ^ n) :
    sdiff a b = (ahead a lo : ℤ) - ahead b lo := by
  have hab := ahead_lt a b
  have htrans := ahead_trans a b lo
  have hcast : (2 : ℤ) ^ n = ((2 ^ n : ℕ) : ℤ) := by norm_cast
  rw [sdiff_eq, hcast]
  generalize 2 ^ n = N at *
  rcases Nat.lt_or_ge (ahead a b + ahead b lo) N with hlt | hge
  · rw [Nat.mod_eq_of_lt hlt] at htrans
    rw [if_pos (by omega)]
    omega
  · have hmod : (ahead a b + ahead b lo) % N = ahead a b + ahead b lo - N := by
      rw [Nat.mod_eq_sub_mod hge, Nat.mod_eq_of_lt (by omega)]
    rw [hmod] at htrans
    rw [if_neg (by omega)]
    omega

theorem isEarliest_singleton (m : BitVec n) : IsEarliest {m} m := by
  refine ⟨rfl, ?_⟩
  rintro a rfl
  simp [sdiff]

namespace IsEarliest

variable (h : IsEarliest s m)
include h

theorem subset (hts : t ⊆ s) (hm : m ∈ t) : IsEarliest t m := ⟨hm, fun a ha => h.2 a (hts ha)⟩

/-- Comparing a further number with the earliest so far. -/
theorem insert (hs : HalfCircle (insert e s)) : IsEarliest (insert e s) (if sdiff e m < 0 then e else m) := by
  obtain ⟨lo, hlo⟩ := hs
  have he := hlo e (Set.mem_insert e s)
  have hm := hlo m (Set.mem_insert_of_mem e h.1)
  split
  · next hlt =>
    refine ⟨Set.mem_insert e s, fun a ha => ?_⟩
    rcases Set.mem_insert_iff.1 ha with rfl | ha
    · simp [sdiff]
    · have hle := h.2 a ha
      have ha := hlo a (Set.mem_insert_of_mem e ha)
      rw [sdiff_of_half he hm] at hlt
      rw [sdiff_of_half ha hm] at hle
      rw [sdiff_of_half ha he]
      omega
  · next hge =>
    refine ⟨Set.mem_insert_of_mem e h.1, fun a ha => ?_⟩
    rcases Set.mem_insert_iff.1 ha with rfl | ha
    · omega
    · exact h.2 a ha

/-- A number has passed the earliest if and only if it has passed any. -/
theorem passed_iff {b : BitVec n} (hs : HalfCircle (Insert.insert b s)) :
    0 < sdiff b m ↔ ∃ a ∈ s, 0 < sdiff b a := by
  obtain ⟨lo, hlo⟩ := hs
  have hb := hlo b (Set.mem_insert b s)
  have hm := hlo m (Set.mem_insert_of_mem b h.1)
  refine ⟨fun hpos => ⟨m, h.1, hpos⟩, ?_⟩
  rintro ⟨a, ha, hpos⟩
  have hle := h.2 a ha
  have ha := hlo a (Set.mem_insert_of_mem b ha)
  rw [sdiff_of_half hb ha] at hpos
  rw [sdiff_of_half ha hm] at hle
  rw [sdiff_of_half hb hm]
  omega

end IsEarliest

end Earliest

end Serial
