import Mathlib.Tactic

/-!
# History rings

A ring of `n` slots keeps the `n` values pushed last. `Holds` ties it to the list of all values, the newest first.
-/

structure HistoryRing (α : Type*) (n : Nat) where
  history : Vector (Option α) n
  head : Nat
  count : Nat

namespace HistoryRing

variable {α : Type*} {n : Nat} {r : HistoryRing α n} {pushed : List α}

def empty (α : Type*) (n : Nat) : HistoryRing α n := ⟨.replicate n none, 0, 0⟩

/-- The value pushed `i` values before the newest. -/
def fromLatest (r : HistoryRing α n) (i : Nat) : Option α :=
  if r.count ≤ i then none else (r.history[(r.head + n - 1 - i) % n]?).join

def push (r : HistoryRing α n) (a : α) : HistoryRing α n where
  history := r.history.setIfInBounds r.head (some a)
  head := (r.head + 1) % n
  count := min (r.count + 1) n

structure Holds (r : HistoryRing α n) (pushed : List α) : Prop where
  head_lt : r.head < n
  count : r.count = min pushed.length n
  slot : ∀ i < r.count, r.history[(r.head + n - 1 - i) % n]? = some pushed[i]?

theorem holds_empty (h : 0 < n) : (empty α n).Holds [] where
  head_lt := h
  count := (Nat.zero_min n).symm
  slot _ hi := absurd hi (Nat.not_lt_zero _)

theorem slot_next {head i : Nat} (hhead : head < n) (hi : i + 1 < n) :
    ((head + 1) % n + n - 1 - (i + 1)) % n = (head + n - 1 - i) % n := by
  rcases Nat.lt_or_ge (head + 1) n with hlt | hge
  · rw [Nat.mod_eq_of_lt hlt]
    congr 1
    omega
  · obtain rfl : n = head + 1 := by omega
    rw [Nat.mod_self, Nat.mod_eq_of_lt (by omega), show head + (head + 1) - 1 - i = head - 1 - i + (head + 1) by omega,
      Nat.add_mod_right, Nat.mod_eq_of_lt (by omega)]
    omega

theorem slot_zero {head : Nat} (hhead : head < n) : ((head + 1) % n + n - 1 - 0) % n = head := by
  rcases Nat.lt_or_ge (head + 1) n with hlt | hge
  · rw [Nat.mod_eq_of_lt hlt, show head + 1 + n - 1 - 0 = head + n by omega, Nat.add_mod_right,
      Nat.mod_eq_of_lt hhead]
  · obtain rfl : n = head + 1 := by omega
    rw [Nat.mod_self, Nat.mod_eq_of_lt (by omega)]
    omega

/-- The slot of an earlier value is not the one that is written next. -/
theorem slot_ne {head i : Nat} (hhead : head < n) (hi : i + 1 < n) : (head + n - 1 - i) % n ≠ head := by
  rcases Nat.lt_or_ge (head + n - 1 - i) n with hlt | hge
  · rw [Nat.mod_eq_of_lt hlt]
    omega
  · rw [Nat.mod_eq_sub_mod hge, Nat.mod_eq_of_lt (by omega)]
    omega

theorem Holds.push (h : r.Holds pushed) (a : α) : (r.push a).Holds (a :: pushed) where
  head_lt := Nat.mod_lt _ ((Nat.zero_le _).trans_lt h.head_lt)
  count := by
    show min (r.count + 1) n = min (pushed.length + 1) n
    have := h.count
    omega
  slot i hi := by
    have hcount : i < min (r.count + 1) n := hi
    show (r.history.setIfInBounds r.head (some a))[((r.head + 1) % n + n - 1 - i) % n]? = _
    cases i with
    | zero =>
      rw [slot_zero h.head_lt, List.getElem?_cons_zero, Vector.getElem?_setIfInBounds_self_of_lt h.head_lt]
    | succ i =>
      rw [slot_next h.head_lt (by omega), List.getElem?_cons_succ,
        Vector.getElem?_setIfInBounds_ne (slot_ne h.head_lt (by omega)).symm]
      exact h.slot i (by omega)

/-- Up to the count the ring has the values pushed last, and none beyond it. -/
theorem Holds.fromLatest (h : r.Holds pushed) (i : Nat) : r.fromLatest i = if i < n then pushed[i]? else none := by
  have hcount := h.count
  unfold HistoryRing.fromLatest
  by_cases hi : r.count ≤ i
  · rw [if_pos hi]
    split_ifs with hn
    · exact (List.getElem?_eq_none (by omega)).symm
    · rfl
  · rw [if_neg hi, h.slot i (Nat.lt_of_not_le hi), if_pos (by omega)]
    rfl

theorem Holds.count_le (h : r.Holds pushed) : r.count ≤ n := h.count ▸ Nat.min_le_right ..

end HistoryRing
