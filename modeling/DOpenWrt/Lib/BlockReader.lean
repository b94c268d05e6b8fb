import Mathlib.Tactic

/-!
# Copying out of a block reader

A block reader hands out a sequence between two bounds in blocks of its own choice: from a position inside the bounds
at least one element, and never anything but the elements that follow. A copy that asks for block after block fills
its buffer.
-/

variable {α : Type*}

/-- `read lower upper consumed` is a block that starts `consumed` elements after `lower`. -/
structure BlockReader (data : List α) where
  read : ℕ → ℕ → ℕ → List α
  done : ∀ lower upper consumed, min upper data.length ≤ lower + consumed → read lower upper consumed = []
  block : ∀ lower upper consumed, lower + consumed < min upper data.length →
    read lower upper consumed ≠ [] ∧ read lower upper consumed <+: data.drop (lower + consumed)

namespace BlockReader

variable {data : List α}

/-- The reader that hands out all that follows as one block. -/
def whole (data : List α) : BlockReader data where
  read lower upper consumed := if lower + consumed < min upper data.length then data.drop (lower + consumed) else []
  done _ _ _ h := if_neg (Nat.not_lt.2 h)
  block lower upper consumed h := by
    rw [if_pos h]
    refine ⟨fun hnil => ?_, List.prefix_rfl⟩
    have := List.drop_eq_nil_iff.1 hnil
    omega

/-- A buffer is what has been written to each of its places. -/
def write (buf : ℕ → Option α) (pos : ℕ) (block : List α) : ℕ → Option α :=
  fun i => if pos ≤ i ∧ i < pos + block.length then block[i - pos]? else buf i

/-- Block after block until `len` elements are there or the reader has no more. -/
def copy (rd : BlockReader data) (lower upper len consumed : ℕ) (buf : ℕ → Option α) : ℕ → Option α :=
  if (rd.read lower upper consumed).length = 0 then buf
  else if consumed + (rd.read lower upper consumed).length ≥ len then
    write buf consumed (rd.read lower upper consumed)
  else
    copy rd lower upper len (consumed + (rd.read lower upper consumed).length)
      (write buf consumed (rd.read lower upper consumed))
termination_by len - consumed

theorem write_block {rd : BlockReader data} {lower upper consumed : ℕ} (h : lower + consumed < min upper data.length)
    {buf : ℕ → Option α} (hbuf : ∀ i < consumed, buf i = data[lower + i]?) :
    ∀ i < consumed + (rd.read lower upper consumed).length,
      write buf consumed (rd.read lower upper consumed) i = data[lower + i]? := by
  intro i hi
  obtain ⟨rest, hrest⟩ := (rd.block lower upper consumed h).2
  rw [write]
  split
  · next hin =>
    have : data[lower + i]? = (data.drop (lower + consumed))[i - consumed]? := by
      rw [List.getElem?_drop]
      congr 1
      omega
    rw [this, ← hrest, List.getElem?_append_left (by omega)]
  · exact hbuf i (by omega)

theorem copy_eq (rd : BlockReader data) {lower len consumed : ℕ} {buf : ℕ → Option α}
    (hin : lower + len ≤ data.length) (hc : consumed < len) (hbuf : ∀ i < consumed, buf i = data[lower + i]?) :
    ∀ i < len, copy rd lower (lower + len) len consumed buf i = data[lower + i]? := by
  fun_induction copy rd lower (lower + len) len consumed buf with
  | case1 consumed buf h0 =>
    have := (rd.block lower (lower + len) consumed (by omega)).1
    exact absurd (List.length_eq_zero_iff.1 h0) this
  | case2 consumed buf h0 hge =>
    intro i hi
    exact write_block (by omega) hbuf i (by omega)
  | case3 consumed buf h0 hlt ih => exact ih (by omega) (write_block (by omega) hbuf)

/-- A copy of elements that exist fills the buffer with them. -/
theorem copy_fills (rd : BlockReader data) {lower len : ℕ} (hin : lower + len ≤ data.length) (buf : ℕ → Option α) :
    ∀ i < len, copy rd lower (lower + len) len 0 buf i = data[lower + i]? := by
  intro i hi
  exact copy_eq rd hin (by omega) (by omega) i hi

end BlockReader
