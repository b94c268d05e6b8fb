import Mathlib.Data.Fintype.Card
import Mathlib.Tactic

/-!
# Counting in a table of slots

A table gives every index at most one value. `tally p` counts the filled slots that satisfy `p`, and
changes by at most one with every slot that is filled or emptied.
-/

namespace SlotTable
open Function

variable {ι α : Type*} [Fintype ι] {p q : ι → α → Bool} {slots : ι → Option α} {i : ι}

def tally (p : ι → α → Bool) (slots : ι → Option α) : ℕ :=
  (Finset.univ.filter fun i => (slots i).any (p i)).card

theorem tally_congr (h : ∀ i a, slots i = some a → p i a = q i a) : tally p slots = tally q slots := by
  unfold tally
  congr 1
  apply Finset.filter_congr
  intro i _
  cases ha : slots i with
  | none => rfl
  | some a => simp only [Option.any_some, h i a ha]

theorem tally_mono {slots' : ι → Option α}
    (h : ∀ i a, slots i = some a → p i a → slots' i = some a ∧ q i a) : tally p slots ≤ tally q slots' := by
  refine Finset.card_le_card fun i hi => ?_
  simp only [Finset.mem_filter, Finset.mem_univ, true_and, Option.any_eq_true] at hi ⊢
  obtain ⟨a, ha, hp⟩ := hi
  exact ⟨a, h i a ha hp⟩

theorem tally_eq_zero : tally p slots = 0 ↔ ∀ i a, slots i = some a → p i a = false := by
  simp only [tally, Finset.card_eq_zero, Finset.filter_eq_empty_iff, Finset.mem_univ, true_imp_iff]
  refine forall_congr' fun i => ?_
  cases slots i <;> simp

theorem tally_le : tally p slots ≤ Fintype.card ι := Finset.card_le_univ _

@[simp] theorem tally_empty (p : ι → α → Bool) : tally p (fun _ => none) = 0 :=
  tally_eq_zero.2 fun _ _ h => by cases h

variable [DecidableEq ι]

/-- Filling an empty slot. -/
theorem tally_fill (h : slots i = none) (a : α) :
    tally p (update slots i (some a)) = tally p slots + if p i a then 1 else 0 := by
  unfold tally
  have hi : i ∉ Finset.univ.filter fun i => (slots i).any (p i) := by simp [h]
  split
  · next hp =>
    rw [← Finset.card_insert_of_notMem hi]
    congr 1
    ext j
    rcases eq_or_ne j i with rfl | hj
    · simp [hp]
    · simp [hj]
  · next hp =>
    rw [Nat.add_zero]
    congr 1
    ext j
    rcases eq_or_ne j i with rfl | hj
    · simp [hp, h]
    · simp [update_of_ne hj]

/-- Emptying a filled slot. -/
theorem tally_clear {a : α} (h : slots i = some a) :
    tally p slots = tally p (update slots i none) + if p i a then 1 else 0 := by
  have := @tally_fill _ _ _ p (update slots i none) i _ (by simp) a
  rw [update_idem, ← h, update_eq_self] at this
  exact this

theorem tally_clear_none (h : slots i = none) : tally p (update slots i none) = tally p slots := by
  rw [← h, update_eq_self]

/-- Emptying a slot whose value is not counted. -/
theorem tally_clear_of_not {a : α} (h : slots i = some a) (hp : p i a = false) :
    tally p (update slots i none) = tally p slots := by
  rw [tally_clear h, hp]
  rfl

/-- Where only slot `i` is judged otherwise, one value less is counted. -/
theorem tally_succ_eq {a : α} (h : slots i = some a) (hp : p i a = true) (hq : q i a = false)
    (hpq : ∀ j b, slots j = some b → j ≠ i → q j b = p j b) : tally q slots + 1 = tally p slots := by
  have hrest : tally q (update slots i none) = tally p (update slots i none) := by
    refine tally_congr fun j b hj => ?_
    rcases eq_or_ne j i with rfl | hne
    · rw [update_self] at hj
      cases hj
    · rw [update_of_ne hne] at hj
      exact hpq j b hj hne
  rw [← tally_clear_of_not h hq, hrest, tally_clear (p := p) h, if_pos hp]

end SlotTable
