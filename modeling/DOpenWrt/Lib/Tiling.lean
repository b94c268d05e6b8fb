import Mathlib.Tactic

/-!
# Pieces that tile an interval

`Tiles start stop a l b`: the pieces of `l` follow each other from `a` to `b`, each starting where the one before it
stops.
-/

namespace Tiling

variable {α T : Type*} {start stop : α → T} {a b c : T} {l m : List α} {x : α}

def Tiles (start stop : α → T) : T → List α → T → Prop
  | a, [], b => a = b
  | a, x :: l, b => start x = a ∧ Tiles start stop (stop x) l b

/-- Pieces that follow each other tile the interval from the first start to the last stop. -/
theorem tiles_of_isChain (h : (x :: l).IsChain fun y z => stop y = start z) (y : α)
    (hy : y ∈ (x :: l).getLast?) : Tiles start stop (start x) (x :: l) (stop y) := by
  induction l generalizing x with
  | nil =>
    cases hy
    exact ⟨rfl, rfl⟩
  | cons z l ih =>
    rw [List.isChain_cons_cons] at h
    refine ⟨rfl, ?_⟩
    rw [h.1]
    exact ih h.2 (by rwa [List.getLast?_cons_cons] at hy)

theorem Tiles.isChain (h : Tiles start stop a l b) : l.IsChain fun y z => stop y = start z := by
  induction l generalizing a with
  | nil => exact .nil
  | cons x l ih =>
    have hl := ih h.2
    cases l with
    | nil => exact .singleton x
    | cons y l =>
      rw [List.isChain_cons_cons]
      exact ⟨h.2.1.symm, hl⟩

/-- A part that, from some piece on, is selected whole is an end part. -/
theorem filter_suffix {p : α → Bool} (h : l.Pairwise fun x y => p x = true → p y = true) : l.filter p <:+ l := by
  induction l with
  | nil => exact List.suffix_refl []
  | cons x l ih =>
    rw [List.pairwise_cons] at h
    by_cases hx : p x = true
    · rw [List.filter_eq_self.2]
      intro y hy
      rcases List.mem_cons.1 hy with rfl | hy
      · exact hx
      · exact h.1 y hy hx
    · rw [List.filter_cons_of_neg hx]
      exact (ih h.2).trans (List.suffix_cons x l)

/-- A part of which, before each selected piece, everything is selected is a start part. -/
theorem filter_prefix {p : α → Bool} (h : l.Pairwise fun x y => p y = true → p x = true) : l.filter p <+: l := by
  induction l with
  | nil => exact List.prefix_refl []
  | cons x l ih =>
    rw [List.pairwise_cons] at h
    by_cases hx : p x = true
    · rw [List.filter_cons_of_pos hx]
      exact (List.cons_prefix_cons).2 ⟨rfl, ih h.2⟩
    · rw [List.filter_eq_nil_iff.2]
      · exact List.nil_prefix
      · intro y hy
        rcases List.mem_cons.1 hy with rfl | hy
        · exact hx
        · exact fun hp => hx (h.1 y hy hp)

theorem suffix_concat (h : l <:+ m) (x : α) : l ++ [x] <:+ m ++ [x] := by
  obtain ⟨pre, rfl⟩ := h
  exact ⟨pre, (List.append_assoc ..).symm⟩

section Order

variable [Preorder T]

/-- Pieces that do not run backwards start later the later they stand. -/
theorem Tiles.pairwise (h : Tiles start stop a l b) (hle : ∀ x ∈ l, start x ≤ stop x) :
    l.Pairwise fun x y => stop x ≤ start y := by
  have hchain := h.isChain
  clear h
  induction l with
  | nil => exact .nil
  | cons x l ih =>
    have hl := ih (fun y hy => hle y (List.mem_cons_of_mem x hy)) hchain.tail
    refine .cons (fun y hy => ?_) hl
    cases l with
    | nil => cases hy
    | cons z l =>
      rw [List.isChain_cons_cons] at hchain
      rcases List.mem_cons.1 hy with rfl | hy
      · exact hchain.1.le
      · have hz := hle z (List.mem_cons_of_mem x (List.mem_cons_self ..))
        have hzy := List.rel_of_pairwise_cons hl hy
        exact hchain.1.le.trans (hz.trans hzy)

end Order

end Tiling
