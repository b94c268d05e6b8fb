import Mathlib

/-!
# Words at the start of a text

`Starts l K text` says that the text starts with a word of `l` whose rest satisfies `K`. The equations below turn a
product, a sum and a star into questions about the next character, as a backtracking matcher asks them.
-/

namespace CharMatch
open Computability

variable {α : Type*} {l m : Language α} {K : List α → Prop} {p : α → Prop} {c : α} {t : List α}

/-- The words of one character that satisfies `p`. -/
def single (p : α → Prop) : Language α := {w | ∃ c, p c ∧ w = [c]}

def Starts (l : Language α) (K : List α → Prop) (t : List α) : Prop := ∃ v ∈ l, ∃ w, t = v ++ w ∧ K w

theorem starts_one : Starts 1 K t ↔ K t := by
  constructor
  · rintro ⟨v, hv, w, rfl, hw⟩
    rwa [(Language.mem_one v).1 hv]
  · exact fun h => ⟨[], Language.nil_mem_one, t, rfl, h⟩

theorem starts_add : Starts (l + m) K t ↔ Starts l K t ∨ Starts m K t := by
  constructor
  · rintro ⟨v, hv, w, h⟩
    rcases (Language.mem_add l m v).1 hv with hv | hv
    · exact .inl ⟨v, hv, w, h⟩
    · exact .inr ⟨v, hv, w, h⟩
  · rintro (⟨v, hv, w, h⟩ | ⟨v, hv, w, h⟩)
    · exact ⟨v, (Language.mem_add l m v).2 (.inl hv), w, h⟩
    · exact ⟨v, (Language.mem_add l m v).2 (.inr hv), w, h⟩

theorem starts_mul : Starts (l * m) K t ↔ Starts l (Starts m K) t := by
  constructor
  · rintro ⟨v, hv, w, rfl, hw⟩
    obtain ⟨a, ha, b, hb, rfl⟩ := Language.mem_mul.1 hv
    exact ⟨a, ha, b ++ w, List.append_assoc a b w, b, hb, w, rfl, hw⟩
  · rintro ⟨a, ha, _, rfl, b, hb, w, rfl, hw⟩
    exact ⟨a ++ b, Language.mem_mul.2 ⟨a, ha, b, hb, rfl⟩, w, (List.append_assoc a b w).symm, hw⟩

theorem Starts.mono {K' : List α → Prop} (hl : l ≤ m) (hK : ∀ w, K w → K' w) (h : Starts l K t) : Starts m K' t := by
  obtain ⟨v, hv, w, ht, hw⟩ := h
  exact ⟨v, hl hv, w, ht, hK w hw⟩

theorem starts_congr {K' : List α → Prop} (h : ∀ w, K w ↔ K' w) : Starts l K t ↔ Starts l K' t :=
  ⟨Starts.mono le_rfl fun w => (h w).1, Starts.mono le_rfl fun w => (h w).2⟩

theorem starts_single_nil : ¬ Starts (single p) K [] := by
  rintro ⟨v, ⟨c, -, rfl⟩, w, h, -⟩
  cases h

theorem starts_single_cons : Starts (single p) K (c :: t) ↔ p c ∧ K t := by
  constructor
  · rintro ⟨v, ⟨c, hc, rfl⟩, w, h, hw⟩
    cases h
    exact ⟨hc, hw⟩
  · exact fun ⟨hc, ht⟩ => ⟨[c], ⟨c, hc, rfl⟩, t, rfl, ht⟩

theorem starts_star : Starts l∗ K t ↔ K t ∨ Starts (l * l∗) K t := by
  rw [← Language.one_add_self_mul_kstar_eq_kstar, starts_add, starts_one, Language.one_add_self_mul_kstar_eq_kstar]

theorem starts_star_nil : Starts (single p)∗ K [] ↔ K [] := by
  rw [starts_star, starts_mul]
  exact or_iff_left starts_single_nil

theorem starts_star_cons : Starts (single p)∗ K (c :: t) ↔ K (c :: t) ∨ p c ∧ Starts (single p)∗ K t := by
  rw [starts_star, starts_mul, starts_single_cons]

theorem single_mono {q : α → Prop} (h : ∀ c, p c → q c) : single p ≤ single q := by
  rintro _ ⟨c, hc, rfl⟩
  exact ⟨c, h c hc, rfl⟩

end CharMatch
