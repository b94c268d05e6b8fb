import Mathlib.Tactic

/-!
# Results of code that can fail

What a successful result says of the steps it was put together from.
-/

namespace Except

variable {ε : Type*} {α β : Type} {x : Except ε α} {b : β}

theorem ok_bind (a : α) (k : α → Except ε β) : (Except.ok a >>= k) = k a := rfl

theorem bind_eq_ok {k : α → Except ε β} : x >>= k = .ok b ↔ ∃ a, x = .ok a ∧ k a = .ok b := by
  cases x with
  | error e => exact ⟨(nomatch ·), (nomatch ·.choose_spec.1)⟩
  | ok a =>
    constructor
    · exact fun h => ⟨a, rfl, h⟩
    · rintro ⟨_, ⟨⟩, h⟩
      exact h

/-- Both steps have to succeed. -/
theorem exists_bind_eq_ok {k : α → Except ε β} :
    (∃ b, x >>= k = .ok b) ↔ ∃ a, x = .ok a ∧ ∃ b, k a = .ok b := by
  simp only [bind_eq_ok]
  exact ⟨fun ⟨b, a, hx, hk⟩ => ⟨a, hx, b, hk⟩, fun ⟨a, hx, b, hk⟩ => ⟨b, a, hx, hk⟩⟩

theorem map_eq_ok {f : α → β} : x.map f = .ok b ↔ ∃ a, x = .ok a ∧ f a = b := by
  cases x with
  | error e => exact ⟨(nomatch ·), (nomatch ·.choose_spec.1)⟩
  | ok a =>
    constructor
    · exact fun h => ⟨a, rfl, Except.ok.inj h⟩
    · rintro ⟨_, ⟨⟩, rfl⟩
      rfl

end Except
