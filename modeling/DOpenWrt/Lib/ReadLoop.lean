import Mathlib.Tactic

/-!
# Reading until there is an answer

A consumer is called with what it has left of its input and what has been read since, until it answers. It is
`Steady` where a call on part of the input and one on the rest are as good as one call on all of it.
-/

namespace ReadLoop

variable {σ α ρ : Type*} {feed : σ → List α → Option ρ × σ × List α} {Pending : σ → List α → Prop}

/-- The calls, one after each read. What is behind the answer is left, the unread input with it. -/
def run (feed : σ → List α → Option ρ × σ × List α) : σ → List α → List (List α) → Option ρ × σ × List α
  | s, buf, [] => (none, s, buf)
  | s, buf, read :: reads =>
    match feed s (buf ++ read) with
    | (none, s, buf) => run feed s buf reads
    | (some r, s, buf) => (some r, s, buf ++ reads.flatten)

/-- `Pending s l`: `l` is what is left of the input in the state `s`, read or not. -/
structure Steady (feed : σ → List α → Option ρ × σ × List α) (Pending : σ → List α → Prop) : Prop where
  wait : ∀ {s s' x y l}, Pending s (x ++ y) → feed s x = (none, s', l) →
    Pending s' (l ++ y) ∧ feed s (x ++ y) = feed s' (l ++ y)
  answer : ∀ {s s' x y l r}, Pending s (x ++ y) → feed s x = (some r, s', l) → feed s (x ++ y) = (some r, s', l ++ y)

variable (h : Steady feed Pending)
include h

/-- The calls after every read give what one call on all of the input gives. -/
theorem Steady.run_eq {s : σ} {buf read : List α} {reads : List (List α)}
    (hs : Pending s (buf ++ (read :: reads).flatten)) :
    run feed s buf (read :: reads) = feed s (buf ++ (read :: reads).flatten) := by
  induction reads generalizing s buf read with
  | nil =>
    rw [List.flatten_cons, List.flatten_nil, List.append_nil, run]
    rcases feed s (buf ++ read) with ⟨_ | r, s', l⟩
    · rfl
    · simp
  | cons read' reads ih =>
    rw [List.flatten_cons, ← List.append_assoc] at hs ⊢
    rw [run]
    rcases hfeed : feed s (buf ++ read) with ⟨_ | r, s', l⟩
    · obtain ⟨hs', heq⟩ := h.wait hs hfeed
      rw [heq]
      exact ih hs'
    · exact (h.answer hs hfeed).symm

end ReadLoop
