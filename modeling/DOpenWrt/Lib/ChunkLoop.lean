import Mathlib.Tactic

/-!
# Loops over chunks

A parser loop takes one chunk after the other off the front of its input. `step` handles the first chunk and tells its
length, or ends the loop. `Chunked` says that a step sees no further than its chunk.
-/

namespace ChunkLoop

variable {σ α ε : Type*} {stuck : ε} {step : σ → List α → Except ε (σ × Option Nat)} {Whole : List α → Prop}

/-- The loop, with an iteration limit. Without one left it is stuck. -/
def run (stuck : ε) (step : σ → List α → Except ε (σ × Option Nat)) : Nat → σ → List α → Except ε σ
  | _, s, [] => .ok s
  | 0, _, _ :: _ => .error stuck
  | fuel + 1, s, a :: rest =>
    match step s (a :: rest) with
    | .error e => .error e
    | .ok (s, none) => .ok s
    | .ok (s, some n) => run stuck step fuel s ((a :: rest).drop n)

/-- What a step does with a chunk. -/
def process (step : σ → List α → Except ε (σ × Option Nat)) (s : σ) (c : List α) : Except ε σ := (step s c).map (·.1)

structure Chunked (step : σ → List α → Except ε (σ × Option Nat)) (Whole : List α → Prop) : Prop where
  ne_nil : ∀ c, Whole c → c ≠ []
  append : ∀ s c rest, Whole c → step s (c ++ rest) = (process step s c).map fun s => (s, some c.length)
  split : ∀ s l s' n, step s l = .ok (s', some n) → n ≤ l.length ∧ Whole (l.take n)

variable {s s' : σ}

theorem run_nil (fuel : Nat) (s : σ) : run stuck step fuel s [] = .ok s := by
  cases fuel <;> rfl

theorem run_succ (fuel : Nat) (s : σ) {l : List α} (h : l ≠ []) : run stuck step (fuel + 1) s l =
    match step s l with
    | .error e => .error e
    | .ok (s, none) => .ok s
    | .ok (s, some n) => run stuck step fuel s (l.drop n) := by
  cases l with
  | nil => exact absurd rfl h
  | cons a rest => rfl

/-- A loop whose steps commute with a change of the state commutes with it. -/
theorem run_map {f : σ → σ} (hf : ∀ s l, step (f s) l = (step s l).map fun r => (f r.1, r.2)) (fuel : Nat) (s : σ)
    (l : List α) : run stuck step fuel (f s) l = (run stuck step fuel s l).map f := by
  induction fuel generalizing s l with
  | zero => cases l <;> rfl
  | succ fuel ih =>
    rcases eq_or_ne l [] with rfl | hne
    · rfl
    rw [run_succ fuel _ hne, run_succ fuel _ hne, hf]
    cases step s l with
    | error e => rfl
    | ok r =>
      obtain ⟨s, _ | n⟩ := r
      · rfl
      · exact ih s _

section

variable (h : Chunked step Whole)
include h

/-- Enough iterations are as good as more. -/
theorem Chunked.run_fuel {fuel fuel' : Nat} {l : List α} (hle : l.length ≤ fuel) (hle' : l.length ≤ fuel') (s : σ) :
    run stuck step fuel s l = run stuck step fuel' s l := by
  induction fuel generalizing fuel' s l with
  | zero =>
    rw [List.length_eq_zero_iff.1 (Nat.le_zero.1 hle), run_nil, run_nil]
  | succ fuel ih =>
    rcases eq_or_ne l [] with rfl | hne
    · rw [run_nil, run_nil]
    have hpos := List.length_pos_iff.2 hne
    obtain ⟨fuel', rfl⟩ : ∃ n, fuel' = n + 1 := ⟨fuel' - 1, by omega⟩
    rw [run_succ fuel s hne, run_succ fuel' s hne]
    cases hstep : step s l with
    | error e => rfl
    | ok r =>
      obtain ⟨s₁, _ | n⟩ := r
      · rfl
      · obtain ⟨hn, hwhole⟩ := h.split s l s₁ n hstep
        have hn0 : 0 < n := by
          rw [Nat.pos_iff_ne_zero]
          rintro rfl
          exact h.ne_nil _ hwhole rfl
        have hdrop : (l.drop n).length = l.length - n := List.length_drop
        exact ih (by omega) (by omega) s₁

/-- The chunks at the front are handled one after the other. -/
theorem Chunked.run_flatten {fuel : Nat} {chunks : List (List α)} (hwhole : ∀ c ∈ chunks, Whole c) {rest : List α}
    (hle : (chunks.flatten ++ rest).length ≤ fuel) (s : σ) : run stuck step fuel s (chunks.flatten ++ rest) =
      (chunks.foldlM (process step) s).bind fun s => run stuck step rest.length s rest := by
  induction chunks generalizing fuel s with
  | nil => exact h.run_fuel hle le_rfl s
  | cons c chunks ih =>
    have hc := hwhole c List.mem_cons_self
    have hpos := List.length_pos_iff.2 (h.ne_nil c hc)
    rw [List.flatten_cons, List.append_assoc] at hle ⊢
    rw [List.length_append] at hle
    obtain ⟨fuel, rfl⟩ : ∃ n, fuel = n + 1 := ⟨fuel - 1, by omega⟩
    rw [run_succ fuel s (by simp [h.ne_nil c hc]), h.append s c _ hc, List.foldlM_cons]
    cases process step s c with
    | error e => rfl
    | ok s₁ =>
      dsimp only [Except.map]
      rw [List.drop_left]
      exact ih (fun c hc => hwhole c (List.mem_cons_of_mem _ hc)) (by omega) s₁

/-- A loop that comes to its end has handled chunks, up to a tail that ended it. -/
theorem Chunked.exists_chunks {fuel : Nat} {l : List α} (hrun : run stuck step fuel s l = .ok s') :
    ∃ (chunks : List (List α)) (tail : List α) (s₁ : σ), l = chunks.flatten ++ tail ∧ (∀ c ∈ chunks, Whole c) ∧
      chunks.foldlM (process step) s = .ok s₁ ∧ (tail = [] ∧ s' = s₁ ∨ tail ≠ [] ∧ step s₁ tail = .ok (s', none)) := by
  induction fuel generalizing s l with
  | zero =>
    cases l with
    | nil =>
      rw [run_nil] at hrun
      cases hrun
      exact ⟨[], [], s', rfl, fun _ hc => absurd hc List.not_mem_nil, rfl, .inl ⟨rfl, rfl⟩⟩
    | cons a l => cases hrun
  | succ fuel ih =>
    rcases eq_or_ne l [] with rfl | hne
    · rw [run_nil] at hrun
      cases hrun
      exact ⟨[], [], s', rfl, fun _ hc => absurd hc List.not_mem_nil, rfl, .inl ⟨rfl, rfl⟩⟩
    rw [run_succ fuel s hne] at hrun
    cases hstep : step s l with
    | error e =>
      rw [hstep] at hrun
      cases hrun
    | ok r =>
      obtain ⟨s₁, _ | n⟩ := r
      · rw [hstep] at hrun
        cases hrun
        exact ⟨[], l, s, rfl, fun _ hc => absurd hc List.not_mem_nil, rfl, .inr ⟨hne, hstep⟩⟩
      · rw [hstep] at hrun
        obtain ⟨hn, hwhole⟩ := h.split s l s₁ n hstep
        obtain ⟨chunks, tail, s₂, hl, hchunks, hfold, htail⟩ := ih hrun
        have hsplit : l = l.take n ++ l.drop n := (List.take_append_drop n l).symm
        have hprocess : process step s (l.take n) = .ok s₁ := by
          have happend := h.append s (l.take n) (l.drop n) hwhole
          rw [← hsplit, hstep] at happend
          cases hp : process step s (l.take n) with
          | error e =>
            rw [hp] at happend
            cases happend
          | ok s₃ =>
            rw [hp] at happend
            exact congrArg Except.ok (Prod.mk.inj (Except.ok.inj happend)).1.symm
        refine ⟨l.take n :: chunks, tail, s₂, ?_, ?_, ?_, htail⟩
        · rw [List.flatten_cons, List.append_assoc, ← hl]
          exact hsplit
        · intro c hc
          rcases List.mem_cons.1 hc with rfl | hc
          · exact hwhole
          · exact hchunks c hc
        · rw [List.foldlM_cons, hprocess]
          exact hfold

/-- What every step keeps the loop keeps, and an error of it is an error of a step, if there is an iteration for every
element. -/
theorem Chunked.run_spec {I : σ → Prop} {E : ε → Prop} {fuel : Nat} {l : List α} (hle : l.length ≤ fuel)
    (hok : ∀ s l s' o, I s → step s l = .ok (s', o) → I s') (herror : ∀ s l e, I s → step s l = .error e → E e)
    (hs : I s) : (∀ s', run stuck step fuel s l = .ok s' → I s') ∧ ∀ e, run stuck step fuel s l = .error e → E e := by
  induction fuel generalizing s l with
  | zero =>
    rw [List.length_eq_zero_iff.1 (Nat.le_zero.1 hle), run_nil]
    exact ⟨fun s' h => (by cases h; exact hs), fun e h => (by cases h)⟩
  | succ fuel ih =>
    rcases eq_or_ne l [] with rfl | hne
    · rw [run_nil]
      exact ⟨fun s' h => (by cases h; exact hs), fun e h => (by cases h)⟩
    rw [run_succ fuel s hne]
    cases hstep : step s l with
    | error e => exact ⟨fun s' h => (by cases h), fun e' h => (by cases h; exact herror s l e hs hstep)⟩
    | ok r =>
      obtain ⟨s₁, _ | n⟩ := r
      · exact ⟨fun s' h => (by cases h; exact hok s l _ _ hs hstep), fun e h => (by cases h)⟩
      · obtain ⟨hn, hwhole⟩ := h.split s l s₁ n hstep
        have hn0 : 0 < n := by
          rw [Nat.pos_iff_ne_zero]
          rintro rfl
          exact h.ne_nil _ hwhole rfl
        have hdrop : (l.drop n).length = l.length - n := List.length_drop
        exact ih (by omega) (hok s l _ _ hs hstep)

end

end ChunkLoop
