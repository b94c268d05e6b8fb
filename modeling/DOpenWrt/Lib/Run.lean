import Mathlib.Tactic

/-!
# Runs of a step function

A run folds a step function over its inputs. `Meets step C s as` says that every step of the run from
`s` satisfies the condition `C`, a relation between the state before the step and the input.
-/

namespace Run

variable {σ α : Type*} {step : σ → α → σ} {C : σ → α → Prop} {s : σ} {as : List α}

def Meets (step : σ → α → σ) (C : σ → α → Prop) : σ → List α → Prop
  | _, [] => True
  | s, a :: as => C s a ∧ Meets step C (step s a) as

instance decidableMeets [∀ s a, Decidable (C s a)] : ∀ s as, Decidable (Meets step C s as)
  | _, [] => inferInstanceAs (Decidable True)
  | s, a :: as =>
    have := decidableMeets (step s a) as
    inferInstanceAs (Decidable (_ ∧ _))

/-- What holds at the start and is kept by every step that meets the condition holds at the end. The
property may refer to the inputs so far. -/
theorem Meets.invariant {I : List α → σ → Prop} (hstep : ∀ pre s a, C s a → I pre s → I (pre ++ [a]) (step s a))
    {pre : List α} (hs : I pre s) (h : Meets step C s as) : I (pre ++ as) (as.foldl step s) := by
  induction as generalizing pre s with
  | nil => rwa [List.append_nil]
  | cons a as ih =>
    have := ih (hstep pre s a h.1 hs) h.2
    rwa [List.append_assoc] at this

/-- A condition can be replaced by what follows from it in the states of an invariant. -/
theorem Meets.imp {D : σ → α → Prop} {I : σ → Prop} (hI : ∀ s a, I s → I (step s a))
    (hD : ∀ s a, I s → C s a → D s a) (hs : I s) (h : Meets step C s as) : Meets step D s as := by
  induction as generalizing s with
  | nil => trivial
  | cons a as ih => exact ⟨hD s a hs h.1, ih (hI s a hs) h.2⟩

theorem meets_true (h : ∀ s a, C s a) (s : σ) (as : List α) : Meets step C s as := by
  induction as generalizing s with
  | nil => trivial
  | cons a as ih => exact ⟨h s a, ih _⟩

theorem meets_concat {a : α} : Meets step C s (as ++ [a]) ↔ Meets step C s as ∧ C (as.foldl step s) a := by
  induction as generalizing s with
  | nil => exact and_comm
  | cons b as ih => rw [List.cons_append, Meets, ih, Meets, List.foldl_cons, and_assoc]

/-- The invariant rule for a step function that needs no condition. -/
theorem invariant {I : List α → σ → Prop} (hstep : ∀ pre s a, I pre s → I (pre ++ [a]) (step s a))
    {pre : List α} (hs : I pre s) (as : List α) : I (pre ++ as) (as.foldl step s) :=
  Meets.invariant (C := fun _ _ => True) (fun pre s a _ => hstep pre s a) hs
    (meets_true (fun _ _ => trivial) s as)

/-- If, in the states of an invariant, an admissible step keeps `P` exactly when it meets `C`, then `P` holds
after every step of an admissible run exactly when every step meets `C`. -/
theorem Meets.iff {L : σ → α → Prop} {I P : σ → Prop} (hI : ∀ s a, L s a → I s → P s → I (step s a))
    (hP : ∀ s a, L s a → I s → P s → (C s a ↔ P (step s a))) (hL : Meets step L s as) (hs : I s) (hPs : P s) :
    Meets step C s as ↔ Meets step (fun s a => P (step s a)) s as := by
  induction as generalizing s with
  | nil => exact Iff.rfl
  | cons a as ih =>
    have hI' := hI s a hL.1 hs hPs
    constructor
    · rintro ⟨hC, h⟩
      have h' := (hP s a hL.1 hs hPs).1 hC
      exact ⟨h', (ih hL.2 hI' h').1 h⟩
    · rintro ⟨h', h⟩
      exact ⟨(hP s a hL.1 hs hPs).2 h', (ih hL.2 hI' h').2 h⟩

theorem meets_iff {I P : σ → Prop} (hI : ∀ s a, I s → P s → I (step s a))
    (hP : ∀ s a, I s → P s → (C s a ↔ P (step s a))) (hs : I s) (hPs : P s) :
    Meets step C s as ↔ Meets step (fun s a => P (step s a)) s as :=
  Meets.iff (L := fun _ _ => True) (fun s a _ => hI s a) (fun s a _ => hP s a)
    (meets_true (fun _ _ => trivial) s as) hs hPs

/-- If a step leads to a `P` state exactly from a `P` state in which it meets `C`, a run ends in a `P` state exactly
when it starts in one and all its steps meet `C`. -/
theorem meets_iff_end {P : σ → Prop} (h : ∀ s a, P (step s a) ↔ P s ∧ C s a) :
    P (as.foldl step s) ↔ P s ∧ Meets step C s as := by
  induction as generalizing s with
  | nil => exact (and_iff_left trivial).symm
  | cons a as ih => rw [List.foldl_cons, ih, h, and_assoc, Meets]

/-! ### Steps that can fail -/

section Fail

variable {ε : Type*} {stepM : σ → α → Except ε σ}

/-- Every step of the run from `s`, up to the first that fails, satisfies the condition `C`. -/
def MeetsM (stepM : σ → α → Except ε σ) (C : σ → α → Prop) : σ → List α → Prop
  | _, [] => True
  | s, a :: as => C s a ∧ ∀ s', stepM s a = .ok s' → MeetsM stepM C s' as

instance decidableMeetsM [∀ s a, Decidable (C s a)] : ∀ s as, Decidable (MeetsM stepM C s as)
  | _, [] => inferInstanceAs (Decidable True)
  | s, a :: as =>
    match h : stepM s a with
    | .error _ => decidable_of_iff (C s a) ⟨fun hC => ⟨hC, fun s' hs' => by rw [h] at hs'; cases hs'⟩, And.left⟩
    | .ok s₁ =>
      have := decidableMeetsM s₁ as
      decidable_of_iff (C s a ∧ MeetsM stepM C s₁ as) ⟨fun hm => ⟨hm.1, fun s' hs' => by
        rw [h] at hs'
        cases hs'
        exact hm.2⟩, fun hm => ⟨hm.1, hm.2 s₁ h⟩⟩

/-- What holds at the start and is kept by every successful step that meets the condition holds at the
end. -/
theorem MeetsM.invariant {I : σ → Prop} (hstep : ∀ s a s', C s a → I s → stepM s a = .ok s' → I s') (hs : I s)
    (h : MeetsM stepM C s as) {s' : σ} (hrun : as.foldlM stepM s = .ok s') : I s' := by
  induction as generalizing s with
  | nil =>
    cases hrun
    exact hs
  | cons a as ih =>
    rw [List.foldlM_cons] at hrun
    cases hs₁ : stepM s a with
    | error e =>
      rw [hs₁] at hrun
      cases hrun
    | ok s₁ =>
      rw [hs₁] at hrun
      exact ih (hstep s a s₁ h.1 hs hs₁) (h.2 s₁ hs₁) hrun

theorem meetsM_true (s : σ) (as : List α) : MeetsM stepM (fun _ _ => True) s as := by
  induction as generalizing s with
  | nil => trivial
  | cons a as ih => exact ⟨trivial, fun s' _ => ih s'⟩

theorem MeetsM.imp {D : σ → α → Prop} (h : ∀ s a, D s a → C s a) (hm : MeetsM stepM D s as) : MeetsM stepM C s as := by
  induction as generalizing s with
  | nil => trivial
  | cons a as ih => exact ⟨h s a hm.1, fun s' hs' => ih (hm.2 s' hs')⟩

theorem meetsM_congr {D : σ → α → Prop} (h : ∀ s a, C s a ↔ D s a) (s : σ) (as : List α) :
    MeetsM stepM C s as ↔ MeetsM stepM D s as := by
  induction as generalizing s with
  | nil => exact Iff.rfl
  | cons a as ih => exact and_congr (h s a) (forall_congr' fun s' => imp_congr_right fun _ => ih s')

/-- If a step succeeds exactly when it meets the condition, so does a run. -/
theorem meetsM_iff (h : ∀ s a, C s a ↔ ∃ s', stepM s a = .ok s') :
    MeetsM stepM C s as ↔ ∃ s', as.foldlM stepM s = .ok s' := by
  induction as generalizing s with
  | nil => exact iff_of_true trivial ⟨s, rfl⟩
  | cons a as ih =>
    rw [List.foldlM_cons]
    cases hs : stepM s a with
    | error e =>
      have : ¬ C s a := by
        rw [h]
        rintro ⟨s', hs'⟩
        rw [hs] at hs'
        cases hs'
      exact iff_of_false (fun hm => this hm.1) fun ⟨s', hs'⟩ => by cases hs'
    | ok s' =>
      have hC : C s a := (h s a).2 ⟨s', hs⟩
      constructor
      · rintro ⟨-, hm⟩
        exact ih.1 (hm s' hs)
      · intro hok
        refine ⟨hC, fun s'' hs'' => ?_⟩
        rw [hs] at hs''
        cases hs''
        exact ih.2 hok

/-- An error that no step raises is not raised by a run. -/
theorem foldlM_ne_error {e : ε} (h : ∀ s a, stepM s a ≠ .error e) (s : σ) (as : List α) :
    as.foldlM stepM s ≠ .error e := by
  induction as generalizing s with
  | nil => nofun
  | cons a as ih =>
    rw [List.foldlM_cons]
    cases hs : stepM s a with
    | error e' =>
      intro he
      cases he
      exact h s a hs
    | ok s' => exact ih s'

/-- A run succeeds exactly when each of its steps meets a condition on the inputs before it, if the condition is that of
the step in the states of an invariant. -/
theorem foldlM_ok_iff {I : List α → σ → Prop} {D : List α → α → Prop} {pre : List α}
    (hstep : ∀ pre s a s', I pre s → stepM s a = .ok s' → I (pre ++ [a]) s')
    (hD : ∀ pre s a, I pre s → ((∃ s', stepM s a = .ok s') ↔ D pre a)) (hs : I pre s) :
    (∃ s', as.foldlM stepM s = .ok s') ↔ ∀ before a behind, as = before ++ a :: behind → D (pre ++ before) a := by
  induction as generalizing pre s with
  | nil => exact iff_of_true ⟨s, rfl⟩ fun before a behind h => absurd h (by simp)
  | cons a as ih =>
    rw [List.foldlM_cons]
    cases hrun : stepM s a with
    | error e =>
      refine iff_of_false (fun ⟨s', hs'⟩ => by cases hs') fun hall => ?_
      obtain ⟨s', hs'⟩ := (hD pre s a hs).2 (List.append_nil pre ▸ hall [] a as rfl)
      rw [hrun] at hs'
      cases hs'
    | ok s' =>
      have hhead : D pre a := (hD pre s a hs).1 ⟨s', hrun⟩
      refine (ih (hstep pre s a s' hs hrun)).trans ⟨fun hall before b behind heq => ?_, fun hall before b behind heq => ?_⟩
      · cases before with
        | nil =>
          rw [← (List.cons.inj heq).1, List.append_nil]
          exact hhead
        | cons c before =>
          obtain ⟨rfl, hrest⟩ := List.cons.inj heq
          exact List.append_cons pre a before ▸ hall before b behind hrest
      · rw [List.append_assoc]
        exact hall (a :: before) b behind (heq ▸ rfl)

theorem foldlM_ok_iff_start {I : List α → σ → Prop} {D : List α → α → Prop}
    (hstep : ∀ pre s a s', I pre s → stepM s a = .ok s' → I (pre ++ [a]) s')
    (hD : ∀ pre s a, I pre s → ((∃ s', stepM s a = .ok s') ↔ D pre a)) (hs : I [] s) :
    (∃ s', as.foldlM stepM s = .ok s') ↔ ∀ before a behind, as = before ++ a :: behind → D before a :=
  foldlM_ok_iff hstep hD hs

/-- What the invariant says at the end. -/
theorem foldlM_invariant {I : List α → σ → Prop} {pre : List α}
    (hstep : ∀ pre s a s', I pre s → stepM s a = .ok s' → I (pre ++ [a]) s') (hs : I pre s) {s' : σ}
    (hrun : as.foldlM stepM s = .ok s') : I (pre ++ as) s' := by
  induction as generalizing pre s with
  | nil =>
    cases hrun
    rwa [List.append_nil]
  | cons a as ih =>
    rw [List.foldlM_cons] at hrun
    cases hs₁ : stepM s a with
    | error e =>
      rw [hs₁] at hrun
      cases hrun
    | ok s₁ =>
      rw [hs₁] at hrun
      exact List.append_cons pre a as ▸ ih (hstep pre s a s₁ hs hs₁) hrun

end Fail

end Run
