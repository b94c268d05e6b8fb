import Mathlib.Data.Prod.Lex
import DOpenWrt.Lib.Run

/-!
# The snapshot store

`SnapshotStore` of `state.rs`: one published snapshot under a lock, with the generations of its base and of the fast
overlays on it. Every call is one step. A poisoned lock is read and written like any other.
-/

namespace Lanspeedd

def u32Max : Nat := 2 ^ 32 - 1
def u64Max : Nat := 2 ^ 64 - 1

/-- `u64::abs_diff`. -/
def absDiff (a b : Nat) : Nat := (a - b) + (b - a)

/-- `u64::saturating_add`. -/
def saturatingAdd (a b : Nat) : Nat := min (a + b) u64Max

theorem saturatingAdd_one {a : Nat} (h : a < u64Max) : saturatingAdd a 1 = a + 1 := Nat.min_eq_left h

structure SnapshotGenerations where
  baseGeneration : Nat
  fastGeneration : Nat
deriving DecidableEq, Repr

/-- The pair, ordered lexicographically. -/
def SnapshotGenerations.key (g : SnapshotGenerations) : Nat ×ₗ Nat := toLex (g.baseGeneration, g.fastGeneration)

theorem SnapshotGenerations.key_lt_iff {a b : SnapshotGenerations} : a.key < b.key ↔
    a.baseGeneration < b.baseGeneration ∨
      a.baseGeneration = b.baseGeneration ∧ a.fastGeneration < b.fastGeneration :=
  Prod.Lex.toLex_lt_toLex

structure SnapshotState (σ : Type*) where
  published : σ
  generations : SnapshotGenerations

section Store

/- `diagnosticGeneration` is the generation a snapshot states in its diagnostics. -/
variable {σ : Type*} (diagnosticGeneration : σ → Nat)

namespace SnapshotStore

def new (snapshot : σ) : SnapshotState σ := ⟨snapshot, ⟨diagnosticGeneration snapshot, 0⟩⟩

def loadWithGenerations (state : SnapshotState σ) : σ × SnapshotGenerations := (state.published, state.generations)

def publishBase (state : SnapshotState σ) (snapshot : σ) : SnapshotState σ × SnapshotGenerations :=
  let generations :=
    ⟨max (saturatingAdd state.generations.baseGeneration 1) (diagnosticGeneration snapshot), 0⟩
  (⟨snapshot, generations⟩, generations)

def publishFast (state : SnapshotState σ) (baseGeneration : Nat) (apply : σ → σ) :
    SnapshotState σ × Option SnapshotGenerations :=
  if state.generations.baseGeneration ≠ baseGeneration then (state, none)
  else
    let generations := { state.generations with
      fastGeneration := max (saturatingAdd state.generations.fastGeneration 1) 1 }
    (⟨apply state.published, generations⟩, some generations)

variable {state : SnapshotState σ}

theorem publishBase_lt (h : state.generations.baseGeneration < u64Max) (snapshot : σ) :
    state.generations.key < (publishBase diagnosticGeneration state snapshot).2.key := by
  refine SnapshotGenerations.key_lt_iff.2 (.inl (lt_max_of_lt_left ?_))
  rw [saturatingAdd_one h]
  exact Nat.lt_succ_self _

theorem publishFast_stale {baseGeneration : Nat} (h : state.generations.baseGeneration ≠ baseGeneration) (apply : σ → σ) :
    publishFast state baseGeneration apply = (state, none) := if_pos h

/-- An overlay for the present base, below saturation. -/
theorem publishFast_current (h : state.generations.fastGeneration < u64Max) (apply : σ → σ) :
    publishFast state state.generations.baseGeneration apply =
      (⟨apply state.published, ⟨state.generations.baseGeneration, state.generations.fastGeneration + 1⟩⟩,
        some ⟨state.generations.baseGeneration, state.generations.fastGeneration + 1⟩) := by
  unfold publishFast
  rw [if_neg (not_not.2 rfl), saturatingAdd_one h, Nat.max_eq_left (Nat.le_add_left 1 _)]

/-- Below saturation the state changes exactly for the present base. -/
theorem publishFast_changes_iff (h : state.generations.fastGeneration < u64Max) (baseGeneration : Nat) (apply : σ → σ) :
    (publishFast state baseGeneration apply).1 ≠ state ↔ baseGeneration = state.generations.baseGeneration := by
  constructor
  · intro hne
    by_contra hstale
    exact hne (by rw [publishFast_stale (Ne.symm hstale)])
  · rintro rfl heq
    rw [publishFast_current h] at heq
    have := congrArg (fun s => s.generations.fastGeneration) heq
    exact absurd this (Nat.succ_ne_self _)

end SnapshotStore

/-! ### Runs -/

inductive StoreOp (σ : Type*) where
  | publishBase (snapshot : σ)
  | publishFast (baseGeneration : Nat) (apply : σ → σ)
  | loadWithGenerations

/-- A successful publish, with what it published. -/
structure Publication (σ : Type*) where
  op : StoreOp σ
  generations : SnapshotGenerations
  snapshot : σ

/-- A store with all that was published, the oldest first, and all that was read. -/
structure StoreRun (σ : Type*) where
  state : SnapshotState σ
  history : List (Publication σ)
  reads : List (σ × SnapshotGenerations)

namespace StoreRun

/-- The snapshot a store starts with counts as published. -/
def start (snapshot : σ) : StoreRun σ where
  state := SnapshotStore.new diagnosticGeneration snapshot
  history := [⟨.publishBase snapshot, ⟨diagnosticGeneration snapshot, 0⟩, snapshot⟩]
  reads := []

def step (s : StoreRun σ) : StoreOp σ → StoreRun σ
  | .publishBase snapshot =>
    let (state, generations) := SnapshotStore.publishBase diagnosticGeneration s.state snapshot
    { s with state, history := s.history ++ [⟨.publishBase snapshot, generations, state.published⟩] }
  | .publishFast baseGeneration apply =>
    match SnapshotStore.publishFast s.state baseGeneration apply with
    | (state, none) => { s with state }
    | (state, some generations) =>
      { s with state, history := s.history ++ [⟨.publishFast baseGeneration apply, generations, state.published⟩] }
  | .loadWithGenerations => { s with reads := s.reads ++ [SnapshotStore.loadWithGenerations s.state] }

/-- The generation a publish counts up is below saturation. -/
def BelowSaturation (s : StoreRun σ) : StoreOp σ → Prop
  | .publishBase _ => s.state.generations.baseGeneration < u64Max
  | .publishFast .. => s.state.generations.fastGeneration < u64Max
  | .loadWithGenerations => True

instance decidableBelowSaturation (s : StoreRun σ) (op : StoreOp σ) : Decidable (s.BelowSaturation op) :=
  match op with
  | .publishBase _ => inferInstanceAs (Decidable (_ < _))
  | .publishFast .. => inferInstanceAs (Decidable (_ < _))
  | .loadWithGenerations => isTrue trivial

end StoreRun

/-- The snapshot with `fast` overlays on the base of a generation: each overlay was given for that generation and was
applied to the snapshot with one overlay less. -/
inductive Overlaid (history : List (Publication σ)) (base : Nat) : Nat → σ → Prop
  | base {snapshot : σ} (h : ⟨.publishBase snapshot, ⟨base, 0⟩, snapshot⟩ ∈ history) : Overlaid history base 0 snapshot
  | fast {n : Nat} {snapshot : σ} {apply : σ → σ} (h : Overlaid history base n snapshot)
    (hfast : ⟨.publishFast base apply, ⟨base, n + 1⟩, apply snapshot⟩ ∈ history) :
    Overlaid history base (n + 1) (apply snapshot)

theorem Overlaid.mono {history history' : List (Publication σ)} {base n : Nat} {snapshot : σ}
    (h : Overlaid history base n snapshot) (hsub : history ⊆ history') : Overlaid history' base n snapshot := by
  induction h with
  | base h => exact .base (hsub h)
  | fast _ hfast ih => exact .fast ih (hsub hfast)

structure StoreInv (s : StoreRun σ) : Prop where
  increasing : (s.history.map fun x => x.generations.key).IsChain (· < ·)
  last : ∃ op, s.history.getLast? = some ⟨op, s.state.generations, s.state.published⟩
  overlaid : ∀ x ∈ s.history, Overlaid s.history x.generations.baseGeneration x.generations.fastGeneration x.snapshot
  reads : ∀ r ∈ s.reads, ∃ x ∈ s.history, r = (x.snapshot, x.generations)

namespace StoreInv

variable {s : StoreRun σ}

/-- A publication with higher generations than the last. -/
theorem append (h : StoreInv s) {op : StoreOp σ} {state : SnapshotState σ}
    (hlt : s.state.generations.key < state.generations.key)
    (hover : Overlaid (s.history ++ [⟨op, state.generations, state.published⟩]) state.generations.baseGeneration
      state.generations.fastGeneration state.published) :
    StoreInv { s with state, history := s.history ++ [⟨op, state.generations, state.published⟩] } where
  increasing := by
    rw [List.map_append, List.isChain_append]
    refine ⟨h.increasing, .singleton _, fun x hx y hy => ?_⟩
    obtain ⟨last, hlast⟩ := h.last
    rw [List.getLast?_map, hlast] at hx
    cases hx
    cases hy
    exact hlt
  last := ⟨op, List.getLast?_concat⟩
  overlaid := by
    intro x hx
    rcases List.mem_append.1 hx with hx | hx
    · exact (h.overlaid x hx).mono (List.subset_append_left ..)
    · rw [List.mem_singleton.1 hx]
      exact hover
  reads r hr := by
    obtain ⟨x, hx, rfl⟩ := h.reads r hr
    exact ⟨x, List.mem_append_left _ hx, rfl⟩

/-- What is published now is overlaid on its base. -/
theorem overlaid_published (h : StoreInv s) : Overlaid s.history s.state.generations.baseGeneration
    s.state.generations.fastGeneration s.state.published := by
  obtain ⟨op, hlast⟩ := h.last
  exact h.overlaid _ (List.mem_of_getLast? hlast)

theorem step (h : StoreInv s) {op : StoreOp σ} (hop : s.BelowSaturation op) :
    StoreInv (s.step diagnosticGeneration op) := by
  cases op with
  | publishBase snapshot =>
    exact h.append (SnapshotStore.publishBase_lt diagnosticGeneration hop snapshot)
      (.base (List.mem_append_right _ (List.mem_singleton_self _)))
  | publishFast baseGeneration apply =>
    rcases ne_or_eq s.state.generations.baseGeneration baseGeneration with hstale | rfl
    · have hstep : s.step diagnosticGeneration (.publishFast baseGeneration apply) = s := by
        rw [StoreRun.step, SnapshotStore.publishFast_stale hstale]
      rwa [hstep]
    · rw [StoreRun.step, SnapshotStore.publishFast_current hop]
      refine @StoreInv.append _ _ h _ ⟨apply s.state.published, _⟩
        (SnapshotGenerations.key_lt_iff.2 (.inr ⟨rfl, Nat.lt_succ_self _⟩)) ?_
      exact .fast (h.overlaid_published.mono (List.subset_append_left ..))
        (List.mem_append_right _ (List.mem_singleton_self _))
  | loadWithGenerations =>
    refine ⟨h.increasing, h.last, h.overlaid, fun r hr => ?_⟩
    rcases List.mem_append.1 hr with hr | hr
    · exact h.reads r hr
    · obtain ⟨op, hlast⟩ := h.last
      rw [List.mem_singleton.1 hr]
      exact ⟨_, List.mem_of_getLast? hlast, rfl⟩

end StoreInv

theorem StoreInv.start (snapshot : σ) : StoreInv (StoreRun.start diagnosticGeneration snapshot) where
  increasing := .singleton _
  last := ⟨_, rfl⟩
  overlaid x hx := by
    rw [List.mem_singleton.1 hx]
    exact .base (List.mem_singleton_self _)
  reads _ hr := by cases hr

/-- Generations only grow, a reader gets what was published last with the generations of that publish, and every
published snapshot consists of its base and of overlays sampled for just that base. -/
theorem snapshotStore_versioned (snapshot : σ) {ops : List (StoreOp σ)}
    (h : Run.Meets (StoreRun.step diagnosticGeneration) StoreRun.BelowSaturation
      (StoreRun.start diagnosticGeneration snapshot) ops) :
    let s := ops.foldl (StoreRun.step diagnosticGeneration) (StoreRun.start diagnosticGeneration snapshot)
    (s.history.map fun x => x.generations.key).Pairwise (· < ·) ∧
      (∃ op, s.history.getLast? = some ⟨op, (SnapshotStore.loadWithGenerations s.state).2,
        (SnapshotStore.loadWithGenerations s.state).1⟩) ∧
      (∀ r ∈ s.reads, ∃ x ∈ s.history, r = (x.snapshot, x.generations)) ∧
      (∀ x ∈ s.history, Overlaid s.history x.generations.baseGeneration x.generations.fastGeneration x.snapshot) ∧
      (s.state.generations.fastGeneration < u64Max → ∀ baseGeneration apply,
        ((SnapshotStore.publishFast s.state baseGeneration apply).1 ≠ s.state ↔
          baseGeneration = s.state.generations.baseGeneration) ∧
        (baseGeneration = s.state.generations.baseGeneration →
          (SnapshotStore.publishFast s.state baseGeneration apply).1.published = apply s.state.published)) := by
  intro s
  have hinv : StoreInv s := @Run.Meets.invariant _ _ _ _ _ _ (fun _ s => StoreInv s)
    (fun _ _ _ hop hs => hs.step diagnosticGeneration hop) [] (StoreInv.start diagnosticGeneration snapshot) h
  refine ⟨List.isChain_iff_pairwise.1 hinv.increasing, hinv.last, hinv.reads, hinv.overlaid, fun hfast baseGeneration apply => ⟨?_, ?_⟩⟩
  · exact SnapshotStore.publishFast_changes_iff hfast baseGeneration apply
  · rintro rfl
    rw [SnapshotStore.publishFast_current hfast]

end Store

/-- An overlay, a new base and the same overlay again, which comes too late. -/
def lateOverlay : List (StoreOp Nat) :=
  [.publishFast 1 (· + 10), .loadWithGenerations, .publishBase 5, .publishFast 1 (· + 10), .loadWithGenerations]

theorem snapshotStore_versioned_lateOverlay :
    let s := lateOverlay.foldl (StoreRun.step id) (StoreRun.start id 1)
    s.reads = [(11, ⟨1, 1⟩), (5, ⟨5, 0⟩)] ∧ ∀ r ∈ s.reads, ∃ x ∈ s.history, r = (x.snapshot, x.generations) :=
  ⟨by decide, (@snapshotStore_versioned _ id 1 lateOverlay (by decide)).2.2.1⟩

end Lanspeedd
