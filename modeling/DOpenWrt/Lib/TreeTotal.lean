import Mathlib.Algebra.Order.BigOperators.Group.Finset
import Mathlib.Algebra.BigOperators.Group.Finset.Basic
import Mathlib.Algebra.BigOperators.Ring.Finset
import Mathlib.Data.Nat.ModEq
import Std.Data.TreeMap

/-!
# Totals over a tree map

The total of a weight over the values of a `TreeMap` is a sum over keys, so two maps are compared key by key:
`total_le_of_weightAt_le`, `total_le_add` and, for shares rounded down, `total_le_of_shares`.
`getElem?_foldl_entry` gives what a loop over distinct keys leaves in a map.
-/

namespace TreeTotal

open Std

variable {κ ν ν' : Type} [Ord κ]

/-- What a map weighs at one key. -/
def weightAt (weight : ν → ℕ) (m : TreeMap κ ν) (key : κ) : ℕ := (m[key]?).elim 0 weight

def total (weight : ν → ℕ) (m : TreeMap κ ν) : ℕ := (m.toList.map fun entry => weight entry.2).sum

theorem weightAt_of_none {weight : ν → ℕ} {m : TreeMap κ ν} {key : κ} (h : m[key]? = none) :
    weightAt weight m key = 0 := by
  rw [weightAt, h]; rfl

theorem weightAt_of_some {weight : ν → ℕ} {m : TreeMap κ ν} {key : κ} {value : ν} (h : m[key]? = some value) :
    weightAt weight m key = weight value := by
  rw [weightAt, h]; rfl

variable [TransOrd κ] [LawfulEqOrd κ]

/-! ### A total is a sum over keys -/

open Classical in
noncomputable def keySet (m : TreeMap κ ν) : Finset κ := (m.toList.map Prod.fst).toFinset

theorem mem_keySet {m : TreeMap κ ν} {key : κ} : key ∈ keySet m ↔ ∃ value, m[key]? = some value := by
  simp only [keySet, List.mem_toFinset, List.mem_map]
  constructor
  · rintro ⟨entry, hentry, rfl⟩
    exact ⟨entry.2, TreeMap.mem_toList_iff_getElem?_eq_some.1 hentry⟩
  · rintro ⟨value, hvalue⟩
    exact ⟨(key, value), TreeMap.mem_toList_iff_getElem?_eq_some.2 hvalue, rfl⟩

theorem distinct_keys (m : TreeMap κ ν) : (m.toList.map Prod.fst).Nodup := by
  refine List.pairwise_map.2 (TreeMap.distinct_keys_toList.imp fun {a b} hne heq => hne ?_)
  rw [heq]
  exact compare_self

theorem total_eq_sum (weight : ν → ℕ) {m : TreeMap κ ν} {S : Finset κ} (hS : keySet m ⊆ S) :
    total weight m = ∑ key ∈ S, weightAt weight m key := by
  classical
  have hkeys : total weight m = ∑ key ∈ keySet m, weightAt weight m key := by
    rw [keySet, List.sum_toFinset _ (distinct_keys m), List.map_map, total]
    congr 1
    refine List.map_congr_left fun entry hentry => ?_
    exact (weightAt_of_some (TreeMap.mem_toList_iff_getElem?_eq_some.1 hentry)).symm
  rw [hkeys]
  refine Finset.sum_subset hS fun key _ hkey => ?_
  cases hget : m[key]? with
  | none => exact weightAt_of_none hget
  | some value => exact absurd (mem_keySet.2 ⟨value, hget⟩) hkey

variable {weight : ν → ℕ} {weight' : ν' → ℕ} {m m₁ m₂ : TreeMap κ ν} {m' : TreeMap κ ν'}

theorem total_le_of_weightAt_le (h : ∀ key, weightAt weight m key ≤ weightAt weight' m' key) :
    total weight m ≤ total weight' m' := by
  classical
  have hm : keySet m ⊆ keySet m ∪ keySet m' := Finset.subset_union_left
  have hm' : keySet m' ⊆ keySet m ∪ keySet m' := Finset.subset_union_right
  rw [total_eq_sum weight hm, total_eq_sum weight' hm']
  exact Finset.sum_le_sum fun key _ => h key

theorem total_congr (h : ∀ key, weightAt weight m key = weightAt weight' m' key) :
    total weight m = total weight' m' :=
  Nat.le_antisymm (total_le_of_weightAt_le fun key => (h key).le) (total_le_of_weightAt_le fun key => (h key).ge)

/-- Where one map takes from two others, its total is at most theirs together. -/
theorem total_le_add {ν₁ : Type} {weight₁ : ν₁ → ℕ} {m₁ : TreeMap κ ν₁}
    (h : ∀ key, weightAt weight m key ≤ weightAt weight₁ m₁ key + weightAt weight' m' key) :
    total weight m ≤ total weight₁ m₁ + total weight' m' := by
  classical
  let S := keySet m ∪ (keySet m₁ ∪ keySet m')
  have hm : keySet m ⊆ S := Finset.subset_union_left
  have hm₁ : keySet m₁ ⊆ S := Finset.subset_union_left.trans Finset.subset_union_right
  have hm' : keySet m' ⊆ S := Finset.subset_union_right.trans Finset.subset_union_right
  rw [total_eq_sum weight hm, total_eq_sum weight₁ hm₁, total_eq_sum weight' hm', ← Finset.sum_add_distrib]
  exact Finset.sum_le_sum fun key _ => h key

/-- Shares of a budget, each rounded down, do not exceed it together. -/
theorem total_le_of_shares {budget whole : ℕ} (hwhole : total weight' m' ≤ whole)
    (h : ∀ key, weightAt weight m key ≤ weightAt weight' m' key * budget / whole) : total weight m ≤ budget := by
  classical
  let S := keySet m ∪ keySet m'
  have hm' : total weight' m' = ∑ key ∈ S, weightAt weight' m' key := total_eq_sum weight' Finset.subset_union_right
  calc total weight m = ∑ key ∈ S, weightAt weight m key := total_eq_sum weight Finset.subset_union_left
    _ ≤ ∑ key ∈ S, weightAt weight' m' key * budget / whole := Finset.sum_le_sum fun key _ => h key
    _ ≤ (∑ key ∈ S, weightAt weight' m' key * budget) / whole := sum_div_le ..
    _ = total weight' m' * budget / whole := by rw [hm', Finset.sum_mul]
    _ ≤ budget := Nat.div_le_of_le_mul (Nat.mul_le_mul_right budget hwhole)
where
  sum_div_le {ι : Type} (S : Finset ι) (f : ι → ℕ) (n : ℕ) : ∑ i ∈ S, f i / n ≤ (∑ i ∈ S, f i) / n := by
    classical
    induction S using Finset.induction with
    | empty => simp
    | insert i S hi ih =>
      rw [Finset.sum_insert hi, Finset.sum_insert hi]
      exact (Nat.add_le_add_left ih _).trans (Nat.div_add_div_le_add_div ..)

theorem weightAt_le_total (key : κ) : weightAt weight m key ≤ total weight m := by
  classical
  rw [total_eq_sum weight (Finset.subset_insert key (keySet m))]
  exact Finset.single_le_sum (f := weightAt weight m) (fun _ _ => Nat.zero_le _) (Finset.mem_insert_self ..)

/-! ### Sums that saturate -/

omit [TransOrd κ] [LawfulEqOrd κ] in
theorem foldl_saturating (weight : ν → ℕ) (m : TreeMap κ ν) (cap : ℕ) :
    m.foldl (fun sum _ value => min (sum + weight value) cap) 0 = min (total weight m) cap := by
  have hlist (l : List (κ × ν)) (sum : ℕ) : l.foldl (fun sum entry => min (sum + weight entry.2) cap) (min sum cap) =
      min (sum + (l.map fun entry => weight entry.2).sum) cap := by
    induction l generalizing sum with
    | nil => rfl
    | cons entry l ih =>
      have hstep : min (min sum cap + weight entry.2) cap = min (sum + weight entry.2) cap := by omega
      rw [List.foldl_cons, hstep, ih, List.map_cons, List.sum_cons, Nat.add_assoc]
  rw [TreeMap.foldl_eq_foldl_toList]
  have := hlist m.toList 0
  rwa [Nat.zero_min, Nat.zero_add] at this

omit [TransOrd κ] [LawfulEqOrd κ] in
theorem total_le_size {bound : ℕ} (h : ∀ value, weight value ≤ bound) : total weight m ≤ m.size * bound := by
  have hlist (l : List (κ × ν)) : (l.map fun entry => weight entry.2).sum ≤ l.length * bound := by
    induction l with
    | nil => exact Nat.zero_le _
    | cons entry l ih =>
      rw [List.map_cons, List.sum_cons, List.length_cons, Nat.succ_mul, Nat.add_comm]
      exact Nat.add_le_add ih (h entry.2)
  have := hlist m.toList
  rwa [TreeMap.length_toList] at this

/-! ### Loops over distinct keys -/

section
omit [TransOrd κ] [LawfulEqOrd κ]

variable {α : Type} {step : TreeMap κ ν → κ × α → TreeMap κ ν} {update : α → Option ν → Option ν}

/-- A step changes a map at the key of its entry only. -/
structure UpdatesOwn (step : TreeMap κ ν → κ × α → TreeMap κ ν) (update : α → Option ν → Option ν) : Prop where
  own : ∀ m entry, (step m entry)[entry.1]? = update entry.2 m[entry.1]?
  other : ∀ m entry key, key ≠ entry.1 → (step m entry)[key]? = m[key]?

namespace UpdatesOwn

theorem foldl_of_not_mem (h : UpdatesOwn step update) {l : List (κ × α)} {key : κ} (hkey : key ∉ l.map Prod.fst)
    (m : TreeMap κ ν) : (l.foldl step m)[key]? = m[key]? := by
  induction l generalizing m with
  | nil => rfl
  | cons entry l ih =>
    rw [List.map_cons, List.mem_cons, not_or] at hkey
    rw [List.foldl_cons, ih hkey.2, h.other _ _ _ hkey.1]

theorem foldl_of_mem (h : UpdatesOwn step update) {l : List (κ × α)} (hl : (l.map Prod.fst).Nodup) {key : κ} {a : α}
    (hmem : (key, a) ∈ l) (m : TreeMap κ ν) : (l.foldl step m)[key]? = update a m[key]? := by
  induction l generalizing m with
  | nil => exact absurd hmem List.not_mem_nil
  | cons entry l ih =>
    rw [List.map_cons, List.nodup_cons] at hl
    rw [List.foldl_cons]
    rcases List.mem_cons.1 hmem with rfl | hmem
    · rw [h.foldl_of_not_mem hl.1, h.own]
    · have hne : key ≠ entry.1 := fun heq => hl.1 (List.mem_map.2 ⟨_, hmem, heq⟩)
      rw [ih hl.2 hmem, h.other _ _ _ hne]

/-- The loop over the entries of another map. -/
theorem foldl_toList [TransOrd κ] [LawfulEqOrd κ] (h : UpdatesOwn step update) (p : TreeMap κ α) (m : TreeMap κ ν) (key : κ) :
    (p.toList.foldl step m)[key]? = p[key]?.elim m[key]? fun a => update a m[key]? := by
  cases hp : p[key]? with
  | some a => exact h.foldl_of_mem (distinct_keys p) (TreeMap.mem_toList_iff_getElem?_eq_some.2 hp) m
  | none =>
    refine h.foldl_of_not_mem (fun hmem => ?_) m
    obtain ⟨entry, hentry, rfl⟩ := List.mem_map.1 hmem
    exact absurd (hp.symm.trans (TreeMap.mem_toList_iff_getElem?_eq_some.1 hentry)) (by simp)

end UpdatesOwn
end

end TreeTotal
