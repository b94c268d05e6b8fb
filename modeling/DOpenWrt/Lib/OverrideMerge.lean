import Mathlib.Tactic

/-!
# Merging with overrides

Two lists of keyed values are merged: where the second has a key, its values with that key replace those of the first,
at the first place of the key; what is left of the second is appended.
-/

namespace OverrideMerge

variable {α κ : Type*} [DecidableEq κ] (key : α → κ)

def withKey (k : κ) (l : List α) : List α := l.filter (key · = k)

/-- The keys of `l` other than `seen`, in the order of their first places. -/
def firsts (seen : List κ) (l : List α) : List κ := ((l.map key).filter (· ∉ seen)).eraseDups

/-- What a value `b` of the first list becomes, after the values `before`. -/
def emit (os before : List α) (b : α) : List α :=
  if key b ∈ os.map key then if key b ∈ before.map key then [] else withKey key (key b) os else [b]

def mergeFrom (os : List α) : List α → List α → List α
  | _, [] => []
  | before, b :: bs => emit key os before b ++ mergeFrom os (before ++ [b]) bs

/-- The values of the second list whose keys the first lacks. -/
def extra (bs os : List α) : List α := os.filter (key · ∉ bs.map key)

def merge (bs os : List α) : List α := mergeFrom key os [] bs ++ extra key bs os

/-- The values of each key next to each other, the keys in the order of their first places. -/
def grouped (l : List α) : List α := (firsts key [] l).flatMap fun k => withKey key k l

section
variable {key} {os before before' bs as : List α} {a b : α} {k : κ} {seen seen' : List κ}

theorem withKey_append : withKey key k (as ++ bs) = withKey key k as ++ withKey key k bs := List.filter_append ..

theorem mem_withKey : a ∈ withKey key k bs ↔ a ∈ bs ∧ key a = k := by
  rw [withKey, List.mem_filter, decide_eq_true_eq]

theorem withKey_eq_nil : withKey key k bs = [] ↔ k ∉ bs.map key := by
  rw [withKey, List.filter_eq_nil_iff, List.mem_map]
  simp

theorem mem_map_withKey {k' : κ} : k' ∈ (withKey key k os).map key ↔ k' = k ∧ k ∈ os.map key := by
  simp only [List.mem_map, mem_withKey]
  constructor
  · rintro ⟨a, ⟨ha, rfl⟩, rfl⟩
    exact ⟨rfl, a, ha, rfl⟩
  · rintro ⟨rfl, a, ha, rfl⟩
    exact ⟨a, ⟨ha, rfl⟩, rfl⟩

theorem withKey_withKey (k k' : κ) : withKey key k (withKey key k' bs) = if k = k' then withKey key k bs else [] := by
  split
  · next h =>
    subst h
    exact List.filter_eq_self.2 fun a ha => decide_eq_true (mem_withKey.1 ha).2
  · next h => exact List.filter_eq_nil_iff.2 fun a ha hk => h ((of_decide_eq_true hk).symm.trans (mem_withKey.1 ha).2)

/-! ### First places -/

theorem firsts_nil : firsts key seen [] = [] := rfl

theorem firsts_cons_seen (h : key b ∈ seen) : firsts key seen (b :: bs) = firsts key seen bs := by
  rw [firsts, List.map_cons, List.filter_cons_of_neg (by simpa using h), firsts]

theorem firsts_cons (h : key b ∉ seen) : firsts key seen (b :: bs) = key b :: firsts key (seen ++ [key b]) bs := by
  rw [firsts, List.map_cons, List.filter_cons_of_pos (by simpa using h), List.eraseDups_cons, List.filter_filter, firsts]
  congr 3
  funext k
  by_cases hk : k = key b <;> simp [hk]

theorem firsts_congr (h : ∀ k ∈ bs.map key, k ∈ seen ↔ k ∈ seen') : firsts key seen bs = firsts key seen' bs := by
  rw [firsts, firsts]
  congr 1
  refine List.filter_congr fun k hk => ?_
  rw [decide_eq_decide, h k hk]

theorem firsts_append : firsts key seen (as ++ bs) = firsts key seen as ++ firsts key (seen ++ as.map key) bs := by
  induction as generalizing seen with
  | nil => simp [firsts_nil]
  | cons a as ih =>
    rw [List.cons_append]
    by_cases ha : key a ∈ seen
    · rw [firsts_cons_seen ha, firsts_cons_seen ha, ih]
      congr 1
      refine firsts_congr fun k _ => ?_
      simp only [List.mem_append, List.map_cons, List.mem_cons]
      constructor
      · rintro (h | h)
        · exact .inl h
        · exact .inr (.inr h)
      · rintro (h | rfl | h)
        · exact .inl h
        · exact .inl ha
        · exact .inr h
    · rw [firsts_cons ha, firsts_cons ha, ih, List.cons_append, List.map_cons, List.append_assoc, List.singleton_append]

theorem mem_firsts : k ∈ firsts key seen bs ↔ k ∈ bs.map key ∧ k ∉ seen := by
  rw [firsts, List.mem_eraseDups, List.mem_filter, decide_eq_true_eq]

theorem firsts_eq_nil (h : ∀ k ∈ bs.map key, k ∈ seen) : firsts key seen bs = [] :=
  List.eq_nil_iff_forall_not_mem.2 fun k hk => (mem_firsts.1 hk).2 (h k (mem_firsts.1 hk).1)

/-- All the values of one new key. -/
theorem firsts_withKey (hmem : k ∈ os.map key) (hseen : k ∉ seen) : firsts key seen (withKey key k os) = [k] := by
  have hall : ∀ a ∈ withKey key k os, key a = k := fun a ha => (mem_withKey.1 ha).2
  cases heq : withKey key k os with
  | nil => exact absurd hmem (withKey_eq_nil.1 heq)
  | cons a as =>
    rw [heq] at hall
    have ha := hall a (List.mem_cons_self ..)
    rw [firsts_cons (by rwa [ha]), ha, firsts_eq_nil]
    rintro k' hk'
    obtain ⟨b, hb, rfl⟩ := List.mem_map.1 hk'
    rw [hall b (List.mem_cons_of_mem _ hb)]
    exact List.mem_append_right _ (List.mem_singleton.2 rfl)

/-! ### The merged list -/

theorem emit_kept (h : key b ∉ os.map key) : emit key os before b = [b] := if_neg h

theorem emit_seen (h : key b ∈ os.map key) (hb : key b ∈ before.map key) : emit key os before b = [] := by
  rw [emit, if_pos h, if_pos hb]

theorem emit_first (h : key b ∈ os.map key) (hb : key b ∉ before.map key) :
    emit key os before b = withKey key (key b) os := by
  rw [emit, if_pos h, if_neg hb]

theorem key_of_mem_emit (h : a ∈ emit key os before b) : key a = key b := by
  unfold emit at h
  split_ifs at h
  · cases h
  · exact (mem_withKey.1 h).2
  · rw [List.mem_singleton.1 h]

theorem withKey_emit_of_ne (h : k ≠ key b) : withKey key k (emit key os before b) = [] :=
  List.filter_eq_nil_iff.2 fun _ ha hk => h ((of_decide_eq_true hk).symm.trans (key_of_mem_emit ha))

omit [DecidableEq κ] in
theorem mem_map_concat : k ∈ (before ++ [b]).map key ↔ k ∈ before.map key ∨ k = key b := by
  rw [List.map_append, List.mem_append, List.map_singleton, List.mem_singleton]

theorem mergeFrom_append : mergeFrom key os before (as ++ bs) =
    mergeFrom key os before as ++ mergeFrom key os (before ++ as) bs := by
  induction as generalizing before with
  | nil => rw [List.nil_append, mergeFrom, List.nil_append, List.append_nil]
  | cons a as ih =>
    rw [List.cons_append, mergeFrom, mergeFrom, ih, List.append_assoc, List.append_assoc, List.singleton_append]

theorem withKey_mergeFrom_kept (h : k ∉ os.map key) : withKey key k (mergeFrom key os before bs) = withKey key k bs := by
  induction bs generalizing before with
  | nil => rfl
  | cons b bs ih =>
    rw [mergeFrom, withKey_append, ih]
    by_cases hk : k = key b
    · rw [hk] at h
      rw [emit_kept h]
      exact withKey_append.symm
    · rw [withKey_emit_of_ne hk, List.nil_append, withKey, withKey, List.filter_cons_of_neg (by simpa using Ne.symm hk)]

theorem withKey_mergeFrom_seen (h : k ∈ os.map key) (hb : k ∈ before.map key) :
    withKey key k (mergeFrom key os before bs) = [] := by
  induction bs generalizing before with
  | nil => rfl
  | cons b bs ih =>
    rw [mergeFrom, withKey_append, ih (mem_map_concat.2 (.inl hb)), List.append_nil]
    by_cases hk : k = key b
    · rw [hk] at h hb
      rw [emit_seen h hb]
      rfl
    · exact withKey_emit_of_ne hk

theorem withKey_mergeFrom_first (h : k ∈ os.map key) (hb : k ∉ before.map key) :
    withKey key k (mergeFrom key os before bs) = if k ∈ bs.map key then withKey key k os else [] := by
  induction bs generalizing before with
  | nil => rfl
  | cons b bs ih =>
    rw [mergeFrom, withKey_append]
    by_cases hk : k = key b
    · rw [withKey_mergeFrom_seen h (mem_map_concat.2 (.inr hk)), List.append_nil, hk,
        if_pos (List.mem_map_of_mem (List.mem_cons_self ..)), emit_first (hk ▸ h) (hk ▸ hb), withKey_withKey, if_pos rfl]
    · have hnot : k ∉ (before ++ [b]).map key := fun hmem => (mem_map_concat.1 hmem).elim hb hk
      rw [withKey_emit_of_ne hk, List.nil_append, ih hnot, List.map_cons]
      exact if_congr (by rw [List.mem_cons, or_iff_right hk]) rfl rfl

/-- The values of a key are those of the second list, if it has any. -/
theorem withKey_merge (bs os : List α) (k : κ) :
    withKey key k (merge key bs os) = if k ∈ os.map key then withKey key k os else withKey key k bs := by
  rw [merge, withKey_append]
  by_cases h : k ∈ os.map key
  · rw [withKey_mergeFrom_first h (by simp), if_pos h]
    by_cases hbs : k ∈ bs.map key
    · rw [if_pos hbs, extra, withKey, withKey, List.filter_filter, List.append_right_eq_self, List.filter_eq_nil_iff]
      rintro a - ha
      simp only [Bool.and_eq_true, decide_eq_true_eq] at ha
      exact ha.2 (ha.1 ▸ hbs)
    · rw [if_neg hbs, List.nil_append, extra, withKey, List.filter_filter]
      refine List.filter_congr fun a _ => ?_
      by_cases ha : key a = k <;> simp [ha, hbs]
  · rw [withKey_mergeFrom_kept h, if_neg h, List.append_right_eq_self, extra, withKey, List.filter_filter,
      List.filter_eq_nil_iff]
    intro a ha hk
    simp only [Bool.and_eq_true, decide_eq_true_eq] at hk
    exact h (hk.1 ▸ List.mem_map_of_mem ha)

theorem mem_map_emit (h : k ∈ (emit key os before b).map key) : k = key b := by
  obtain ⟨a, ha, rfl⟩ := List.mem_map.1 h
  exact key_of_mem_emit ha

/-- A new key is the first of what becomes of its value. -/
theorem firsts_emit (hb : key b ∉ seen) (hbefore : key b ∉ before.map key) :
    firsts key seen (emit key os before b) = [key b] := by
  by_cases hos : key b ∈ os.map key
  · rw [emit_first hos hbefore, firsts_withKey hos hb]
  · rw [emit_kept hos, firsts_cons hb, firsts_nil]

/-- The keys stay in the order of their first places. -/
theorem firsts_mergeFrom (os before bs : List α) :
    firsts key (before.map key) (mergeFrom key os before bs) = firsts key (before.map key) bs := by
  induction bs generalizing before with
  | nil => rfl
  | cons b bs ih =>
    rw [mergeFrom, firsts_append]
    by_cases hb : key b ∈ before.map key
    · have hseen : ∀ k, k ∈ before.map key ↔ k ∈ (before ++ [b]).map key := fun k =>
        ⟨fun h => mem_map_concat.2 (.inl h), fun h => (mem_map_concat.1 h).elim id fun hk => hk ▸ hb⟩
      have hemit : ∀ k ∈ (emit key os before b).map key, k ∈ before.map key := fun k hk => mem_map_emit hk ▸ hb
      rw [firsts_eq_nil hemit, List.nil_append, firsts_cons_seen hb, firsts_congr fun k _ => hseen k, ← ih]
      refine firsts_congr fun k _ => ?_
      rw [List.mem_append, ← hseen]
      exact ⟨fun h => h.elim id (hemit k), .inl⟩
    · have hfirst : firsts key (before.map key) (emit key os before b) = [key b] := firsts_emit hb hb
      have hmem : key b ∈ (emit key os before b).map key :=
        (mem_firsts.1 (hfirst ▸ List.mem_singleton.2 rfl : key b ∈ firsts key (before.map key) _)).1
      rw [hfirst, firsts_cons hb, List.singleton_append]
      refine congrArg (key b :: ·) ?_
      have hconcat : before.map key ++ [key b] = (before ++ [b]).map key := by rw [List.map_append, List.map_singleton]
      rw [hconcat, ← ih]
      refine firsts_congr fun k _ => ?_
      rw [List.mem_append, mem_map_concat]
      exact or_congr_right ⟨mem_map_emit, fun hk => hk ▸ hmem⟩

theorem mem_map_extra : k ∈ (extra key bs os).map key ↔ k ∈ os.map key ∧ k ∉ bs.map key := by
  simp only [extra, List.mem_map, List.mem_filter, decide_eq_true_eq]
  constructor
  · rintro ⟨a, ⟨ha, hk⟩, rfl⟩
    exact ⟨⟨a, ha, rfl⟩, hk⟩
  · rintro ⟨⟨a, ha, rfl⟩, hk⟩
    exact ⟨a, ⟨ha, hk⟩, rfl⟩

theorem mem_map_mergeFrom : k ∈ (mergeFrom key os [] bs).map key ↔ k ∈ bs.map key := by
  have h : firsts key [] (mergeFrom key os [] bs) = firsts key [] bs := firsts_mergeFrom os [] bs
  simpa [mem_firsts] using congrArg (k ∈ ·) h

/-- The keys of the first list, then those that only the second has, each in the order of its own list. -/
theorem firsts_merge (bs os : List α) :
    firsts key [] (merge key bs os) = firsts key [] bs ++ firsts key [] (extra key bs os) := by
  have h : firsts key [] (mergeFrom key os [] bs) = firsts key [] bs := firsts_mergeFrom os [] bs
  rw [merge, firsts_append, h, List.nil_append]
  refine congrArg (firsts key [] bs ++ ·) (firsts_congr fun k hk => ?_)
  exact iff_of_false (fun hmem => (mem_map_extra.1 hk).2 (mem_map_mergeFrom.1 hmem)) List.not_mem_nil

/-! ### Merging again -/

theorem mergeFrom_withKey (hos : k ∈ os.map key) (hbefore : k ∉ before.map key) :
    mergeFrom key os before (withKey key k os) = withKey key k os := by
  have hseen : ∀ (before bs : List α), k ∈ before.map key → (∀ b ∈ bs, key b = k) → mergeFrom key os before bs = [] := by
    intro before bs hmem hall
    induction bs generalizing before with
    | nil => rfl
    | cons b bs ih =>
      have hb := hall b (List.mem_cons_self ..)
      rw [mergeFrom, emit_seen (hb ▸ hos) (hb ▸ hmem), List.nil_append,
        ih _ (mem_map_concat.2 (.inl hmem)) fun a ha => hall a (List.mem_cons_of_mem _ ha)]
  have hall : ∀ a ∈ withKey key k os, key a = k := fun a ha => (mem_withKey.1 ha).2
  generalize hl : withKey key k os = l at hall
  cases l with
  | nil => rfl
  | cons a as =>
    have ha := hall a (List.mem_cons_self ..)
    rw [mergeFrom, emit_first (ha ▸ hos) (ha ▸ hbefore), ha, hl,
      hseen _ _ (mem_map_concat.2 (.inr ha.symm)) fun b hb => hall b (List.mem_cons_of_mem _ hb), List.append_nil]

/-- Merging again leaves what became of the first list, whatever stands before, as long as it has the same keys. -/
theorem mergeFrom_mergeFrom (h : ∀ k ∈ os.map key, k ∈ before.map key ↔ k ∈ before'.map key) :
    mergeFrom key os before' (mergeFrom key os before bs) = mergeFrom key os before bs := by
  induction bs generalizing before before' with
  | nil => rfl
  | cons b bs ih =>
    rw [mergeFrom, mergeFrom_append]
    by_cases hos : key b ∈ os.map key
    · by_cases hb : key b ∈ before.map key
      · rw [emit_seen hos hb, List.append_nil, mergeFrom, List.nil_append, List.nil_append]
        refine ih fun k hk => ?_
        rw [mem_map_concat, ← h k hk]
        exact ⟨fun hmem => hmem.elim id fun hkb => hkb ▸ hb, .inl⟩
      · rw [emit_first hos hb, mergeFrom_withKey hos (fun hmem => hb ((h _ hos).2 hmem))]
        refine congrArg (withKey key (key b) os ++ ·) (ih fun k hk => ?_)
        rw [mem_map_concat, List.map_append, List.mem_append, ← h k hk]
        rw [mem_map_withKey, and_iff_left hos]
    · rw [emit_kept hos, mergeFrom, emit_kept hos, mergeFrom, List.append_nil]
      refine congrArg ([b] ++ ·) (ih fun k hk => ?_)
      rw [mem_map_concat, mem_map_concat, h k hk]

/-- Values that all have a new key of the second list are grouped. -/
theorem mergeFrom_of_subset (h : ∀ b ∈ bs, key b ∈ os.map key) :
    mergeFrom key os before bs = (firsts key (before.map key) bs).flatMap fun k => withKey key k os := by
  induction bs generalizing before with
  | nil => rfl
  | cons b bs ih =>
    have hos := h b (List.mem_cons_self ..)
    have hconcat : (before ++ [b]).map key = before.map key ++ [key b] := by rw [List.map_append, List.map_singleton]
    rw [mergeFrom, ih fun a ha => h a (List.mem_cons_of_mem _ ha), hconcat]
    by_cases hb : key b ∈ before.map key
    · rw [emit_seen hos hb, List.nil_append, firsts_cons_seen hb]
      refine congrArg (List.flatMap _) (firsts_congr fun k _ => ?_)
      rw [List.mem_append, List.mem_singleton]
      exact ⟨fun hmem => hmem.elim id fun hk => hk ▸ hb, .inl⟩
    · rw [emit_first hos hb, firsts_cons hb, List.flatMap_cons]

theorem extra_merge (bs os : List α) : extra key (merge key bs os) os = [] := by
  refine List.filter_eq_nil_iff.2 fun a ha => ?_
  have hmem : key a ∈ os.map key := List.mem_map_of_mem ha
  rw [decide_eq_true_eq, not_not, merge, List.map_append, List.mem_append, mem_map_mergeFrom, mem_map_extra]
  by_cases hbs : key a ∈ bs.map key
  · exact .inl hbs
  · exact .inr ⟨hmem, hbs⟩

/-- Merged again, the second list changes nothing but that the values of each key it added are grouped. -/
theorem merge_merge (bs os : List α) :
    merge key (merge key bs os) os = mergeFrom key os [] bs ++ grouped key (extra key bs os) := by
  have hsubset : ∀ b ∈ extra key bs os, key b ∈ os.map key := fun b hb => List.mem_map_of_mem (List.mem_of_mem_filter hb)
  rw [merge, extra_merge, List.append_nil, merge, mergeFrom_append, mergeFrom_mergeFrom fun k _ => Iff.rfl, List.nil_append,
    mergeFrom_of_subset hsubset, grouped]
  refine congrArg (mergeFrom key os [] bs ++ ·) ?_
  have hfirsts : firsts key ((mergeFrom key os [] bs).map key) (extra key bs os) = firsts key [] (extra key bs os) :=
    firsts_congr fun k hk =>
      iff_of_false (fun hmem => (mem_map_extra.1 hk).2 (mem_map_mergeFrom.1 hmem)) List.not_mem_nil
  rw [hfirsts]
  refine List.flatMap_congr fun k hk => ?_
  have hbs : k ∉ bs.map key := (mem_map_extra.1 (mem_firsts.1 hk).1).2
  rw [extra, withKey, withKey, List.filter_filter]
  refine List.filter_congr fun a _ => ?_
  by_cases ha : key a = k <;> simp [ha, hbs]

/-- The keys keep their places. -/
theorem firsts_merge_merge (bs os : List α) :
    firsts key [] (merge key (merge key bs os) os) = firsts key [] (merge key bs os) := by
  rw [firsts_merge (merge key bs os), extra_merge, firsts_nil, List.append_nil]

theorem withKey_merge_merge (bs os : List α) (k : κ) :
    withKey key k (merge key (merge key bs os) os) = withKey key k (merge key bs os) := by
  rw [withKey_merge, withKey_merge]
  split <;> rfl

theorem merge_merge_eq_iff (bs os : List α) :
    merge key (merge key bs os) os = merge key bs os ↔ grouped key (extra key bs os) = extra key bs os := by
  rw [merge_merge, merge, List.append_cancel_left_eq]

theorem flatMap_firsts_perm (seen : List κ) (l : List α) :
    ((firsts key seen l).flatMap fun k => withKey key k l).Perm (l.filter (key · ∉ seen)) := by
  induction l generalizing seen with
  | nil => exact .refl _
  | cons b l ih =>
    have hrest (seen' : List κ) (hb : key b ∈ seen') : ((firsts key seen' l).flatMap fun k => withKey key k (b :: l)) =
        (firsts key seen' l).flatMap fun k => withKey key k l := by
      refine List.flatMap_congr fun k hk => List.filter_cons_of_neg ?_
      rw [decide_eq_true_eq]
      exact fun hbk => (mem_firsts.1 hk).2 (hbk ▸ hb)
    by_cases hb : key b ∈ seen
    · rw [firsts_cons_seen hb, hrest seen hb, List.filter_cons_of_neg (by simpa using hb)]
      exact ih seen
    · have hsplit := List.filter_append_perm (fun a => decide (key a = key b)) (l.filter (key · ∉ seen))
      have hsame : (l.filter (key · ∉ seen)).filter (fun a => decide (key a = key b)) = withKey key (key b) l := by
        rw [withKey, List.filter_filter]
        refine List.filter_congr fun a _ => ?_
        by_cases ha : key a = key b <;> simp [ha, hb]
      have hother : (l.filter (key · ∉ seen)).filter (fun a => !decide (key a = key b)) =
          l.filter (key · ∉ seen ++ [key b]) := by
        rw [List.filter_filter]
        refine List.filter_congr fun a _ => ?_
        by_cases ha : key a = key b <;> simp [ha]
      rw [hsame, hother] at hsplit
      rw [firsts_cons hb, List.flatMap_cons, hrest _ (List.mem_append_right _ (List.mem_singleton.2 rfl)), withKey,
        List.filter_cons_of_pos (by simp), List.filter_cons_of_pos (by simpa using hb), List.cons_append]
      exact .cons b ((List.Perm.append_left _ (ih _)).trans hsplit)

theorem grouped_perm (l : List α) : (grouped key l).Perm l :=
  (flatMap_firsts_perm [] l).trans (.of_eq (List.filter_eq_self.2 fun _ _ => by simp))

theorem merge_merge_perm (bs os : List α) : (merge key (merge key bs os) os).Perm (merge key bs os) := by
  rw [merge_merge, merge]
  exact (grouped_perm _).append_left _

end

end OverrideMerge
