import DOpenWrt.Rtp2httpd.RtpFecBounds

/-!
# Which group is evicted

`fec_find_or_create_group` evicts the group that begins furthest before the new range. Its scan starts with a largest
distance of zero, so a group that begins with the new range or after it is never chosen by the scan, and where there
is no other the group in slot 0 goes.
-/

namespace Rtp2httpd
open Serial

variable {w : Window} {ctx ctx' : FecContext} {r : RtpReorder w} {beginSeq endSeq : BitVec 16} {i : Fin fecMaxGroups}

/-- No active group begins serially before the one in slot `i`. -/
def Earliest (ctx : FecContext) (i : Fin fecMaxGroups) : Prop :=
  ∃ grp, ctx.groups i = some grp ∧ ∀ j grp', ctx.groups j = some grp' → 0 ≤ sdiff grp'.beginSeq grp.beginSeq

/-- The group in slot `i`, and no other one, is taken away. -/
def Evicted (ctx ctx' : FecContext) (i : Fin fecMaxGroups) : Prop :=
  ctx'.groups i ≠ ctx.groups i ∧ ∀ j, j ≠ i → ctx'.groups j = ctx.groups j

/-- The new range begins after an earliest group, or after no group while slot 0 holds an earliest one. -/
def BeginsAfterEarliest (ctx : FecContext) (beginSeq : BitVec 16) : Prop :=
  (∃ i grp, Earliest ctx i ∧ ctx.groups i = some grp ∧ 0 < sdiff beginSeq grp.beginSeq) ∨
    Earliest ctx ⟨0, Nat.zero_lt_succ 31⟩ ∧ ∀ i grp, ctx.groups i = some grp → sdiff beginSeq grp.beginSeq ≤ 0

/-- `SEQ_DIFF(ctx->reorder->base_seq, end_seq) > 0`: no group is made for the range any more. -/
def RangeExpired (ctx : FecContext) (r : RtpReorder w) (endSeq : BitVec 16) : Prop :=
  ctx.attached ∧ 0 < sdiff r.baseSeq endSeq

/-! ### The scan -/

/-- What the scan has found in the slots `l`. -/
structure Scanned (ctx : FecContext) (beginSeq : BitVec 16) (l : List (Fin fecMaxGroups))
    (best : ℤ × Fin fecMaxGroups) : Prop where
  upper : ∀ j ∈ l, ∀ grp, ctx.groups j = some grp → sdiff beginSeq grp.beginSeq ≤ best.1
  found : best = (0, ⟨0, by decide⟩) ∨
    ∃ grp, ctx.groups best.2 = some grp ∧ sdiff beginSeq grp.beginSeq = best.1 ∧ 0 < best.1

theorem Scanned.pass {l : List (Fin fecMaxGroups)} {best : ℤ × Fin fecMaxGroups} (h : Scanned ctx beginSeq l best)
    (j : Fin fecMaxGroups) : Scanned ctx beginSeq (l ++ [j]) (match ctx.groups j with
      | some grp =>
        let diff := sdiff beginSeq grp.beginSeq
        if diff > best.1 then (diff, j) else best
      | none => best) := by
  have hnonneg : 0 ≤ best.1 := by
    rcases h.found with hbest | ⟨_, _, _, hpos⟩
    · rw [hbest]
    · exact hpos.le
  cases hj : ctx.groups j with
  | none =>
    refine ⟨fun k hk grp hgrp => ?_, h.found⟩
    rcases List.mem_append.1 hk with hk | hk
    · exact h.upper k hk grp hgrp
    · rw [List.mem_singleton.1 hk, hj] at hgrp
      cases hgrp
  | some old =>
    dsimp only
    split
    · next hlarger =>
      refine ⟨fun k hk grp hgrp => ?_, .inr ⟨old, hj, rfl, by dsimp only; omega⟩⟩
      rcases List.mem_append.1 hk with hk | hk
      · exact (h.upper k hk grp hgrp).trans hlarger.le
      · rw [List.mem_singleton.1 hk, hj] at hgrp
        cases hgrp
        exact le_rfl
    · next hsmaller =>
      refine ⟨fun k hk grp hgrp => ?_, h.found⟩
      rcases List.mem_append.1 hk with hk | hk
      · exact h.upper k hk grp hgrp
      · rw [List.mem_singleton.1 hk, hj] at hgrp
        cases hgrp
        exact not_lt.1 hsmaller

/-- The scan ends at a group of largest positive distance, or at slot 0 if no distance is positive. -/
theorem fecOldestIdx_spec (ctx : FecContext) (beginSeq : BitVec 16) :
    (∃ grp, ctx.groups (fecOldestIdx ctx beginSeq) = some grp ∧ 0 < sdiff beginSeq grp.beginSeq ∧
      ∀ j grp', ctx.groups j = some grp' → sdiff beginSeq grp'.beginSeq ≤ sdiff beginSeq grp.beginSeq) ∨
    fecOldestIdx ctx beginSeq = ⟨0, by decide⟩ ∧
      ∀ j grp', ctx.groups j = some grp' → sdiff beginSeq grp'.beginSeq ≤ 0 := by
  have hscan : ∀ l, Scanned ctx beginSeq l (l.foldl (fun (best : ℤ × Fin fecMaxGroups) i =>
      match ctx.groups i with
      | some grp =>
        let diff := sdiff beginSeq grp.beginSeq
        if diff > best.1 then (diff, i) else best
      | none => best) (0, ⟨0, by decide⟩)) := by
    intro l
    induction l using List.reverseRecOn with
    | nil => exact ⟨by simp, .inl rfl⟩
    | append_singleton l j ih =>
      rw [List.foldl_append]
      exact ih.pass j
  have h := hscan (List.finRange fecMaxGroups)
  change Scanned ctx beginSeq _ (_, fecOldestIdx ctx beginSeq) at h
  have hupper := fun j => h.upper j (List.mem_finRange j)
  rcases h.found with hbest | ⟨grp, hgrp, hdiff, hpos⟩
  · refine .inr ⟨congrArg Prod.snd hbest, fun j grp hj => ?_⟩
    exact (hupper j grp hj).trans (congrArg Prod.fst hbest).le
  · refine .inl ⟨grp, hgrp, hdiff ▸ hpos, fun j grp' hj => ?_⟩
    rw [hdiff]
    exact hupper j grp' hj

/-! ### Distances -/

theorem sdiff_range (a b : BitVec 16) : -32768 ≤ sdiff a b ∧ sdiff a b < 32768 := by
  have := ahead_lt_65536 a b
  rw [sdiff_eq_ite]
  split <;> omega

/-- Signed distances add up where the sum is in range. -/
theorem sdiff_add_sdiff {a b c : BitVec 16} (h : -32768 ≤ sdiff a b + sdiff b c) (h' : sdiff a b + sdiff b c < 32768) :
    sdiff a c = sdiff a b + sdiff b c := by
  have hab := ahead_lt_65536 a b
  have hbc := ahead_lt_65536 b c
  have htrans := ahead_trans a b c
  rw [sdiff_eq_ite a c]
  rw [sdiff_eq_ite a b, sdiff_eq_ite b c] at h h' ⊢
  split at h <;> split at h <;> split <;> omega

theorem sdiff_self (a : BitVec 16) : sdiff a a = 0 := by
  rw [sdiff_eq_ite, ahead_self]
  rfl

theorem eq_of_sdiff_eq_zero {a b : BitVec 16} (h : sdiff a b = 0) : a = b := by
  have := ahead_lt_65536 a b
  rw [sdiff_eq_ite] at h
  refine ahead_eq_zero.1 ?_
  split at h <;> omega

theorem sdiff_neg_swap {a b : BitVec 16} (h : sdiff a b ≠ -32768) : sdiff b a = -sdiff a b := by
  rcases eq_or_ne a b with rfl | hne
  · rw [sdiff_self]
    rfl
  · have := ahead_swap hne
    have := ahead_lt_65536 a b
    rw [sdiff_eq_ite] at h
    rw [sdiff_eq_ite, sdiff_eq_ite a b]
    split at h <;> split <;> omega

/-! ### The eviction -/

/-- The scan finds an earliest group exactly under the condition. -/
theorem earliest_fecOldestIdx_iff (ctx : FecContext) (beginSeq : BitVec 16) :
    Earliest ctx (fecOldestIdx ctx beginSeq) ↔ BeginsAfterEarliest ctx beginSeq := by
  rcases fecOldestIdx_spec ctx beginSeq with ⟨grp, hgrp, hpos, hmax⟩ | ⟨hzero, hnone⟩
  · constructor
    · intro h
      exact .inl ⟨_, grp, h, hgrp, hpos⟩
    · rintro (⟨e, egrp, ⟨egrp', hegrp', hfirst⟩, hegrp, hepos⟩ | ⟨-, hnone⟩)
      · obtain rfl := Option.some.inj (hegrp.symm.trans hegrp')
        -- the group found begins as early as the earliest
        have hle := hmax e egrp hegrp
        have hge := hfirst _ grp hgrp
        have hrange := sdiff_range beginSeq grp.beginSeq
        have hrange' := sdiff_range grp.beginSeq egrp.beginSeq
        have hrange'' := sdiff_range beginSeq egrp.beginSeq
        have hsame : sdiff grp.beginSeq egrp.beginSeq = 0 := by
          by_contra hne
          have hswap := sdiff_neg_swap (a := grp.beginSeq) (b := egrp.beginSeq) (by omega)
          have := sdiff_add_sdiff (a := beginSeq) (b := egrp.beginSeq) (c := grp.beginSeq) (by omega) (by omega)
          omega
        refine ⟨grp, hgrp, fun j grp' hj => ?_⟩
        rw [eq_of_sdiff_eq_zero hsame]
        exact hfirst j grp' hj
      · exact absurd (hnone _ grp hgrp) (by omega)
  · rw [hzero]
    constructor
    · intro h
      exact .inr ⟨h, hnone⟩
    · rintro (⟨e, egrp, -, hegrp, hepos⟩ | ⟨h, -⟩)
      · exact absurd (hnone e egrp hegrp) (by omega)
      · exact h

/-- The new group is put into the slot found for it. -/
theorem fecFindOrCreateGroup_groups (heap : Heap) (r : RtpReorder w) (k m rtpLen : Nat)
    (hnew : fecFindGroup ctx beginSeq endSeq = none) (hlive : ¬ RangeExpired ctx r endSeq) :
    (fecFindOrCreateGroup heap ctx r beginSeq endSeq k m rtpLen).1.groups =
      Function.update ctx.groups (fecNewSlot ctx r beginSeq).idx
        (if heap .fecSlots then some ⟨beginSeq, endSeq, k, m, rtpLen, 0, fun _ => none⟩ else none) := by
  unfold RangeExpired at hlive
  unfold fecFindOrCreateGroup
  rw [if_neg hlive, hnew]
  dsimp only
  split
  · split
    · rfl
    · split
      · exact fecRecalcMinEndSeq_groups _
      · rfl
  · rfl

/-- With all slots taken that is the slot the scan finds. -/
theorem fecNewSlot_full (r : RtpReorder w) (beginSeq : BitVec 16) (hfull : ∀ i, (ctx.groups i).isSome) :
    (fecNewSlot ctx r beginSeq).idx = fecOldestIdx ctx beginSeq := by
  unfold fecNewSlot
  rw [List.find?_eq_none.2 fun i _ => by simpa [Option.isSome_iff_ne_none] using hfull i]
  dsimp only
  split <;> rfl

theorem fecFindGroup_none {i : Fin fecMaxGroups} {grp : FecGroup} (h : fecFindGroup ctx beginSeq endSeq = none)
    (hi : ctx.groups i = some grp) : ¬ (grp.beginSeq = beginSeq ∧ grp.endSeq = endSeq) := by
  have := List.find?_eq_none.1 h i (List.mem_finRange i)
  rw [hi] at this
  simpa using this

theorem evicted_full (heap : Heap) (r : RtpReorder w) (k m rtpLen : Nat)
    (hfull : ∀ i, (ctx.groups i).isSome) (hnew : fecFindGroup ctx beginSeq endSeq = none)
    (hlive : ¬ RangeExpired ctx r endSeq) :
    Evicted ctx (fecFindOrCreateGroup heap ctx r beginSeq endSeq k m rtpLen).1 i ↔ i = fecOldestIdx ctx beginSeq := by
  unfold Evicted
  rw [fecFindOrCreateGroup_groups heap r k m rtpLen hnew hlive, fecNewSlot_full r beginSeq hfull]
  have hchanged : Function.update ctx.groups (fecOldestIdx ctx beginSeq) (if heap .fecSlots then
      some ⟨beginSeq, endSeq, k, m, rtpLen, 0, fun _ => none⟩ else none) (fecOldestIdx ctx beginSeq) ≠
        ctx.groups (fecOldestIdx ctx beginSeq) := by
    obtain ⟨grp, hgrp⟩ := Option.isSome_iff_exists.1 (hfull (fecOldestIdx ctx beginSeq))
    have hold := fecFindGroup_none hnew hgrp
    rw [Function.update_self, hgrp]
    split
    · intro he
      rw [← Option.some.inj he] at hold
      exact hold ⟨rfl, rfl⟩
    · simp
  constructor
  · rintro ⟨-, hrest⟩
    by_contra hne
    exact hchanged (hrest _ (Ne.symm hne))
  · rintro rfl
    exact ⟨hchanged, fun j hj => Function.update_of_ne hj _ _⟩

/-- A full table gives up a group that begins serially earliest for a new range, if and only if the range has not
expired and begins after an earliest group, or after no group while slot 0 holds an earliest one. -/
theorem fecFindOrCreateGroup_evicts_earliest_iff (heap : Heap) (ctx : FecContext) (r : RtpReorder w)
    (beginSeq endSeq : BitVec 16) (k m rtpLen : Nat) (hfull : ∀ i, (ctx.groups i).isSome)
    (hnew : fecFindGroup ctx beginSeq endSeq = none) :
    (∃ i, Evicted ctx (fecFindOrCreateGroup heap ctx r beginSeq endSeq k m rtpLen).1 i ∧ Earliest ctx i) ↔
      ¬ RangeExpired ctx r endSeq ∧ BeginsAfterEarliest ctx beginSeq := by
  by_cases hexp : RangeExpired ctx r endSeq
  · refine iff_of_false ?_ (fun h => h.1 hexp)
    rintro ⟨i, ⟨hchanged, -⟩, -⟩
    refine hchanged ?_
    unfold RangeExpired at hexp
    unfold fecFindOrCreateGroup
    rw [if_pos hexp]
  · simp only [evicted_full heap r k m rtpLen hfull hnew hexp, exists_eq_left, earliest_fecOldestIdx_iff, hexp,
      not_false_eq_true, true_and]

/-- A full table whose group in slot `i` is for the single number `n i`. -/
def fullContext (n : Fin fecMaxGroups → Nat) : FecContext :=
  { fecInit 1 true with
    groups := fun i => some ⟨BitVec.ofNat 16 (n i), BitVec.ofNat 16 (n i), 1, 1, 12, 0, fun _ => none⟩
    groupCount := 32
    minEndSeqValid := true }

/-- Groups for 42, 41, ..., 11 and the new range 50..50: the group for 11 goes. -/
theorem fecFindOrCreateGroup_evicts_earliest_iff_later : ∃ i,
    Evicted (fullContext fun i => 42 - i) (fecFindOrCreateGroup (fun _ => true) (fullContext fun i => 42 - i)
      (rtpReorderInit true) 50 50 1 1 12).1 i ∧ Earliest (fullContext fun i => 42 - i) i :=
  (fecFindOrCreateGroup_evicts_earliest_iff _ _ _ _ _ _ _ _ (fun _ => rfl) (by decide)).2
    ⟨by unfold RangeExpired; decide, .inl ⟨⟨31, by decide⟩, _, ⟨_, rfl, fun j grp hj => by
      cases hj
      revert j
      decide⟩, rfl, by decide⟩⟩

/-- Groups for 42, 41, ..., 11 and the new range 5..5: the group in slot 0, for 42, goes. -/
theorem eviction_takes_latest :
    Evicted (fullContext fun i => 42 - i) (fecFindOrCreateGroup (fun _ => true) (fullContext fun i => 42 - i)
      (rtpReorderInit true) 5 5 1 1 12).1 ⟨0, by decide⟩ ∧ ¬ ∃ i,
    Evicted (fullContext fun i => 42 - i) (fecFindOrCreateGroup (fun _ => true) (fullContext fun i => 42 - i)
      (rtpReorderInit true) 5 5 1 1 12).1 i ∧ Earliest (fullContext fun i => 42 - i) i := by
  have hidx : fecOldestIdx (fullContext fun i => 42 - i) 5 = ⟨0, by decide⟩ := by decide +kernel
  have hevicted := fun i => @evicted_full _ (fullContext fun i => 42 - i) 5 5 i (fun _ => true) (rtpReorderInit true)
    1 1 12 (fun _ => rfl) (by decide) (by unfold RangeExpired; decide)
  refine ⟨(hevicted _).2 hidx.symm, ?_⟩
  rintro ⟨i, hi, hearliest⟩
  rw [(hevicted i).1 hi, hidx] at hearliest
  obtain ⟨grp, hgrp, hfirst⟩ := hearliest
  cases hgrp
  exact absurd (hfirst ⟨31, by decide⟩ _ rfl) (by decide)

end Rtp2httpd
