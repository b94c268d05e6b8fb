import DOpenWrt.Lib.SlotTable
import DOpenWrt.Rtp2httpd.RtpFecEviction

/-!
# The cached end

`min_end_seq` is the end that `base_seq` will pass first among the active groups, and `flush_consecutive` looks at it
before it looks at the groups. It is kept by comparisons of signed differences, so it is the smallest end where the
ends compared lie within half the circle of sequence numbers.
-/

namespace Rtp2httpd
open Serial SlotTable

variable {w : Window} {ctx ctx' : FecContext} {r : RtpReorder w} {heap : Heap} {i : Fin fecMaxGroups}
  {grp : FecGroup}

/-- The ends of the active groups. -/
def activeEnds (ctx : FecContext) : Set (BitVec 16) := {e | ∃ i grp, ctx.groups i = some grp ∧ grp.endSeq = e}

def activeGroups (ctx : FecContext) : Nat := tally (fun _ _ => true) ctx.groups

/-- The cache is set if and only if a group is active, and it is then the smallest end. -/
structure EndCached (ctx : FecContext) : Prop where
  valid : ctx.minEndSeqValid ↔ (activeEnds ctx).Nonempty
  earliest : ctx.minEndSeqValid → IsEarliest (activeEnds ctx) ctx.minEndSeq

theorem activeEnds_congr (h : ctx'.groups = ctx.groups) : activeEnds ctx' = activeEnds ctx := by
  unfold activeEnds
  rw [h]

/-- A group is put into slot `i`. -/
theorem activeEnds_update (h : ctx'.groups = Function.update ctx.groups i (some grp)) :
    activeEnds ctx' ⊆ insert grp.endSeq (activeEnds ctx) ∧ grp.endSeq ∈ activeEnds ctx' := by
  constructor
  · rintro e ⟨j, old, hj, rfl⟩
    rw [h] at hj
    rcases eq_or_ne j i with rfl | hne
    · rw [Function.update_self] at hj
      cases hj
      exact Set.mem_insert _ _
    · rw [Function.update_of_ne hne] at hj
      exact Set.mem_insert_of_mem _ ⟨j, old, hj, rfl⟩
  · exact ⟨i, grp, by rw [h, Function.update_self], rfl⟩

/-- A group is put into a slot that was empty. -/
theorem activeEnds_fill (h : ctx'.groups = Function.update ctx.groups i (some grp)) (hi : ctx.groups i = none) :
    activeEnds ctx' = insert grp.endSeq (activeEnds ctx) := by
  refine (activeEnds_update h).1.antisymm ?_
  rintro e (rfl | ⟨j, old, hj, rfl⟩)
  · exact (activeEnds_update h).2
  · have hne : j ≠ i := by
      rintro rfl
      rw [hi] at hj
      cases hj
    exact ⟨j, old, by rw [h, Function.update_of_ne hne, hj], rfl⟩

/-- A group is replaced by one with the same end. -/
theorem activeEnds_replace {grp' : FecGroup} (hi : ctx.groups i = some grp) (hend : grp'.endSeq = grp.endSeq) :
    activeEnds { ctx with groups := Function.update ctx.groups i (some grp') } = activeEnds ctx := by
  obtain ⟨hsub, hmem⟩ := @activeEnds_update ctx { ctx with groups := Function.update ctx.groups i (some grp') } i grp' rfl
  refine (hsub.trans ?_).antisymm ?_
  · rw [Set.insert_subset_iff]
    exact ⟨⟨i, grp, hi, hend.symm⟩, subset_rfl⟩
  · rintro e ⟨j, old, hj, rfl⟩
    rcases eq_or_ne j i with rfl | hne
    · obtain rfl := Option.some.inj (hi.symm.trans hj)
      rwa [← hend]
    · exact ⟨j, old, (Function.update_of_ne hne _ _).trans hj, rfl⟩

theorem tally_replace {grp' : FecGroup} (hi : ctx.groups i = some grp) :
    tally (fun _ _ => true) (Function.update ctx.groups i (some grp')) = tally (fun _ _ => true) ctx.groups := by
  have hclear := tally_clear (p := fun _ (_ : FecGroup) => true) hi
  have hfill := @tally_fill _ _ _ (fun _ (_ : FecGroup) => true) (Function.update ctx.groups i none) i _
    (Function.update_self ..) grp'
  rw [Function.update_idem] at hfill
  rw [hfill, hclear]

theorem fecStorePacket_endSeq {data : List UInt8} {hdr : FecPacketHeader} {grp' : FecGroup}
    (h : fecStorePacket heap grp data hdr = .ok grp') : grp'.endSeq = grp.endSeq := by
  unfold fecStorePacket at h
  split at h
  · split at h
    · cases h
      rfl
    · split at h
      · cases hbytes : bytesAt data hdr.fecDataOffset hdr.fecLen with
        | error e =>
          rw [hbytes] at h
          cases h
        | ok parity =>
          rw [hbytes] at h
          cases h
          rfl
      · cases h
        rfl
  · cases h

/-! ### `fec_recalc_min_end_seq` -/

/-- The cache after the slots `l` have been looked at. -/
structure Recalculated (ctx : FecContext) (l : List (Fin fecMaxGroups)) (c : FecContext) : Prop where
  groups : c.groups = ctx.groups
  groupCount : c.groupCount = ctx.groupCount
  valid : c.minEndSeqValid ↔ ∃ i ∈ l, (ctx.groups i).isSome
  earliest : c.minEndSeqValid →
    IsEarliest {e | ∃ i ∈ l, ∃ grp, ctx.groups i = some grp ∧ grp.endSeq = e} c.minEndSeq

theorem Recalculated.skip {l : List (Fin fecMaxGroups)} {c : FecContext} (h : Recalculated ctx l c)
    (hi : ctx.groups i = none) : Recalculated ctx (l ++ [i]) c := by
  have hsame : {e | ∃ j ∈ l ++ [i], ∃ grp, ctx.groups j = some grp ∧ grp.endSeq = e} =
      {e | ∃ j ∈ l, ∃ grp, ctx.groups j = some grp ∧ grp.endSeq = e} := by
    ext e
    simp [or_and_right, exists_or, hi]
  refine ⟨h.groups, h.groupCount, ?_, ?_⟩
  · rw [h.valid]
    simp [or_and_right, exists_or, hi]
  · rw [hsame]
    exact h.earliest

theorem Recalculated.compare {l : List (Fin fecMaxGroups)} {c : FecContext} (h : Recalculated ctx l c)
    (hc : HalfCircle (activeEnds ctx)) (hi : ctx.groups i = some grp) :
    Recalculated ctx (l ++ [i]) (if !c.minEndSeqValid ∨ sdiff grp.endSeq c.minEndSeq < 0 then
      { c with minEndSeq := grp.endSeq, minEndSeqValid := true } else c) := by
  have hseen : {e | ∃ j ∈ l ++ [i], ∃ grp, ctx.groups j = some grp ∧ grp.endSeq = e} =
      insert grp.endSeq {e | ∃ j ∈ l, ∃ grp, ctx.groups j = some grp ∧ grp.endSeq = e} := by
    ext e
    simp [or_and_right, exists_or, hi, or_comm, eq_comm]
  have hvalid : ∃ j ∈ l ++ [i], (ctx.groups j).isSome := ⟨i, by simp, by rw [hi]; rfl⟩
  have hhalf := hc.mono (t := insert grp.endSeq {e | ∃ j ∈ l, ∃ grp, ctx.groups j = some grp ∧ grp.endSeq = e})
    (by
      rintro e (rfl | ⟨j, -, old, hj, rfl⟩)
      · exact ⟨i, grp, hi, rfl⟩
      · exact ⟨j, old, hj, rfl⟩)
  cases hset : c.minEndSeqValid with
  | false =>
    have hnone : ¬ ∃ j ∈ l, (ctx.groups j).isSome := by
      rw [← h.valid, hset]
      exact Bool.false_ne_true
    have hempty : {e | ∃ j ∈ l, ∃ grp, ctx.groups j = some grp ∧ grp.endSeq = e} = ∅ := by
      refine Set.eq_empty_iff_forall_notMem.2 ?_
      rintro e ⟨j, hj, old, hold, -⟩
      exact hnone ⟨j, hj, by rw [hold]; rfl⟩
    rw [if_pos (by simp)]
    refine ⟨h.groups, h.groupCount, iff_of_true rfl hvalid, fun _ => ?_⟩
    rw [hseen, hempty]
    simpa using isEarliest_singleton grp.endSeq
  | true =>
    have hearliest := (h.earliest hset).insert hhalf
    split
    · next hlt =>
      refine ⟨h.groups, h.groupCount, iff_of_true rfl hvalid, fun _ => ?_⟩
      rw [hseen]
      rwa [if_pos (by simpa using hlt)] at hearliest
    · next hge =>
      refine ⟨h.groups, h.groupCount, iff_of_true hset hvalid, fun _ => ?_⟩
      rw [hseen]
      rwa [if_neg (by simpa using hge)] at hearliest

theorem fecRecalcMinEndSeq_recalculated (hc : HalfCircle (activeEnds ctx)) :
    Recalculated ctx (List.finRange fecMaxGroups) (fecRecalcMinEndSeq ctx) := by
  unfold fecRecalcMinEndSeq
  generalize List.finRange fecMaxGroups = l
  induction l using List.reverseRecOn with
  | nil => exact ⟨rfl, rfl, by simp, nofun⟩
  | append_singleton l i ih =>
    rw [List.foldl_append, List.foldl_cons, List.foldl_nil]
    generalize List.foldl _ _ l = c at ih ⊢
    rw [show c.groups i = ctx.groups i by rw [ih.groups]]
    cases hi : ctx.groups i with
    | none => exact ih.skip hi
    | some grp => exact ih.compare hc hi

theorem fecRecalcMinEndSeq_groupCount (ctx : FecContext) :
    (fecRecalcMinEndSeq ctx).groupCount = ctx.groupCount := by
  unfold fecRecalcMinEndSeq
  refine List.foldlRecOn (motive := fun c : FecContext => c.groupCount = ctx.groupCount) _ _ rfl fun c hc i _ => ?_
  split
  · exact hc
  · split <;> exact hc

theorem EndCached.recalc (hc : HalfCircle (activeEnds ctx)) : EndCached (fecRecalcMinEndSeq ctx) := by
  have h := fecRecalcMinEndSeq_recalculated hc
  have hends : {e | ∃ i ∈ List.finRange fecMaxGroups, ∃ grp, ctx.groups i = some grp ∧ grp.endSeq = e} =
      activeEnds (fecRecalcMinEndSeq ctx) := by
    rw [activeEnds_congr h.groups]
    simp [activeEnds]
  have hvalid := h.valid
  have hearliest := h.earliest
  rw [hends] at hearliest
  refine ⟨?_, hearliest⟩
  rw [hvalid, activeEnds_congr h.groups]
  constructor
  · rintro ⟨i, -, hi⟩
    obtain ⟨grp, hgrp⟩ := Option.isSome_iff_exists.1 hi
    exact ⟨_, i, grp, hgrp, rfl⟩
  · rintro ⟨e, i, grp, hgrp, -⟩
    exact ⟨i, List.mem_finRange i, by rw [hgrp]; rfl⟩

/-! ### The two calls -/

/-- What the calls keep: the cache is right, and `group_count` is the number of active groups. -/
structure ExpiryInv (ctx : FecContext) : Prop extends EndCached ctx where
  groupCount : ctx.groupCount = activeGroups ctx

theorem ExpiryInv.congr (h : ExpiryInv ctx) (hgroups : ctx'.groups = ctx.groups)
    (hcount : ctx'.groupCount = ctx.groupCount) (hmin : ctx'.minEndSeq = ctx.minEndSeq)
    (hvalid : ctx'.minEndSeqValid = ctx.minEndSeqValid) : ExpiryInv ctx' := by
  have hends := activeEnds_congr hgroups
  refine ⟨⟨?_, ?_⟩, ?_⟩
  · rw [hends, hvalid]
    exact h.valid
  · rw [hends, hvalid, hmin]
    exact h.earliest
  · rw [hcount, h.groupCount, activeGroups, activeGroups, hgroups]

theorem fecReleaseIfExpired_spec (baseSeq : BitVec 16) (s : FecContext × RtpReorder w) (i : Fin fecMaxGroups)
    (hcount : s.1.groupCount = activeGroups s.1) :
    (fecReleaseIfExpired baseSeq s i).1.groupCount = activeGroups (fecReleaseIfExpired baseSeq s i).1 ∧
      activeEnds (fecReleaseIfExpired baseSeq s i).1 ⊆ activeEnds s.1 := by
  unfold fecReleaseIfExpired
  split
  · exact ⟨hcount, subset_rfl⟩
  · next grp hi =>
    split
    · have hclear := tally_clear (p := fun _ (_ : FecGroup) => true) hi
      change activeGroups s.1 = _ + 1 at hclear
      constructor
      · show s.1.groupCount - 1 = ((tally (fun _ _ => true) (Function.update s.1.groups i none) : ℕ) : ℤ)
        omega
      · rintro e ⟨j, grp', hj, rfl⟩
        rcases eq_or_ne j i with rfl | hne
        · simp at hj
        · exact ⟨j, grp', by simpa [Function.update_of_ne hne] using hj, rfl⟩
    · exact ⟨hcount, subset_rfl⟩

theorem ExpiryInv.releaseExpired (h : ExpiryInv ctx) (r : RtpReorder w) (baseSeq : BitVec 16)
    (hc : HalfCircle (activeEnds ctx)) : ExpiryInv (fecReleaseExpiredGroups ctx r baseSeq).1 := by
  have hfold : ((List.finRange fecMaxGroups).foldl (fecReleaseIfExpired baseSeq) (ctx, r)).1.groupCount =
      activeGroups ((List.finRange fecMaxGroups).foldl (fecReleaseIfExpired baseSeq) (ctx, r)).1 ∧
      activeEnds ((List.finRange fecMaxGroups).foldl (fecReleaseIfExpired baseSeq) (ctx, r)).1 ⊆ activeEnds ctx := by
    refine List.foldlRecOn (motive := fun s : FecContext × RtpReorder w => s.1.groupCount = activeGroups s.1 ∧
      activeEnds s.1 ⊆ activeEnds ctx) _ _ ⟨h.groupCount, subset_rfl⟩ fun s hs i _ => ?_
    obtain ⟨hcount, hsub⟩ := fecReleaseIfExpired_spec baseSeq s i hs.1
    exact ⟨hcount, hsub.trans hs.2⟩
  unfold fecReleaseExpiredGroups
  generalize (List.finRange fecMaxGroups).foldl (fecReleaseIfExpired baseSeq) (ctx, r) = s at hfold
  refine ⟨EndCached.recalc (hc.mono hfold.2), ?_⟩
  show (fecRecalcMinEndSeq s.1).groupCount = activeGroups (fecRecalcMinEndSeq s.1)
  rw [fecRecalcMinEndSeq_groupCount, hfold.1, activeGroups, activeGroups, fecRecalcMinEndSeq_groups]

/-- The slot for a new group was empty, or its group is evicted and taken off the count. -/
theorem fecNewSlot_cases (ctx : FecContext) (r : RtpReorder w) (beginSeq : BitVec 16) :
    (fecNewSlot ctx r beginSeq).evicted = false ∧ ctx.groups (fecNewSlot ctx r beginSeq).idx = none ∧
      (fecNewSlot ctx r beginSeq).groupCount = ctx.groupCount ∨
    (fecNewSlot ctx r beginSeq).evicted = true ∧ (ctx.groups (fecNewSlot ctx r beginSeq).idx).isSome ∧
      (fecNewSlot ctx r beginSeq).groupCount = ctx.groupCount - 1 := by
  unfold fecNewSlot
  split
  · next i hi =>
    refine .inl ⟨rfl, ?_, rfl⟩
    simpa using List.find?_some hi
  · next hfull =>
    have hfull : ∀ i, (ctx.groups i).isSome := fun i => by
      have := List.find?_eq_none.1 hfull i (List.mem_finRange i)
      simpa [Option.isSome_iff_ne_none] using this
    right
    dsimp only
    split
    · exact ⟨rfl, hfull _, rfl⟩
    · exact ⟨rfl, hfull _, rfl⟩

/-- A new group is put into its slot, and the cache is updated. -/
theorem ExpiryInv.create (h : ExpiryInv ctx) (r : RtpReorder w) (grp : FecGroup) (ctx₁ : FecContext)
    (hgroups : ctx₁.groups = Function.update ctx.groups (fecNewSlot ctx r grp.beginSeq).idx (some grp))
    (hcount : ctx₁.groupCount = (fecNewSlot ctx r grp.beginSeq).groupCount + 1)
    (hmin : ctx₁.minEndSeq = ctx.minEndSeq) (hvalid : ctx₁.minEndSeqValid = ctx.minEndSeqValid)
    (hc : HalfCircle (activeEnds ctx ∪ activeEnds ctx₁)) :
    ExpiryInv (if !ctx₁.minEndSeqValid ∨ sdiff grp.endSeq ctx₁.minEndSeq < 0 then
        { ctx₁ with minEndSeq := grp.endSeq, minEndSeqValid := true }
      else if (fecNewSlot ctx r grp.beginSeq).evicted then fecRecalcMinEndSeq ctx₁ else ctx₁) := by
  obtain ⟨hsub, hmem⟩ := activeEnds_update hgroups
  have hactive : ctx₁.groupCount = activeGroups ctx₁ := by
    have hold := h.groupCount
    unfold activeGroups at hold ⊢
    rw [hcount, hgroups]
    rcases fecNewSlot_cases ctx r grp.beginSeq with ⟨-, hfree, hc⟩ | ⟨-, htaken, hc⟩
    · have := tally_fill (p := fun _ (_ : FecGroup) => true) hfree grp
      rw [if_pos rfl] at this
      omega
    · obtain ⟨old, hgrp⟩ := Option.isSome_iff_exists.1 htaken
      have hclear := tally_clear (p := fun _ (_ : FecGroup) => true) hgrp
      have hfill := @tally_fill _ _ _ (fun _ (_ : FecGroup) => true)
        (Function.update ctx.groups (fecNewSlot ctx r grp.beginSeq).idx none) (fecNewSlot ctx r grp.beginSeq).idx _
        (Function.update_self ..) grp
      rw [Function.update_idem, if_pos rfl] at hfill
      rw [if_pos rfl] at hclear
      omega
  rw [hmin, hvalid]
  cases hset : ctx.minEndSeqValid with
  | false =>
    have hnone : activeEnds ctx = ∅ := by
      refine Set.not_nonempty_iff_eq_empty.1 fun hne => ?_
      have := h.valid.2 hne
      rw [hset] at this
      cases this
    rw [if_pos (by simp)]
    refine ⟨⟨iff_of_true rfl ⟨_, hmem⟩, fun _ => ?_⟩, hactive⟩
    refine (isEarliest_singleton grp.endSeq).subset ?_ hmem
    rw [hnone, insert_empty_eq] at hsub
    exact hsub
  | true =>
    have hearliest := (h.earliest hset).insert (e := grp.endSeq) (hc.mono (by
      rintro e (rfl | he)
      · exact .inr hmem
      · exact .inl he))
    split
    · next hlt =>
      refine ⟨⟨iff_of_true rfl ⟨_, hmem⟩, fun _ => ?_⟩, hactive⟩
      rw [if_pos (by simpa using hlt)] at hearliest
      exact hearliest.subset hsub hmem
    · next hge =>
      rw [if_neg (by simpa using hge)] at hearliest
      split
      · next hev =>
        refine ⟨EndCached.recalc (hc.mono Set.subset_union_right), ?_⟩
        rw [fecRecalcMinEndSeq_groupCount, hactive, activeGroups, activeGroups, fecRecalcMinEndSeq_groups]
      · next hev =>
        rcases fecNewSlot_cases ctx r grp.beginSeq with ⟨-, hfree, -⟩ | ⟨hev', -⟩
        · have hends := activeEnds_fill hgroups hfree
          refine ⟨⟨iff_of_true (hvalid.trans hset) ⟨_, hmem⟩, fun _ => ?_⟩, hactive⟩
          rw [hends, hmin]
          exact hearliest
        · exact absurd hev' hev

theorem ExpiryInv.findOrCreate (h : ExpiryInv ctx) (heap : Heap) (r : RtpReorder w) (beginSeq endSeq : BitVec 16) (k m rtpLen : Nat)
    (hheap : heap .fecSlots)
    (hc : HalfCircle (activeEnds ctx ∪ activeEnds (fecFindOrCreateGroup heap ctx r beginSeq endSeq k m rtpLen).1)) :
    ExpiryInv (fecFindOrCreateGroup heap ctx r beginSeq endSeq k m rtpLen).1 := by
  by_cases hlive : RangeExpired ctx r endSeq
  · unfold RangeExpired at hlive
    unfold fecFindOrCreateGroup
    rw [if_pos hlive]
    exact h
  · cases hfind : fecFindGroup ctx beginSeq endSeq with
    | some i =>
      unfold RangeExpired at hlive
      unfold fecFindOrCreateGroup
      rw [if_neg hlive, hfind]
      exact h
    | none =>
      have hgroups := fecFindOrCreateGroup_groups heap r k m rtpLen hfind hlive
      rw [if_pos hheap] at hgroups
      set ctx₁ : FecContext := { ctx with
        groups := Function.update ctx.groups (fecNewSlot ctx r beginSeq).idx
          (some ⟨beginSeq, endSeq, k, m, rtpLen, 0, fun _ => none⟩)
        groupCount := (fecNewSlot ctx r beginSeq).groupCount + 1 } with hctx₁
      have hends : activeEnds (fecFindOrCreateGroup heap ctx r beginSeq endSeq k m rtpLen).1 = activeEnds ctx₁ :=
        activeEnds_congr hgroups
      rw [hends] at hc
      unfold RangeExpired at hlive
      unfold fecFindOrCreateGroup
      rw [if_neg hlive, hfind]
      dsimp only
      rw [if_pos hheap]
      exact h.create r ⟨beginSeq, endSeq, k, m, rtpLen, 0, fun _ => none⟩ ctx₁ rfl rfl rfl rfl hc

theorem ExpiryInv.processPacket (h : ExpiryInv ctx) (r : RtpReorder w) (data : List UInt8) (hheap : heap .fecSlots)
    {r' : RtpReorder w} {res : Int} (hrun : fecProcessPacket heap ctx r data = .ok (ctx', r', res))
    (hc : HalfCircle (activeEnds ctx ∪ activeEnds ctx')) : ExpiryInv ctx' := by
  have hactive : ExpiryInv { ctx with fecActive := true } := h.congr rfl rfl rfl rfl
  have hcase := fecProcessPacket_cases heap ctx r data
  rw [hrun] at hcase
  generalize hout : Except.ok (ctx', r', res) = out at hcase
  cases hcase with
  | ignored =>
    cases hout
    exact h
  | @noGroup hdr _ _ hparse hgroup =>
    cases hout
    have := hactive.findOrCreate heap r hdr.beginSeq hdr.endSeq hdr.k hdr.m hdr.rtpLen hheap (by rwa [hgroup])
    rwa [hgroup] at this
  | @stored hdr ctx₁ r₁ i grp hparse _ hgroup hi =>
    cases hstore : fecStorePacket heap grp data hdr with
    | error e =>
      rw [hstore] at hout
      cases hout
    | ok grp' =>
      rw [hstore] at hout
      cases hout
      have hend := fecStorePacket_endSeq hstore
      have hends : activeEnds { ctx₁ with groups := Function.update ctx₁.groups i (some grp') } = activeEnds ctx₁ :=
        activeEnds_replace hi hend
      rw [hends] at hc
      have := hactive.findOrCreate heap r hdr.beginSeq hdr.endSeq hdr.k hdr.m hdr.rtpLen hheap
        (by rwa [hgroup])
      rw [hgroup] at this
      refine ⟨⟨?_, ?_⟩, ?_⟩
      · rw [hends]
        exact this.valid
      · rw [hends]
        exact this.earliest
      · show ctx₁.groupCount = ((tally (fun _ _ => true) (Function.update ctx₁.groups i (some grp')) : ℕ) : ℤ)
        rw [this.groupCount, activeGroups, tally_replace hi]

/-! ### Runs -/

/-- A call, with the ring as it is at that moment. -/
inductive FecCall (w : Window) where
  | processPacket (heap : Heap) (r : RtpReorder w) (data : List UInt8)
  | releaseExpiredGroups (r : RtpReorder w) (baseSeq : BitVec 16)

def fecCall (ctx : FecContext) : FecCall w → Except Fault FecContext
  | .processPacket heap r data => (fecProcessPacket heap ctx r data).map fun out => out.1
  | .releaseExpiredGroups r baseSeq => .ok (fecReleaseExpiredGroups ctx r baseSeq).1

/-- A group can be allocated if one is needed. -/
def FecCall.Allocates : FecCall w → Prop
  | .processPacket heap _ _ => heap .fecSlots
  | .releaseExpiredGroups _ _ => True

/-- The ends of the groups active before or after the call lie within half the circle. -/
def CallOk (ctx : FecContext) (call : FecCall w) : Prop :=
  call.Allocates ∧ ∀ ctx', fecCall ctx call = .ok ctx' → HalfCircle (activeEnds ctx ∪ activeEnds ctx')

theorem ExpiryInv.start (fecPort : BitVec 16) (attached : Bool) : ExpiryInv (fecInit fecPort attached) where
  valid := iff_of_false Bool.false_ne_true fun ⟨_, _, _, h, _⟩ => by cases h
  earliest h := by cases h
  groupCount := (congrArg Nat.cast (tally_empty _)).symm

theorem ExpiryInv.call (h : ExpiryInv ctx) {call : FecCall w} (hok : CallOk ctx call)
    (hrun : fecCall ctx call = .ok ctx') : ExpiryInv ctx' := by
  obtain ⟨halloc, hends⟩ := hok
  have hc := hends ctx' hrun
  cases call with
  | processPacket heap r data =>
    change (fecProcessPacket heap ctx r data).map (fun out => out.1) = _ at hrun
    cases hout : fecProcessPacket heap ctx r data with
    | error e =>
      rw [hout] at hrun
      cases hrun
    | ok out =>
      rw [hout] at hrun
      cases hrun
      exact h.processPacket r data halloc hout hc
  | releaseExpiredGroups r baseSeq =>
    cases hrun
    exact h.releaseExpired r baseSeq (hc.mono Set.subset_union_left)

/-- The test in `flush_consecutive` fires if and only if a group has expired. -/
theorem EndCached.passed_iff (h : EndCached ctx) {base : BitVec 16} (hc : HalfCircle (insert base (activeEnds ctx))) :
    (ctx.minEndSeqValid ∧ 0 < sdiff base ctx.minEndSeq) ↔ ∃ e ∈ activeEnds ctx, 0 < sdiff base e := by
  constructor
  · rintro ⟨hvalid, hpos⟩
    exact ((h.earliest hvalid).passed_iff hc).1 hpos
  · rintro ⟨e, he, hpos⟩
    have hvalid := h.valid.2 ⟨e, he⟩
    exact ⟨hvalid, ((h.earliest hvalid).passed_iff hc).2 ⟨e, he, hpos⟩⟩

/-- What the cache says at the end of a run, and what `flush_consecutive` makes of it. -/
structure ExpiryExact (w : Window) (ctx : FecContext) : Prop where
  valid : ctx.minEndSeqValid ↔ ∃ i, (ctx.groups i).isSome
  earliest : ctx.minEndSeqValid → IsEarliest (activeEnds ctx) ctx.minEndSeq
  groupCount : ctx.groupCount = activeGroups ctx
  due : ∀ s : Stream w, s.fec = some ctx → HalfCircle (insert s.r.baseSeq (activeEnds ctx)) →
    (∃ e ∈ activeEnds ctx, 0 < sdiff s.r.baseSeq e) → releaseExpired s = { s with
      fec := some (fecReleaseExpiredGroups ctx s.r s.r.baseSeq).1
      r := (fecReleaseExpiredGroups ctx s.r s.r.baseSeq).2 }
  notDue : ∀ s : Stream w, s.fec = some ctx → HalfCircle (insert s.r.baseSeq (activeEnds ctx)) →
    (∀ e ∈ activeEnds ctx, sdiff s.r.baseSeq e ≤ 0) → releaseExpired s = s

theorem ExpiryInv.exact (h : ExpiryInv ctx) : ExpiryExact w ctx where
  valid := by
    rw [h.valid]
    constructor
    · rintro ⟨_, i, grp, hgrp, -⟩
      exact ⟨i, by rw [hgrp]; rfl⟩
    · rintro ⟨i, hi⟩
      obtain ⟨grp, hgrp⟩ := Option.isSome_iff_exists.1 hi
      exact ⟨_, i, grp, hgrp, rfl⟩
  earliest := h.earliest
  groupCount := h.groupCount
  due s hfec hc hexp := by
    unfold Rtp2httpd.releaseExpired
    rw [hfec]
    dsimp only
    rw [if_pos ((h.passed_iff hc).2 hexp)]
  notDue s hfec hc hnone := by
    unfold Rtp2httpd.releaseExpired
    rw [hfec]
    dsimp only
    rw [if_neg]
    intro hpassed
    obtain ⟨e, he, hpos⟩ := (h.passed_iff hc).1 hpassed
    exact absurd (hnone e he) (not_le.2 hpos)

/-- In every run in which the ends of the groups before and after each call lie within half the circle, the cache and
the number of groups are right after every call, and a flush releases groups exactly when one has expired. -/
theorem fec_expiry_exact {fecPort : BitVec 16} {attached : Bool} {calls : List (FecCall w)} {ctx : FecContext}
    (h : Run.MeetsM fecCall CallOk (fecInit fecPort attached) calls)
    (hrun : calls.foldlM fecCall (fecInit fecPort attached) = .ok ctx) : ExpiryExact w ctx :=
  ExpiryInv.exact (h.invariant (fun _ _ _ hok hinv hcall => hinv.call hok hcall)
    (ExpiryInv.start fecPort attached) hrun)

/-- The ends of the active groups lie less than half the circle ahead of `lo`. -/
def EndsFrom (lo : BitVec 16) (ctx : FecContext) : Prop :=
  ∀ i, ∀ grp ∈ ctx.groups i, 2 * ahead grp.endSeq lo < 2 ^ 16

instance (lo : BitVec 16) (ctx : FecContext) : Decidable (EndsFrom lo ctx) :=
  inferInstanceAs (Decidable (∀ i, ∀ grp ∈ ctx.groups i, _))

instance : (call : FecCall w) → Decidable call.Allocates
  | .processPacket heap _ _ => inferInstanceAs (Decidable (heap .fecSlots = true))
  | .releaseExpiredGroups _ _ => inferInstanceAs (Decidable True)

/-- A call is in order if both states it lies between have their ends ahead of one number. -/
theorem callOk_of {lo : BitVec 16} {call : FecCall w} (halloc : call.Allocates) (hends : EndsFrom lo ctx)
    (hends' : (fecCall ctx call).map (fun ctx' => decide (EndsFrom lo ctx')) = .ok true) : CallOk ctx call := by
  refine ⟨halloc, fun ctx' hctx' => ⟨lo, ?_⟩⟩
  rw [hctx'] at hends'
  rintro e (⟨i, grp, hi, rfl⟩ | ⟨i, grp, hi, rfl⟩)
  · exact hends i grp hi
  · exact of_decide_eq_true (Except.ok.inj hends') i grp hi

/-- A parity packet for the single number `n`, when `base_seq` is `n`. -/
def parityAt (n : BitVec 16) : FecCall .large :=
  .processPacket (fun _ => true) { rtpReorderInit true with baseSeq := n } [0x80, 127, 0, 0, 0, 0, 0, 0, 0, 0, 0, 0,
    UInt8.ofNat (n.toNat / 256), UInt8.ofNat n.toNat, UInt8.ofNat (n.toNat / 256), UInt8.ofNat n.toNat,
    1, 0, 0, 0, 0, 12, 0, 0]

/-- 33 groups whose ends pass the largest sequence number, and then a release. -/
def wrappingCalls : List (FecCall .large) :=
  (List.range 33).map (fun n => parityAt (65000 + 100 * BitVec.ofNat 16 n)) ++
    [.releaseExpiredGroups (rtpReorderInit true) 514]

/-- The last group evicts the one that ends at 65000; the release takes the groups from 65100 to 464. -/
theorem fec_expiry_exact_wrapping :
    ((wrappingCalls.take 33).foldlM fecCall (fecInit 1 true)).map (fun ctx =>
      (ctx.groupCount, ctx.minEndSeqValid, ctx.minEndSeq)) = .ok (32, true, 65100) ∧
    ∃ ctx, wrappingCalls.foldlM fecCall (fecInit 1 true) = .ok ctx ∧
      (ctx.groupCount, ctx.minEndSeqValid, ctx.minEndSeq) = (22, true, 564) ∧ ExpiryExact .large ctx := by
  refine ⟨by decide +kernel, ?_⟩
  have hmeets : Run.MeetsM fecCall CallOk (fecInit 1 true) wrappingCalls :=
    Run.MeetsM.imp (fun ctx call h => callOk_of h.1 h.2.1 h.2.2)
      (by decide +kernel : Run.MeetsM fecCall (fun ctx call => call.Allocates ∧ EndsFrom 65000 ctx ∧
        (fecCall ctx call).map (fun ctx' => decide (EndsFrom 65000 ctx')) = .ok true) (fecInit 1 true) wrappingCalls)
  have hmap : (wrappingCalls.foldlM fecCall (fecInit 1 true)).map (fun ctx =>
      (ctx.groupCount, ctx.minEndSeqValid, ctx.minEndSeq)) = .ok (22, true, 564) := by decide +kernel
  cases hrun : wrappingCalls.foldlM fecCall (fecInit 1 true) with
  | error e =>
    rw [hrun] at hmap
    cases hmap
  | ok ctx =>
    rw [hrun] at hmap
    exact ⟨ctx, rfl, Except.ok.inj hmap, fec_expiry_exact hmeets hrun⟩

/-- The ends of the active groups are pairwise less than 2^15 apart. -/
def PairwiseClose (ctx : FecContext) : Prop :=
  ∀ i j, ∀ grp ∈ ctx.groups i, ∀ grp' ∈ ctx.groups j, |sdiff grp.endSeq grp'.endSeq| < 2 ^ 15

instance (ctx : FecContext) : Decidable (PairwiseClose ctx) :=
  inferInstanceAs (Decidable (∀ i j, ∀ grp ∈ ctx.groups i, ∀ grp' ∈ ctx.groups j, _))

/-- Groups that end at 0, 20000 and 40000: each end is before the next one, and the last before the first. -/
def cyclicEnds : List (FecCall .large) := [parityAt 0, parityAt 20000, parityAt 40000]

theorem cyclicEnds_not_earliest :
    (∀ n < 4, ∃ ctx, (cyclicEnds.take n).foldlM fecCall (fecInit 1 true) = .ok ctx ∧ PairwiseClose ctx) ∧
      ∃ ctx, cyclicEnds.foldlM fecCall (fecInit 1 true) = .ok ctx ∧ ctx.minEndSeqValid ∧
        ¬ IsEarliest (activeEnds ctx) ctx.minEndSeq := by
  constructor
  · have hmap : ∀ n < 4, ((cyclicEnds.take n).foldlM fecCall (fecInit 1 true)).map (fun ctx =>
        decide (PairwiseClose ctx)) = .ok true := by decide +kernel
    intro n hn
    have hmap := hmap n hn
    generalize (cyclicEnds.take n).foldlM fecCall (fecInit 1 true) = out at hmap
    cases out with
    | error e => cases hmap
    | ok ctx => exact ⟨ctx, rfl, of_decide_eq_true (Except.ok.inj hmap)⟩
  · have hmap : (cyclicEnds.foldlM fecCall (fecInit 1 true)).map (fun ctx => (ctx.minEndSeqValid, ctx.minEndSeq,
        (ctx.groups ⟨1, by decide⟩).map (·.endSeq))) = .ok (true, 40000, some 20000) := by decide +kernel
    generalize cyclicEnds.foldlM fecCall (fecInit 1 true) = out at hmap
    cases out with
    | error e => cases hmap
    | ok ctx =>
      have hmap := Except.ok.inj hmap
      simp only [Prod.mk.injEq, Option.map_eq_some_iff] at hmap
      obtain ⟨hvalid, hmin, grp, hgrp, hend⟩ := hmap
      refine ⟨ctx, rfl, hvalid, fun h => ?_⟩
      have := h.2 grp.endSeq ⟨_, grp, hgrp, rfl⟩
      rw [hmin, hend] at this
      exact absurd this (by decide)

end Rtp2httpd
