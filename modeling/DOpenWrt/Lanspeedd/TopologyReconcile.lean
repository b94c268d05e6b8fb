import DOpenWrt.Lanspeedd.Topology

/-!
# One reconciliation

What `reconcile` selects for a key (`mem_sortedValues`, `rank_le_of_sortedValues`), when it trusts it
(`observedExclusive_spec`) and how it numbers what it does not keep (`reconcileKeys_spec`).
-/

namespace Lanspeedd

/-! ### The observations of a key -/

section Destutter

variable {α : Type*} [DecidableEq α]

theorem mem_destutter'_ne {a b : α} {l : List α} (h : a ∈ b :: l) : a ∈ l.destutter' (· ≠ ·) b := by
  induction l generalizing b with
  | nil => exact h
  | cons c l ih =>
    rcases eq_or_ne b c with rfl | hne
    · rw [List.destutter'_cons_neg _ (by simp)]
      exact ih (by simpa using h)
    · rw [List.destutter'_cons_pos _ hne]
      rcases List.mem_cons.1 h with rfl | h
      · exact List.mem_cons_self
      · exact List.mem_cons_of_mem _ (ih h)

theorem mem_destutter_ne {a : α} {l : List α} : a ∈ l.destutter (· ≠ ·) ↔ a ∈ l := by
  refine ⟨fun h => (List.destutter_sublist _ l).subset h, fun h => ?_⟩
  cases l with
  | nil => exact h
  | cons b l => exact mem_destutter'_ne h

end Destutter

variable {grouped values : List AttachmentObservation} {key : AttachmentKey} {selected o : AttachmentObservation}
  {previous : AttachmentKey → Option Attachment} {last : ℕ}

theorem mem_sortedValues : o ∈ sortedValues grouped key ↔ o ∈ grouped ∧ o.key = key := by
  rw [sortedValues, mem_destutter_ne, List.mem_insertionSort, List.mem_filter, decide_eq_true_eq]

theorem rank_le_of_sortedValues (h : sortedValues grouped key = selected :: values) (ho : o ∈ grouped)
    (hk : o.key = key) : selected.rank ≤ o.rank := by
  have hsort : (sortedValues grouped key).Pairwise fun a b => a.rank ≤ b.rank := by
    have : IsTrans AttachmentObservation fun a b => a.rank ≤ b.rank := ⟨fun _ _ _ => le_trans⟩
    have : Std.Total fun a b : AttachmentObservation => a.rank ≤ b.rank := ⟨fun _ _ => le_total _ _⟩
    exact (List.pairwise_insertionSort (fun a b : AttachmentObservation => a.rank ≤ b.rank) _).sublist
      (List.destutter_sublist _ _)
  have hmem : o ∈ selected :: values := h ▸ mem_sortedValues.2 ⟨ho, hk⟩
  rw [h] at hsort
  rcases List.mem_cons.1 hmem with rfl | hmem
  · exact le_rfl
  · exact List.rel_of_pairwise_cons hsort hmem

/-- The observation that `reconcile` takes for a key. -/
structure Selects (grouped : List AttachmentObservation) (key : AttachmentKey) (selected : AttachmentObservation) :
    Prop where
  mem : selected ∈ grouped
  key_eq : selected.key = key
  rank_le : ∀ o ∈ grouped, o.key = key → selected.rank ≤ o.rank

theorem selects_of_sortedValues (h : sortedValues grouped key = selected :: values) : Selects grouped key selected := by
  obtain ⟨hmem, hk⟩ := mem_sortedValues.1 (h ▸ List.mem_cons_self : selected ∈ sortedValues grouped key)
  exact ⟨hmem, hk, fun o ho hk => rank_le_of_sortedValues h ho hk⟩

theorem isAmbiguous_eq_false (h : sortedValues grouped key = selected :: values) :
    isAmbiguous selected (selected :: values) = false ↔
      ∀ o ∈ grouped, o.key = key → o.point.ifindex = selected.point.ifindex := by
  rw [← h, isAmbiguous, List.any_eq_false]
  constructor
  · intro hall o ho hk
    simpa using hall o (mem_sortedValues.2 ⟨ho, hk⟩)
  · intro hall o ho
    simpa using hall o (mem_sortedValues.1 ho).1 (mem_sortedValues.1 ho).2

theorem selectedFresh_eq (h : sortedValues grouped key = selected :: values) :
    selectedFresh selected (selected :: values) = grouped.any fun o => o.key = key &&
      (o.point.kind = selected.point.kind && o.point.ifindex = selected.point.ifindex && o.freshFrame) := by
  rw [← h, selectedFresh, Bool.eq_iff_iff, List.any_eq_true, List.any_eq_true]
  constructor
  · rintro ⟨o, ho, hp⟩
    obtain ⟨hmem, hk⟩ := mem_sortedValues.1 ho
    exact ⟨o, hmem, by simpa [hk] using hp⟩
  · rintro ⟨o, ho, hp⟩
    rw [Bool.and_eq_true, decide_eq_true_eq] at hp
    exact ⟨o, mem_sortedValues.2 ⟨ho, hp.1⟩, hp.2⟩

/-! ### Trust -/

theorem card_occupancy_le_one (hmem : selected ∈ grouped) (hkind : selected.point.kind = .ethernet) :
    (occupancy grouped selected.point.ifindex).card ≤ 1 ↔
      ∀ o ∈ grouped, o.point.kind = .ethernet → o.point.ifindex = selected.point.ifindex → o.tuple = selected.tuple := by
  have hocc : ∀ t, t ∈ occupancy grouped selected.point.ifindex ↔
      ∃ o ∈ grouped, (o.point.kind = .ethernet ∧ o.point.ifindex = selected.point.ifindex) ∧ o.tuple = t := by
    intro t
    simp only [occupancy, List.mem_toFinset, List.mem_map, List.mem_filter, Bool.and_eq_true, decide_eq_true_eq,
      and_assoc]
  rw [Finset.card_le_one]
  constructor
  · intro h o ho hk hi
    exact h _ ((hocc _).2 ⟨o, ho, ⟨hk, hi⟩, rfl⟩) _ ((hocc _).2 ⟨selected, hmem, ⟨hkind, rfl⟩, rfl⟩)
  · intro h t ht t' ht'
    obtain ⟨o, ho, ⟨hk, hi⟩, rfl⟩ := (hocc t).1 ht
    obtain ⟨o', ho', ⟨hk', hi'⟩, rfl⟩ := (hocc t').1 ht'
    rw [h o ho hk hi, h o' ho' hk' hi']

theorem attachmentTrust_exclusive {ambiguous : Bool} (hmem : selected ∈ grouped) :
    attachmentTrust selected ambiguous (occupancy grouped) = .observedExclusive ↔
      ambiguous = false ∧ selected.point.kind = .ethernet ∧ selected.providerComplete = true ∧
        ∀ o ∈ grouped, o.point.kind = .ethernet → o.point.ifindex = selected.point.ifindex →
          o.tuple = selected.tuple := by
  cases hk : selected.point.kind with
  | wifi => cases ambiguous <;> cases hd : selected.directClient <;> simp [attachmentTrust, hk, hd]
  | ethernet =>
    rw [← card_occupancy_le_one hmem hk]
    cases ambiguous <;> cases hp : selected.providerComplete <;> simp [attachmentTrust, hk, hp]

theorem attachmentTrust_station {ambiguous : Bool} {occ : ℕ → Finset (Option ℕ × Option ℕ × Vector UInt8 6)} :
    attachmentTrust selected ambiguous occ = .associatedStation ↔
      ambiguous = false ∧ selected.point.kind = .wifi ∧ selected.directClient = true := by
  cases hk : selected.point.kind with
  | wifi => cases ambiguous <;> cases hd : selected.directClient <;> simp [attachmentTrust, hk, hd]
  | ethernet =>
    cases ambiguous <;> cases hp : selected.providerComplete <;> simp [attachmentTrust, hk, hp]
    split <;> simp

/-! ### Numbering -/

/-- The attachment that was active with the same point, trust, source generation and ambiguity. -/
def Keeps (previous : AttachmentKey → Option Attachment) (a old : Attachment) : Prop :=
  previous a.key = some old ∧ old.point = a.point ∧ old.trust = a.trust ∧ old.sourceGeneration = a.sourceGeneration ∧
    old.ambiguous = a.ambiguous

/-- What the loop makes of one key. -/
structure Reconciled (previous : AttachmentKey → Option Attachment) (grouped : List AttachmentObservation) (last : ℕ)
    (a : Attachment) (isNew : Bool) : Prop where
  selects : ∃ selected, Selects grouped a.key selected ∧ selected.point = a.point ∧
    a.trust = attachmentTrust selected a.ambiguous (occupancy grouped)
  ambiguous_eq : a.ambiguous = false ↔ ∀ o ∈ grouped, o.key = a.key → o.point.ifindex = a.point.ifindex
  kept : isNew = false → ∃ old, Keeps previous a old ∧ a.generation = old.generation ∧
    a.stableObservations = saturatingAddU32 old.stableObservations (if grouped.any (fun o => o.key = a.key &&
      (o.point.kind = a.point.kind && o.point.ifindex = a.point.ifindex && o.freshFrame)) then 1 else 0)
  added : isNew = true → (∀ old, ¬ Keeps previous a old) ∧ a.generation = saturatingAdd last 1 ∧
    a.stableObservations = if grouped.any (fun o => o.key = a.key &&
      (o.point.kind = a.point.kind && o.point.ifindex = a.point.ifindex && o.freshFrame)) then 1 else 0

theorem reconcileKey_spec (previous : AttachmentKey → Option Attachment) (last : ℕ)
    (h : sortedValues grouped key = selected :: values) :
    Reconciled previous grouped last (reconcileKey previous grouped last key selected (selected :: values)).1
        (reconcileKey previous grouped last key selected (selected :: values)).2 ∧
      (reconcileKey previous grouped last key selected (selected :: values)).1.key = key := by
  have hfresh := selectedFresh_eq h
  have hamb := isAmbiguous_eq_false h
  have hsel := selects_of_sortedValues h
  simp only [reconcileKey, hfresh]
  split
  next old hold =>
    obtain ⟨hprev, hmat⟩ := Option.filter_eq_some_iff.1 hold
    simp only [Attachment.materialMatches, Bool.and_eq_true, decide_eq_true_eq] at hmat
    obtain ⟨⟨⟨hp, ht⟩, hs⟩, ha⟩ := hmat
    exact ⟨⟨⟨selected, hsel, rfl, rfl⟩, hamb, fun _ => ⟨old, ⟨hprev, hp, ht, hs, ha⟩, rfl, rfl⟩,
      fun h => by cases h⟩, rfl⟩
  next hnone =>
    refine ⟨⟨⟨selected, hsel, rfl, rfl⟩, hamb, (fun h => by cases h), fun _ => ⟨?_, rfl, rfl⟩⟩, rfl⟩
    rintro old ⟨hprev, hp, ht, hs, ha⟩
    rw [Option.filter_eq_none_iff] at hnone
    exact hnone old hprev (by simp only [Attachment.materialMatches, hp, ht, hs, ha, decide_true, Bool.and_self])

/-- What the loop makes of all keys: the numbers grow along the keys, from the last one on. -/
structure Numbered (previous : AttachmentKey → Option Attachment) (grouped : List AttachmentObservation) (last : ℕ)
    (keys : List AttachmentKey) (r : List Attachment × List AttachmentKey × ℕ) : Prop where
  le : last ≤ r.2.2
  mem_keys : ∀ a ∈ r.1, a.key ∈ keys
  changed_sub : ∀ k ∈ r.2.1, ∃ a ∈ r.1, a.key = k
  total : ∀ k ∈ keys, (∃ o ∈ grouped, o.key = k) → ∃ a ∈ r.1, a.key = k
  each : ∀ a ∈ r.1, ∃ l, last ≤ l ∧ Reconciled previous grouped l a (a.key ∈ r.2.1) ∧
    (a.key ∈ r.2.1 → a.generation = l + 1 ∧ l + 1 ≤ r.2.2)
  ordered : r.1.Pairwise fun a b => a.key ∈ r.2.1 → b.key ∈ r.2.1 → a.generation < b.generation

theorem saturatingAdd_one_of_lt {n : ℕ} (h : saturatingAdd n 1 < u64Max) : saturatingAdd n 1 = n + 1 := by
  rw [saturatingAdd] at h ⊢
  omega

theorem Numbered.cons {keys : List AttachmentKey} {a : Attachment} {isNew : Bool}
    {r : List Attachment × List AttachmentKey × ℕ} (hkey : a.key ∉ keys) (hlt : r.2.2 < u64Max)
    (hspec : Reconciled previous grouped last a isNew)
    (h : Numbered previous grouped (if isNew then saturatingAdd last 1 else last) keys r) :
    Numbered previous grouped last (a.key :: keys)
      (a :: r.1, if isNew then a.key :: r.2.1 else r.2.1, r.2.2) := by
  have hfresh : a.key ∉ r.2.1 := by
    intro hmem
    obtain ⟨b, hb, hbk⟩ := h.changed_sub _ hmem
    exact hkey (hbk ▸ h.mem_keys b hb)
  have hlast : last ≤ (if isNew then saturatingAdd last 1 else last) ∧
      (isNew = true → saturatingAdd last 1 = last + 1 ∧ last + 1 ≤ r.2.2) := by
    have hle := h.le
    cases isNew with
    | false => exact ⟨le_rfl, nofun⟩
    | true =>
      simp only [if_true] at hle ⊢
      have := saturatingAdd_one_of_lt (lt_of_le_of_lt hle hlt)
      exact ⟨by omega, fun _ => by omega⟩
  have hmem : ∀ k, k ∈ (if isNew then a.key :: r.2.1 else r.2.1) ↔ isNew = true ∧ k = a.key ∨ k ∈ r.2.1 := by
    intro k
    cases isNew <;> simp
  have hself : a.key ∈ (if isNew then a.key :: r.2.1 else r.2.1) ↔ isNew = true := by simp [hmem, hfresh]
  have htail : ∀ b ∈ r.1, b.key ∈ (if isNew then a.key :: r.2.1 else r.2.1) ↔ b.key ∈ r.2.1 := by
    intro b hb
    have : b.key ≠ a.key := fun he => hkey (he ▸ h.mem_keys b hb)
    simp [hmem, this]
  refine ⟨hlast.1.trans h.le, ?_, ?_, ?_, ?_, ?_⟩
  · intro b hb
    rcases List.mem_cons.1 hb with rfl | hb
    · exact List.mem_cons_self
    · exact List.mem_cons_of_mem _ (h.mem_keys b hb)
  · intro k hk
    rcases (hmem k).1 hk with ⟨-, rfl⟩ | hk
    · exact ⟨a, List.mem_cons_self, rfl⟩
    · obtain ⟨b, hb, hbk⟩ := h.changed_sub k hk
      exact ⟨b, List.mem_cons_of_mem _ hb, hbk⟩
  · intro k hk ho
    rcases List.mem_cons.1 hk with rfl | hk
    · exact ⟨a, List.mem_cons_self, rfl⟩
    · obtain ⟨b, hb, hbk⟩ := h.total k hk ho
      exact ⟨b, List.mem_cons_of_mem _ hb, hbk⟩
  · intro b hb
    rcases List.mem_cons.1 hb with rfl | hb
    · refine ⟨last, le_rfl, ?_, fun hn => ?_⟩
      · simpa only [hself, Bool.decide_eq_true] using hspec
      · obtain ⟨heq, hle⟩ := hlast.2 (hself.1 hn)
        exact ⟨by rw [(hspec.added (hself.1 hn)).2.1, heq], hle⟩
    · obtain ⟨l, hl, hrec, hgen⟩ := h.each b hb
      refine ⟨l, hlast.1.trans hl, ?_, fun hn => hgen ((htail b hb).1 hn)⟩
      simpa only [htail b hb] using hrec
  · refine List.pairwise_cons.2 ⟨fun b hb hna hnb => ?_, ?_⟩
    · obtain ⟨l, hl, -, hgen⟩ := h.each b hb
      have hnew := hself.1 hna
      obtain ⟨heq, -⟩ := hlast.2 hnew
      rw [(hspec.added hnew).2.1, (hgen ((htail b hb).1 hnb)).1]
      rw [if_pos hnew] at hl
      omega
    · exact h.ordered.imp_of_mem fun hb hc hbc hn hn' => hbc ((htail _ hb).1 hn) ((htail _ hc).1 hn')

theorem reconcileKeys_numbered {keys : List AttachmentKey} (hnodup : keys.Nodup)
    (hlt : (reconcileKeys previous grouped last keys).2.2 < u64Max) :
    Numbered previous grouped last keys (reconcileKeys previous grouped last keys) := by
  induction keys generalizing last with
  | nil => exact ⟨le_rfl, nofun, nofun, nofun, nofun, List.Pairwise.nil⟩
  | cons key keys ih =>
    obtain ⟨hkey, hkeys⟩ := List.nodup_cons.1 hnodup
    rw [reconcileKeys] at hlt ⊢
    cases hv : sortedValues grouped key with
    | nil =>
      simp only [hv] at hlt ⊢
      have h := ih hkeys hlt
      refine ⟨h.le, fun a ha => List.mem_cons_of_mem _ (h.mem_keys a ha), h.changed_sub, ?_, h.each, h.ordered⟩
      rintro k hk ⟨o, ho, rfl⟩
      rcases List.mem_cons.1 hk with rfl | hk
      · have : o ∈ sortedValues grouped o.key := mem_sortedValues.2 ⟨ho, rfl⟩
        rw [hv] at this
        cases this
      · exact h.total _ hk ⟨o, ho, rfl⟩
    | cons selected values =>
      simp only [hv] at hlt ⊢
      have hspec := reconcileKey_spec previous last hv
      generalize reconcileKey previous grouped last key selected (selected :: values) = r at hspec hlt ⊢
      obtain ⟨hrec, rfl⟩ := hspec
      exact Numbered.cons hkey hlt hrec (ih hkeys hlt)

end Lanspeedd
