import DOpenWrt.Lib.SlotTable
import DOpenWrt.Rtp2httpd.RtpReorderWindow

/-!
# Delivering every packet once

With FEC a delivered packet stays in its slot, and only `base_seq` tells it from one that waits: the
packets in the window are those not delivered yet, and `count` is their number. Passing the slot of
`base_seq` keeps this up if the slot is empty or holds the packet numbered `base_seq`. The two loops do
not look at that number, so an old packet in the slot of a missing one is delivered again.
-/

namespace Rtp2httpd
open Serial SlotTable

variable {w : Window} {conn : Conn} {isSnapshot : Bool} {arrived : Nat} {buf : BufferRef}
  {r r' : RtpReorder w} {delivered : List Delivery}

/-- The packet that was delivered, if it came from the ring or is in it. -/
def Delivery.id? : Delivery → Option Nat
  | .packet _ _ buf => some buf.id
  | .raw _ held _ => held.map BufferRef.id

def deliveredIds (delivered : List Delivery) : List Nat := delivered.filterMap Delivery.id?

/-- The number of packets in the ring that have not been delivered. -/
def undelivered (r : RtpReorder w) (delivered : List Delivery) : Nat :=
  tally (fun _ buf => decide (buf.id ∉ deliveredIds delivered)) r.slots

/-- The packet in slot `i`, if there is one, is in the window. -/
def Near (r : RtpReorder w) (i : Fin w.size) : Prop := ahead (r.seq i) r.baseSeq < w.size

instance (r : RtpReorder w) : DecidablePred (Near r) := fun _ => inferInstanceAs (Decidable (_ < _))

/-- The packets in the window are the ones that were not delivered. -/
structure OnceInv (arrived : Nat) (r : RtpReorder w) (delivered : List Delivery) : Prop where
  placed : ∀ i buf, r.slots i = some buf → slotOf w (r.seq i) = i
  near_iff : ∀ i buf, r.slots i = some buf → (Near r i ↔ buf.id ∉ deliveredIds delivered)
  count : r.count.toNat = tally (fun i _ => decide (Near r i)) r.slots
  distinct : ∀ i j buf buf', r.slots i = some buf → r.slots j = some buf' → buf.id = buf'.id → i = j
  known : ∀ i buf, r.slots i = some buf → buf.id < arrived
  delivered_known : ∀ id ∈ deliveredIds delivered, id < arrived
  once : (deliveredIds delivered).Nodup

/-- `r'` is `r` with some slots emptied. -/
structure Shrunk (r r' : RtpReorder w) : Prop where
  slots : ∀ i buf, r'.slots i = some buf → r.slots i = some buf
  seq : r'.seq = r.seq

/-- What the release of old packets may do: packets in the window stay. -/
structure Released (r r' : RtpReorder w) : Prop extends Shrunk r r' where
  baseSeq : r'.baseSeq = r.baseSeq
  count : r'.count = r.count
  kept : ∀ i buf, r.slots i = some buf → Near r i → r'.slots i = some buf

/-- The slot of `base_seq` holds neither its own packet nor the one that comes into the window next. -/
def Vacant (r : RtpReorder w) : Prop :=
  (r.slots (slotOf w r.baseSeq)).isSome → r.seq (slotOf w r.baseSeq) ≠ r.baseSeq ∧
    r.seq (slotOf w r.baseSeq) ≠ r.baseSeq + BitVec.ofNat 16 w.size

instance (r : RtpReorder w) : Decidable (Vacant r) := inferInstanceAs (Decidable (_ → _ ∧ _))

/-- The packets other than `base_seq` and the one a window further are in the window before if and only
if they are in it after `base_seq` has moved on. -/
theorem near_succ {i : Fin w.size} (hseq : r'.seq = r.seq) (hbase : r'.baseSeq = r.baseSeq + 1)
    (hne : r.seq i ≠ r.baseSeq) (hne' : r.seq i ≠ r.baseSeq + BitVec.ofNat 16 w.size) : Near r' i ↔ Near r i := by
  have hfar : ahead (r.seq i) r.baseSeq ≠ w.size := by
    intro h
    rw [← h, add_ahead] at hne'
    exact hne' rfl
  have hpos : ahead (r.seq i) r.baseSeq ≠ 0 := fun h => hne (ahead_eq_zero.1 h)
  unfold Near
  rw [hseq, hbase, ahead_succ hne]
  omega

namespace OnceInv

variable (h : OnceInv arrived r delivered)
include h

theorem undelivered_eq : undelivered r delivered = r.count.toNat := by
  rw [h.count, undelivered]
  exact tally_congr fun i buf hi => by rw [decide_eq_decide, h.near_iff i buf hi]

/-- A packet in another slot than that of `base_seq` is not one that shares this slot. -/
theorem seq_ne_of_ne {i : Fin w.size} (hi : r.slots i = some buf) (hne : i ≠ slotOf w r.baseSeq) :
    r.seq i ≠ r.baseSeq ∧ r.seq i ≠ r.baseSeq + BitVec.ofNat 16 w.size := by
  have hplaced := h.placed i buf hi
  constructor
  · intro he
    rw [he] at hplaced
    exact hne hplaced.symm
  · intro he
    rw [he, slotOf_add_size] at hplaced
    exact hne hplaced.symm

theorem pass {delivered' : List Delivery} (hfree : Vacant r)
    (hids : deliveredIds delivered' = deliveredIds delivered) (hslots : r'.slots = r.slots)
    (hseq : r'.seq = r.seq) (hbase : r'.baseSeq = r.baseSeq + 1) (hcount : r'.count = r.count) :
    OnceInv arrived r' delivered' := by
  have hnear : ∀ i buf, r.slots i = some buf → (Near r' i ↔ Near r i) := by
    intro i buf hi
    rcases eq_or_ne i (slotOf w r.baseSeq) with rfl | hne
    · have := hfree (by rw [hi]; rfl)
      exact near_succ hseq hbase this.1 this.2
    · have := h.seq_ne_of_ne hi hne
      exact near_succ hseq hbase this.1 this.2
  constructor
  · rw [hslots, hseq]
    exact h.placed
  · intro i buf hi
    rw [hslots] at hi
    rw [hnear i buf hi, hids, h.near_iff i buf hi]
  · rw [hcount, hslots, h.count]
    exact tally_congr fun i buf hi => by rw [decide_eq_decide, hnear i buf hi]
  · rw [hslots]
    exact h.distinct
  · rw [hslots]
    exact h.known
  · rw [hids]
    exact h.delivered_known
  · rw [hids]
    exact h.once

/-- The packet numbered `base_seq` is delivered from its slot; it may stay there or not. -/
theorem deliver (hb : r.slots (slotOf w r.baseSeq) = some buf) (hown : r.seq (slotOf w r.baseSeq) = r.baseSeq)
    {delivered' : List Delivery} (hids : deliveredIds delivered' = deliveredIds delivered ++ [buf.id])
    (hslots : r'.slots = r.slots ∨ r'.slots = Function.update r.slots (slotOf w r.baseSeq) none)
    (hseq : r'.seq = r.seq) (hbase : r'.baseSeq = r.baseSeq + 1) (hcount : r'.count = r.count - 1) :
    OnceInv arrived r' delivered' := by
  set b := slotOf w r.baseSeq with hbdef
  have hnearb : Near r b := by
    unfold Near
    rw [hown, ahead_self]
    exact w.size_pos
  have hfarb : ¬ Near r' b := by
    have := w.size_le
    unfold Near
    rw [hseq, hbase, hown, ahead_succ_self (by decide)]
    omega
  have hnear : ∀ i buf, r.slots i = some buf → i ≠ b → (Near r' i ↔ Near r i) := by
    intro i buf hi hne
    have := h.seq_ne_of_ne hi hne
    exact near_succ hseq hbase this.1 this.2
  have hsub : ∀ i buf, r'.slots i = some buf → r.slots i = some buf := by
    intro i buf hi
    rcases hslots with hs | hs
    · rwa [hs] at hi
    · rw [hs] at hi
      rcases eq_or_ne i b with rfl | hne
      · simp at hi
      · rwa [Function.update_of_ne hne] at hi
  have hnew : buf.id ∉ deliveredIds delivered := (h.near_iff b buf hb).1 hnearb
  constructor
  · intro i c hi
    rw [hseq]
    exact h.placed i c (hsub i c hi)
  · intro i c hi
    have hi := hsub i c hi
    rw [hids, List.mem_append, List.mem_singleton]
    rcases eq_or_ne i b with rfl | hne
    · obtain rfl := Option.some.inj (hb.symm.trans hi)
      exact iff_of_false hfarb fun hn => hn (.inr rfl)
    · rw [hnear i c hi hne, h.near_iff i c hi]
      have hid : c.id ≠ buf.id := fun he => hne (h.distinct i b c buf hi hb he)
      simp [hid]
  · have hclear : tally (fun i _ => decide (Near r' i)) r'.slots =
        tally (fun i _ => decide (Near r' i)) r.slots := by
      rcases hslots with hs | hs
      · rw [hs]
      · rw [hs, tally_clear_of_not hb (by simpa using hfarb)]
    have hless := tally_succ_eq (p := fun i _ => decide (Near r i)) (q := fun i _ => decide (Near r' i)) hb
      (by simpa using hnearb) (by simpa using hfarb)
      fun i c hi hne => by rw [decide_eq_decide, hnear i c hi hne]
    rw [← h.count] at hless
    have hne : r.count ≠ 0 := by
      intro h0
      rw [h0] at hless
      cases hless
    rw [hcount, toNat_sub_one hne, hclear]
    omega
  · intro i j c c' hi hj
    exact h.distinct i j c c' (hsub i c hi) (hsub j c' hj)
  · intro i c hi
    exact h.known i c (hsub i c hi)
  · intro id hid
    rw [hids, List.mem_append, List.mem_singleton] at hid
    rcases hid with hid | rfl
    · exact h.delivered_known id hid
    · exact h.known b buf hb
  · rw [hids, List.nodup_append]
    refine ⟨h.once, by simp, ?_⟩
    rintro id hid _ hid' rfl
    rw [List.mem_singleton] at hid'
    exact hnew (hid' ▸ hid)

theorem released (hr : Released r r') : OnceInv arrived r' delivered := by
  have hnear : ∀ i, Near r' i ↔ Near r i := fun i => by rw [Near, Near, hr.seq, hr.baseSeq]
  constructor
  · intro i buf hi
    rw [hr.seq]
    exact h.placed i buf (hr.slots i buf hi)
  · intro i buf hi
    rw [hnear, h.near_iff i buf (hr.slots i buf hi)]
  · rw [hr.count, h.count]
    refine le_antisymm (tally_mono fun i buf hi hp => ?_) (tally_mono fun i buf hi hp => ?_)
    · rw [decide_eq_true_iff] at hp ⊢
      exact ⟨hr.kept i buf hi hp, (hnear i).2 hp⟩
    · rw [decide_eq_true_iff] at hp ⊢
      exact ⟨hr.slots i buf hi, (hnear i).1 hp⟩
  · intro i j buf buf' hi hj
    exact h.distinct i j buf buf' (hr.slots i buf hi) (hr.slots j buf' hj)
  · intro i buf hi
    exact h.known i buf (hr.slots i buf hi)
  · exact h.delivered_known
  · exact h.once

/-- A packet is stored in a free slot. -/
theorem storeSlot {seqn : BitVec 16} (hfree : r.slots (slotOf w seqn) = none)
    (hx : ahead seqn r.baseSeq < w.size) (hid : buf.id = arrived) :
    OnceInv (arrived + 1) (r.storeSlot buf seqn) delivered := by
  set i := slotOf w seqn with hi
  have hold : ∀ j c, r.slots j = some c → j ≠ i := by
    rintro j c hj rfl
    rw [hfree] at hj
    cases hj
  have hnear : ∀ j, j ≠ i → (Near (r.storeSlot buf seqn) j ↔ Near r j) := fun j hne => by
    rw [Near, Near, RtpReorder.storeSlot_seq, Function.update_of_ne hne, RtpReorder.storeSlot_baseSeq]
  have hneari : Near (r.storeSlot buf seqn) i := by
    rwa [Near, RtpReorder.storeSlot_seq, Function.update_self, RtpReorder.storeSlot_baseSeq]
  have hslots : ∀ j c, (r.storeSlot buf seqn).slots j = some c → j = i ∧ c = buf ∨ j ≠ i ∧ r.slots j = some c := by
    intro j c hj
    rw [RtpReorder.storeSlot_slots] at hj
    rcases eq_or_ne j i with rfl | hne
    · rw [Function.update_self] at hj
      exact .inl ⟨Eq.refl _, (Option.some.inj hj).symm⟩
    · rw [Function.update_of_ne hne] at hj
      exact .inr ⟨hne, hj⟩
  constructor
  · intro j c hj
    rw [RtpReorder.storeSlot_seq]
    rcases hslots j c hj with ⟨rfl, -⟩ | ⟨hne, hj⟩
    · rw [Function.update_self]
    · rw [Function.update_of_ne hne, h.placed j c hj]
  · intro j c hj
    rcases hslots j c hj with ⟨rfl, rfl⟩ | ⟨hne, hj⟩
    · refine iff_of_true hneari fun hmem => ?_
      have := h.delivered_known _ hmem
      omega
    · rw [hnear j hne, h.near_iff j c hj]
  · have hfill := tally_fill (p := fun j _ => decide (Near (r.storeSlot buf seqn) j)) hfree buf
    rw [if_pos (by simpa using hneari)] at hfill
    have hrest : tally (fun j _ => decide (Near (r.storeSlot buf seqn) j)) r.slots = r.count.toNat := by
      rw [h.count]
      exact tally_congr fun j c hj => by rw [decide_eq_decide, hnear j (hold j c hj)]
    have hle : tally (fun j _ => decide (Near r j)) r.slots ≤ Fintype.card (Fin w.size) := tally_le
    rw [← h.count, Fintype.card_fin] at hle
    have := w.size_le
    rw [RtpReorder.storeSlot_slots, hfill, hrest, RtpReorder.storeSlot_count, toNat_add_one (by omega)]
  · intro j k c c' hj hk hcc
    rcases hslots j c hj with ⟨rfl, rfl⟩ | ⟨-, hj'⟩ <;> rcases hslots k c' hk with ⟨rfl, rfl⟩ | ⟨-, hk'⟩
    · exact Eq.refl _
    · have := h.known k c' hk'
      omega
    · have := h.known j c hj'
      omega
    · exact h.distinct j k c c' hj' hk' hcc
  · intro j c hj
    rcases hslots j c hj with ⟨rfl, rfl⟩ | ⟨hne, hj⟩
    · omega
    · have := h.known j c hj
      omega
  · intro id hmem
    have := h.delivered_known id hmem
    omega
  · exact h.once

/-- An arrival that stores nothing. -/
theorem arrive : OnceInv (arrived + 1) r delivered where
  placed := h.placed
  near_iff := h.near_iff
  count := h.count
  distinct := h.distinct
  known i buf hi := Nat.lt_succ_of_lt (h.known i buf hi)
  delivered_known id hid := Nat.lt_succ_of_lt (h.delivered_known id hid)
  once := h.once

end OnceInv

/-! ### Releasing old packets -/

/-- With `base_seq` at `base` no packet in the range is in the window. -/
def NoneWaiting (r : RtpReorder w) (base beginSeq endSeq : BitVec 16) : Prop :=
  ∀ i, (r.slots i).isSome → ahead (r.seq i) beginSeq ≤ ahead endSeq beginSeq → w.size ≤ ahead (r.seq i) base

instance (r : RtpReorder w) (base beginSeq endSeq : BitVec 16) : Decidable (NoneWaiting r base beginSeq endSeq) :=
  inferInstanceAs (Decidable (∀ _, _ → _ → _))

theorem NoneWaiting.shrunk {base beginSeq endSeq : BitVec 16} (h : NoneWaiting r base beginSeq endSeq)
    (hr : Shrunk r r') : NoneWaiting r' base beginSeq endSeq := by
  intro i hi
  obtain ⟨buf, hb⟩ := Option.isSome_iff_exists.1 hi
  rw [hr.seq]
  exact h i (by rw [hr.slots i buf hb]; rfl)

namespace Released

theorem rfl : Released r r := ⟨⟨fun _ _ h => h, Eq.refl _⟩, Eq.refl _, Eq.refl _, fun _ _ h _ => h⟩

theorem trans {r'' : RtpReorder w} (h : Released r r') (h' : Released r' r'') : Released r r'' where
  slots i buf hi := h.slots i buf (h'.slots i buf hi)
  seq := h'.seq.trans h.seq
  baseSeq := h'.baseSeq.trans h.baseSeq
  count := h'.count.trans h.count
  kept i buf hi hn := h'.kept i buf (h.kept i buf hi hn) (by rwa [Near, h.seq, h.baseSeq])

theorem putSlot {i : Fin w.size} (hi : (r.slots i).isSome → ¬ Near r i) : Released r (r.putSlot i) where
  slots j buf hj := by
    rw [RtpReorder.putSlot_slots] at hj
    rcases eq_or_ne j i with h | hne
    · rw [h, Function.update_self] at hj
      cases hj
    · rwa [Function.update_of_ne hne] at hj
  seq := RtpReorder.putSlot_seq
  baseSeq := RtpReorder.putSlot_baseSeq
  count := RtpReorder.putSlot_count
  kept j buf hj hn := by
    have hne : j ≠ i := by
      rintro h
      rw [h] at hj hn
      exact hi (by rw [hj]; simp) hn
    rwa [RtpReorder.putSlot_slots, Function.update_of_ne hne]

theorem range {beginSeq endSeq : BitVec 16} (h : NoneWaiting r r.baseSeq beginSeq endSeq) :
    Released r (rtpReorderReleaseRange r beginSeq endSeq) := by
  unfold rtpReorderReleaseRange
  refine List.foldlRecOn _ _ Released.rfl fun r' hr i hi => ?_
  unfold releaseSeq
  split
  · next hget =>
    refine hr.trans (putSlot fun hsome hnear => ?_)
    have hseq := (isSome_rtpReorderGet.1 hget).2
    have hlt := ahead_lt_65536 endSeq beginSeq
    have hi := List.mem_range.1 hi
    have := h.shrunk hr.toShrunk _ hsome (by rw [hseq, ahead_add (by omega)]; omega)
    rw [Near, hr.baseSeq] at hnear
    omega
  · exact hr

theorem expiredGroups {ctx : FecContext} {baseSeq : BitVec 16}
    (h : ctx.attached → ∀ i grp, ctx.groups i = some grp → 0 < sdiff baseSeq grp.endSeq →
      NoneWaiting r r.baseSeq grp.beginSeq grp.endSeq) :
    Released r (fecReleaseExpiredGroups ctx r baseSeq).2 := by
  have hfold : Released r ((List.finRange fecMaxGroups).foldl (fecReleaseIfExpired baseSeq) (ctx, r)).2 ∧
      ((List.finRange fecMaxGroups).foldl (fecReleaseIfExpired baseSeq) (ctx, r)).1.attached = ctx.attached ∧
      ∀ i grp, ((List.finRange fecMaxGroups).foldl (fecReleaseIfExpired baseSeq) (ctx, r)).1.groups i =
        some grp → ctx.groups i = some grp := by
    refine List.foldlRecOn (motive := fun s : FecContext × RtpReorder w => Released r s.2 ∧
      s.1.attached = ctx.attached ∧ ∀ i grp, s.1.groups i = some grp → ctx.groups i = some grp) _ _
      ⟨Released.rfl, Eq.refl _, fun _ _ h => h⟩ fun s ⟨hr, hatt, hgrp⟩ i _ => ?_
    unfold fecReleaseIfExpired
    split
    · exact ⟨hr, hatt, hgrp⟩
    · next grp hi =>
      split
      · next hexp =>
        refine ⟨?_, hatt, fun j grp' hj => ?_⟩
        · dsimp only
          split
          · next hon =>
            have hnone := (h (by rw [← hatt, hon]) i grp (hgrp i grp hi) hexp).shrunk hr.toShrunk
            rw [← hr.baseSeq] at hnone
            exact hr.trans (range hnone)
          · exact hr
        · rcases eq_or_ne j i with hji | hne
          · rw [hji] at hj
            simp at hj
          · exact hgrp j grp' (by simpa [Function.update_of_ne hne] using hj)
      · exact ⟨hr, hatt, hgrp⟩
  exact hfold.1

end Released

/-- A packet that is not in the ring takes its slot. -/
theorem OnceInv.insertSlot (h : OnceInv arrived r delivered) {seqn : BitVec 16}
    (hx : ahead seqn r.baseSeq < w.size) (hget : rtpReorderGet r seqn = none) (hid : buf.id = arrived) :
    OnceInv (arrived + 1) (insertSlot r buf seqn) delivered := by
  have hold : (r.slots (slotOf w seqn)).isSome → ¬ Near r (slotOf w seqn) := by
    intro hsome hnear
    obtain ⟨c, hc⟩ := Option.isSome_iff_exists.1 hsome
    have hown := slotOf_injective hnear hx (h.placed _ c hc)
    rw [rtpReorderGet, if_pos hown, hc] at hget
    cases hget
  exact (h.released (Released.putSlot hold)).storeSlot (by simp) (by simpa using hx) hid

end Rtp2httpd
