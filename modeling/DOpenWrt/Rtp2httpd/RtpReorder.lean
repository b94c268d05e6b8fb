import DOpenWrt.Lib.Serial
import DOpenWrt.Rtp2httpd.Rtp

/-!
# The reorder ring

`rtp_reorder_t` with the operations that only concern its slots: `rtp_reorder_init`,
`rtp_reorder_cleanup`, `rtp_reorder_get` and `rtp_reorder_release_range`. Every `buffer_ref_get` and
`buffer_ref_put` this module makes is recorded in `refs`.
-/

namespace Rtp2httpd
open Serial

/-- The two window sizes. -/
inductive Window where
  | small | large
  deriving DecidableEq, Repr

namespace Window

def size : Window → Nat
  | small => 32
  | large => 512

def mask : Window → Nat
  | small => 31
  | large => 511

/-- The window `rtp_reorder_init` selects. -/
def ofFec (useFec : Bool) : Window := if useFec then large else small

theorem size_pos (w : Window) : 0 < w.size := by cases w <;> decide

theorem size_le (w : Window) : w.size ≤ 512 := by cases w <;> decide

theorem le_size (w : Window) : 32 ≤ w.size := by cases w <;> decide

theorem size_dvd (w : Window) : w.size ∣ 2 ^ 16 := by cases w <;> decide

theorem and_mask (w : Window) (x : Nat) : x &&& w.mask = x % w.size := by
  cases w
  · exact Nat.and_two_pow_sub_one_eq_mod x 5
  · exact Nat.and_two_pow_sub_one_eq_mod x 9

end Window

inductive Phase where
  | notStarted | collecting | active
  deriving DecidableEq, Repr

/-- A call of `buffer_ref_get` or `buffer_ref_put`, with the buffer's identity. -/
inductive RefEvent where
  | get (id : Nat)
  | put (id : Nat)
  deriving DecidableEq, Repr

/-- References held after a history of calls, the newest first. -/
def refsHeld : List RefEvent → Nat → Int
  | [], _ => 0
  | .get id :: refs, b => refsHeld refs b + if id = b then 1 else 0
  | .put id :: refs, b => refsHeld refs b - if id = b then 1 else 0

/-- No `buffer_ref_put` gives back a reference that is not held. -/
def NoDoubleRelease : List RefEvent → Prop
  | [] => True
  | .get _ :: refs => NoDoubleRelease refs
  | .put id :: refs => 0 < refsHeld refs id ∧ NoDoubleRelease refs

structure RtpReorder (w : Window) where
  slots : Fin w.size → Option BufferRef
  seq : Fin w.size → BitVec 16
  baseSeq : BitVec 16
  count : BitVec 16
  initialized : Bool
  phase : Phase
  refs : List RefEvent

variable {w : Window}

/-- `seq & window_mask` -/
def slotOf (w : Window) (seq : BitVec 16) : Fin w.size :=
  ⟨seq.toNat &&& w.mask, by
    rw [w.and_mask]
    exact Nat.mod_lt _ w.size_pos⟩

/-- `rtp_reorder_init`, both allocations having succeeded. -/
def rtpReorderInit (useFec : Bool) : RtpReorder (Window.ofFec useFec) where
  slots _ := none
  seq _ := 0
  baseSeq := 0
  count := 0
  initialized := true
  phase := .notStarted
  refs := []

namespace RtpReorder

variable (r : RtpReorder w)

/-- `buffer_ref_put(r->slots[i]); r->slots[i] = NULL`, where the slot holds a buffer. -/
def putSlot (i : Fin w.size) : RtpReorder w :=
  match r.slots i with
  | some buf => { r with slots := Function.update r.slots i none, refs := .put buf.id :: r.refs }
  | none => r

/-- `buffer_ref_get(buf); r->slots[slot] = buf; r->seq[slot] = seqn; r->count++` -/
def storeSlot (buf : BufferRef) (seqn : BitVec 16) : RtpReorder w :=
  { r with
    slots := Function.update r.slots (slotOf w seqn) (some buf)
    seq := Function.update r.seq (slotOf w seqn) seqn
    count := r.count + 1
    refs := .get buf.id :: r.refs }

variable {r} {i j : Fin w.size} {buf : BufferRef} {seqn : BitVec 16}

@[simp] theorem putSlot_slots : (r.putSlot i).slots = Function.update r.slots i none := by
  unfold putSlot
  split
  · rfl
  · next h => exact (Function.update_eq_self_iff.2 h.symm).symm

@[simp] theorem putSlot_seq : (r.putSlot i).seq = r.seq := by
  unfold putSlot
  split <;> rfl

@[simp] theorem putSlot_baseSeq : (r.putSlot i).baseSeq = r.baseSeq := by
  unfold putSlot
  split <;> rfl

@[simp] theorem putSlot_count : (r.putSlot i).count = r.count := by
  unfold putSlot
  split <;> rfl

@[simp] theorem putSlot_phase : (r.putSlot i).phase = r.phase := by
  unfold putSlot
  split <;> rfl

@[simp] theorem storeSlot_slots :
    (r.storeSlot buf seqn).slots = Function.update r.slots (slotOf w seqn) (some buf) := rfl

@[simp] theorem storeSlot_seq :
    (r.storeSlot buf seqn).seq = Function.update r.seq (slotOf w seqn) seqn := rfl

@[simp] theorem storeSlot_baseSeq : (r.storeSlot buf seqn).baseSeq = r.baseSeq := rfl

@[simp] theorem storeSlot_count : (r.storeSlot buf seqn).count = r.count + 1 := rfl

@[simp] theorem storeSlot_phase : (r.storeSlot buf seqn).phase = r.phase := rfl

end RtpReorder

/-- `rtp_reorder_cleanup`; the arrays freed at its end hold nothing any more. -/
def rtpReorderCleanup (r : RtpReorder w) : RtpReorder w :=
  if r.initialized then
    let r := (List.finRange w.size).foldl RtpReorder.putSlot r
    { r with count := 0, phase := .notStarted, initialized := false }
  else r

def rtpReorderGet (r : RtpReorder w) (seq : BitVec 16) : Option BufferRef :=
  if r.seq (slotOf w seq) = seq then r.slots (slotOf w seq) else none

theorem isSome_rtpReorderGet {r : RtpReorder w} {seq : BitVec 16} : (rtpReorderGet r seq).isSome ↔
    (r.slots (slotOf w seq)).isSome ∧ r.seq (slotOf w seq) = seq := by
  unfold rtpReorderGet
  split <;> simp [*]

/-- One pass of the loop of `rtp_reorder_release_range`. -/
def releaseSeq (r : RtpReorder w) (seq : BitVec 16) : RtpReorder w :=
  if (rtpReorderGet r seq).isSome then r.putSlot (slotOf w seq) else r

/-- `rtp_reorder_release_range`: the loop starts at `beginSeq`, counts up modulo `2 ^ 16` and ends
after `endSeq`. -/
def rtpReorderReleaseRange (r : RtpReorder w) (beginSeq endSeq : BitVec 16) : RtpReorder w :=
  (List.range (ahead endSeq beginSeq + 1)).foldl (fun r i => releaseSeq r (beginSeq + BitVec.ofNat 16 i)) r

/-! ### Slots and numbers -/

theorem sdiff_eq_ite (a b : BitVec 16) :
    sdiff a b = if ahead a b < 32768 then (ahead a b : ℤ) else ahead a b - 65536 := by
  rw [sdiff_eq]
  norm_num
  split <;> split <;> omega

theorem ahead_lt_65536 (a b : BitVec 16) : ahead a b < 65536 := ahead_lt a b

theorem sdiff_neg {a b : BitVec 16} : sdiff a b < 0 ↔ 32768 ≤ ahead a b := by
  have := ahead_lt_65536 a b
  rw [sdiff_eq_ite]
  split <;> omega

theorem abs_sdiff_lt {a b : BitVec 16} {n : Nat} (hn : n ≤ 32768) :
    |sdiff a b| < n ↔ ahead a b < n ∨ ahead b a < n := by
  rw [abs_lt, sdiff_eq_ite]
  rcases eq_or_ne a b with rfl | hne
  · simp
  · have := ahead_swap hne
    have := ahead_lt_65536 a b
    have := ahead_lt_65536 b a
    split <;> omega

theorem slotOf_val (w : Window) (seq : BitVec 16) : (slotOf w seq : Nat) = seq.toNat % w.size :=
  w.and_mask _

theorem slotOf_add (w : Window) (b : BitVec 16) (i : Nat) :
    (slotOf w (b + BitVec.ofNat 16 i) : Nat) = (b.toNat + i) % w.size := by
  rw [slotOf_val, toNat_add_mod w.size_dvd]

/-- Within a window every number has its own slot. -/
theorem slotOf_injective {a b base : BitVec 16} (ha : ahead a base < w.size)
    (hb : ahead b base < w.size) (h : slotOf w a = slotOf w b) : a = b := by
  refine eq_of_slot_eq w.size_dvd ha hb ?_
  rw [← slotOf_val, ← slotOf_val, h]

theorem slotOf_add_inj {b : BitVec 16} {i j : Nat} (hi : i < w.size) (hj : j < w.size)
    (h : slotOf w (b + BitVec.ofNat 16 i) = slotOf w (b + BitVec.ofNat 16 j)) : i = j := by
  have hsize := w.size_le
  have hahead : ∀ {n}, n < w.size → ahead (b + BitVec.ofNat 16 n) b = n := fun hn => ahead_add (by omega) b
  have heq := slotOf_injective (by rwa [hahead hi]) (by rwa [hahead hj]) h
  rw [← hahead hi, heq, hahead hj]

/-- The number one window further shares the slot. -/
theorem slotOf_add_size (w : Window) (b : BitVec 16) :
    slotOf w (b + BitVec.ofNat 16 w.size) = slotOf w b := by
  apply Fin.ext
  rw [slotOf_add, Nat.add_mod_right, slotOf_val]

end Rtp2httpd
