import DOpenWrt.Rtp2httpd.ZerocopyStream

/-!
# Releasing zero-copy buffers

With `MSG_ZEROCOPY` the kernel numbers the sends and reports ranges of numbers as complete. A buffer waits in the
pending queue under the number of its last send. Beside the queues, `NotifyRun` keeps which sends carried bytes
of a buffer and which were reported, and for every release whether all of them had been by then.
-/

namespace Rtp2httpd
open LinkQueue

/-- The buffers of which `n` bytes of the batch carry some. -/
def carried (heap : Nat → SendBuffer) : List Nat → Nat → List Nat
  | [], _ => []
  | ref :: l, n => if n = 0 then [] else ref :: carried heap l (n - (heap ref).iovLen)

structure NotifyRun where
  st : ZcState
  /-- The references the queue took, the newest first. -/
  taken : List Nat
  /-- How many zero-copy sends there were. -/
  sends : Nat
  /-- The sends that carried bytes of a buffer since it was added. -/
  carriers : Nat → List Nat
  completed : Nat → Bool
  /-- The buffers released, and whether every send that carried them was complete. -/
  released : List (Nat × Bool)

inductive NotifyOp where
  | queue (op : ZcOp)
  | complete (first last : Nat)

/-- The buffer whose reference the queue takes. -/
def ZcOp.takes (st : ZcState) : ZcOp → Option Nat
  | add ref => if (zerocopyQueueAdd st ref).1 = 0 ∧ (st.heap ref).dataSize ≠ 0 then some ref else none
  | addFile mem fileFd file fileOffset fileSize =>
    if (zerocopyQueueAddFile st mem fileFd file fileOffset fileSize).1 = 0 then mem else none
  | _ => none

/-- The bytes a zero-copy send takes, no send if there is none. -/
def ZcOp.sends (st : ZcState) : ZcOp → Option Nat
  | send (.sent n) => if st.batch = [] then none else some n
  | _ => none

namespace NotifyRun

def queueStep (s : NotifyRun) (op : ZcOp) : NotifyRun :=
  let s := match op.sends s.st with
    | none => s
    | some n => { s with
      sends := s.sends + 1
      carriers := fun r => if r ∈ carried s.st.heap s.st.batch n then s.carriers r ++ [s.sends] else s.carriers r }
  let s := match op.takes s.st with
    | none => s
    | some ref => { s with taken := ref :: s.taken, carriers := Function.update s.carriers ref [] }
  { s with st := op.run true s.st }

def completeStep (s : NotifyRun) (first last : Nat) : NotifyRun :=
  let st := (zerocopyHandleCompletions true [(BitVec.ofNat 32 first, BitVec.ofNat 32 last)] false s.st).2
  let completed := fun k => s.completed k || decide (first ≤ k ∧ k ≤ last)
  let refs := st.puts.take (st.puts.length - s.st.puts.length)
  { s with st, completed, released := s.released ++ refs.map fun r => (r, (s.carriers r).all completed) }

def step (s : NotifyRun) : NotifyOp → NotifyRun
  | .queue op => s.queueStep op
  | .complete first last => s.completeStep first last

def init (heap : Nat → SendBuffer) (freeList : Option Nat) : NotifyRun :=
  ⟨.init heap freeList, [], 0, fun _ => [], fun _ => false, []⟩

/-- Every send is reported at most once, in ranges that 32 bits can tell apart. -/
def Legal (s : NotifyRun) : NotifyOp → Prop
  | .queue (.completions ..) => False
  | .queue op => op.Legal s.st
  | .complete first last =>
    first ≤ last ∧ last < s.sends ∧ last - first < 2 ^ 32 ∧ ∀ k < s.sends, first ≤ k → k ≤ last → s.completed k = false

instance decidableLegal (s : NotifyRun) (op : NotifyOp) : Decidable (s.Legal op) :=
  match op with
  | .queue (.completions ..) => isFalse id
  | .queue (.touch ref buf free) => inferInstanceAs (Decidable ((ZcOp.touch ref buf free).Legal s.st))
  | .queue (.add ref) => inferInstanceAs (Decidable ((ZcOp.add ref).Legal s.st))
  | .queue (.addFile mem fd file off size) =>
    inferInstanceAs (Decidable ((ZcOp.addFile mem fd file off size).Legal s.st))
  | .queue (.send kernel) => inferInstanceAs (Decidable ((ZcOp.send kernel).Legal s.st))
  | .complete .. => inferInstanceAs (Decidable (_ ∧ _))

/-- When a range arrives, the other sends that carried the buffers it releases have been reported. -/
def InOrder (s : NotifyRun) : NotifyOp → Prop
  | .queue _ => True
  | .complete first last =>
    ∀ r ∈ s.st.pendingList, inRange s.st.heap (BitVec.ofNat 32 first) (BitVec.ofNat 32 last) r →
      ∀ k ∈ s.carriers r, s.completed k ∨ first ≤ k ∧ k ≤ last

instance decidableInOrder (s : NotifyRun) (op : NotifyOp) : Decidable (s.InOrder op) :=
  match op with
  | .queue _ => isTrue trivial
  | .complete .. => inferInstanceAs (Decidable (∀ r ∈ s.st.pendingList, _ → ∀ k ∈ s.carriers r, _))

/-- Every buffer released so far was released after all sends that carried it were complete. -/
def Safe (s : NotifyRun) : Prop := ∀ x ∈ s.released, x.2 = true

instance decidableSafe (s : NotifyRun) : Decidable s.Safe := inferInstanceAs (Decidable (∀ x ∈ s.released, _))

end NotifyRun

/-! ### What a send carries -/

section Carried

variable {heap : Nat → SendBuffer} {l m : List Nat} {n : Nat}

theorem fullySent_subset_carried (heap : Nat → SendBuffer) (l : List Nat) (n : Nat) :
    fullySent heap l n ⊆ carried heap l n := by
  induction l generalizing n with
  | nil => exact List.Subset.refl _
  | cons ref l ih =>
    rw [fullySent, carried]
    split
    · exact List.Subset.refl _
    · split
      · exact List.cons_subset_cons _ (ih _)
      · exact List.nil_subset _

theorem carried_subset (heap : Nat → SendBuffer) (l : List Nat) (n : Nat) : carried heap l n ⊆ l := by
  induction l generalizing n with
  | nil => exact List.Subset.refl _
  | cons ref l ih =>
    rw [carried]
    split
    · exact List.nil_subset _
    · exact List.cons_subset_cons _ (ih _)

/-- A send that ends inside a prefix of the queue sends nothing behind it. -/
theorem fullySent_append (hn : n ≤ (l.map fun r => (heap r).iovLen).sum) :
    fullySent heap (l ++ m) n = fullySent heap l n := by
  induction l generalizing n with
  | nil =>
    obtain rfl : n = 0 := Nat.le_zero.1 hn
    cases m <;> rfl
  | cons ref l ih =>
    rw [List.map_cons, List.sum_cons] at hn
    rw [List.cons_append, fullySent, fullySent, ih (by omega)]

end Carried

theorem idCompleted_of_mem {first last k : Nat} (hlen : last - first < 2 ^ 32) (hf : first ≤ k) (hl : k ≤ last) :
    idCompleted (BitVec.ofNat 32 first) (BitVec.ofNat 32 last) (BitVec.ofNat 32 k) = true := by
  unfold idCompleted
  simp only [BitVec.le_def, BitVec.toNat_ofNat]
  split
  · rw [decide_eq_true_eq]
    omega
  · rw [decide_eq_true_eq]
    omega

/-! ### Invariant -/

structure NotifyInv (s : NotifyRun) (l p : List Nat) : Prop where
  inv : ZcInv s.st l p
  nextId : s.st.queue.nextZerocopyId = BitVec.ofNat 32 s.sends
  carriers : ∀ r, ∀ k ∈ s.carriers r, k < s.sends
  completed : ∀ k, s.completed k = true → k < s.sends
  /-- A pending buffer stands under the id of its last send, which is not complete. -/
  pending : ∀ r ∈ p, ∃ k, (s.carriers r).getLast? = some k ∧ (s.st.heap r).zerocopyId = BitVec.ofNat 32 k ∧
    s.completed k = false
  /-- Every reference taken is held for a place in a queue or was given back. -/
  refs : ∀ r, s.taken.count r = s.st.puts.count r + (l ++ p).count r

namespace NotifyInv

variable {s : NotifyRun} {l p : List Nat}

theorem init (heap : Nat → SendBuffer) (freeList : Option Nat) : NotifyInv (.init heap freeList) [] [] :=
  ⟨zcInv_init heap freeList, rfl, nofun, nofun, nofun, fun _ => rfl⟩

/-- A buffer is appended to the send queue. -/
theorem appended (h : NotifyInv s l p) {ref : Nat} {bytes : List UInt8} {st' : ZcState} (href : ref ∉ l ++ p)
    (ha : Appended s.st l p ref bytes st') :
    NotifyInv { s with st := st', taken := ref :: s.taken, carriers := Function.update s.carriers ref [] }
      (l ++ [ref]) p := by
  refine ⟨ha.inv, ha.nextId.trans h.nextId, ?_, h.completed, ?_, ?_⟩
  · intro r k hk
    by_cases hr : r = ref
    · subst hr
      simp at hk
    · exact h.carriers r k (by simpa [hr] using hk)
  · intro r hr
    have hne : r ≠ ref := fun heq => href (heq ▸ List.mem_append_right _ hr)
    obtain ⟨k, hk, hid, hc⟩ := h.pending r hr
    refine ⟨k, by simpa [hne] using hk, ?_, hc⟩
    exact (SendBuffer.zerocopyId_eq (ha.core r hne)).trans hid
  · intro r
    have := h.refs r
    show (ref :: s.taken).count r = st'.puts.count r + _
    rw [ha.puts, List.count_cons, this]
    simp only [List.count_append, List.count_cons, List.count_nil]
    omega

/-- A file is sent, in part or to its end. -/
theorem fileSent (h : NotifyInv s l p) {ref n : Nat} {l' puts : List Nat} {st' : ZcState} (href : ref ∉ p)
    (hf : FileSent s.st ref p n l' puts st') (hl : ∀ r, l.count r = l'.count r + puts.count r) :
    NotifyInv { s with st := st' } l' p := by
  refine ⟨hf.inv, hf.nextId.trans h.nextId, h.carriers, h.completed, ?_, ?_⟩
  · intro r hr
    obtain ⟨k, hk, hid, hc⟩ := h.pending r hr
    refine ⟨k, hk, ?_, hc⟩
    show (st'.heap r).zerocopyId = _
    rw [hf.other r (ne_of_mem_of_not_mem hr href), hid]
  · intro r
    have := h.refs r
    have := hl r
    show s.taken.count r = st'.puts.count r + _
    rw [hf.puts]
    simp only [List.count_append] at *
    omega

theorem sendMemory (h : NotifyInv s l p) {ref n : Nat} {l' : List Nat} (hl : l = ref :: l')
    (hmem : (s.st.heap ref).type = .memory) (hn : n ≤ (unsentOf s.st.heap s.st.batch).length) :
    ∃ l' p', NotifyInv { s with
      st := (zerocopySend true (.sent n) s.st).2.2, sends := s.sends + 1
      carriers := fun r => if r ∈ carried s.st.heap s.st.batch n then s.carriers r ++ [s.sends] else s.carriers r }
        l' p' := by
  subst hl
  obtain ⟨rest, hrest, hc⟩ := zerocopySend_zerocopy h.inv hmem hn
  set done := fullySent s.st.heap (ref :: l') n with hdone
  have hnodup : (done ++ rest ++ p).Nodup := hrest ▸ h.inv.nodup
  have hsub : carried s.st.heap s.st.batch n ⊆ ref :: l' :=
    List.Subset.trans (carried_subset ..) h.inv.batch_prefix.subset
  -- the buffers sent to their end were part of the batch
  have hcarried : done ⊆ carried s.st.heap s.st.batch n := by
    obtain ⟨more, hmore⟩ := h.inv.batch_prefix
    rw [hdone, ← hmore, fullySent_append]
    · exact fullySent_subset_carried ..
    · rwa [← length_unsentOf_memory fun r hr => h.inv.type_of_mem_batch hr]
  have hp : ∀ r ∈ p, r ∉ ref :: l' := fun r hr hl => (List.nodup_append.1 h.inv.nodup).2.2 r hl r hr rfl
  have hcore : ∀ r ∈ p ++ done, ((zerocopySend true (.sent n) s.st).2.2.heap r).zerocopyId =
      ((s.st.sentBatch n).heap r).zerocopyId := by
    intro r hr
    refine SendBuffer.zerocopyId_eq (hc.core r fun hrr => ?_)
    rcases List.mem_append.1 hr with hr | hr
    · exact hp r hr (hrest ▸ List.mem_append_right _ hrr)
    · exact (List.nodup_append.1 (List.nodup_append.1 hnodup).1).2.2 r hr r hrr rfl
  have hid : ∀ r, ((s.st.sentBatch n).heap r).zerocopyId =
      if r ∈ s.st.batch then s.st.queue.nextZerocopyId else (s.st.heap r).zerocopyId := by
    intro r
    rw [ZcState.sentBatch, assignZerocopyId_heap]
    split <;> rfl
  have hinv := hc.inv
  rw [List.flatMap_singleton'] at hinv
  refine ⟨rest, p ++ done, hinv, ?_, ?_, ?_, ?_, ?_⟩
  · rw [hc.nextId, ZcState.sentBatch]
    dsimp only
    rw [(assignZerocopyId_other ..).1, h.nextId, BitVec.ofNat_add]
    rfl
  · intro r k hk
    dsimp only at hk ⊢
    split at hk
    · rcases List.mem_append.1 hk with hk | hk
      · exact Nat.lt_succ_of_lt (h.carriers r k hk)
      · rw [List.mem_singleton.1 hk]
        exact Nat.lt_succ_self _
    · exact Nat.lt_succ_of_lt (h.carriers r k hk)
  · exact fun k hk => Nat.lt_succ_of_lt (h.completed k hk)
  · intro r hr
    dsimp only
    rw [hcore r hr, hid]
    rcases List.mem_append.1 hr with hr | hr
    · rw [if_neg fun hc => hp r hr (hsub hc), if_neg fun hb => hp r hr (h.inv.batch_prefix.subset hb)]
      exact h.pending r hr
    · rw [if_pos (hcarried hr), if_pos (carried_subset _ _ _ (hcarried hr))]
      refine ⟨s.sends, List.getLast?_concat .., h.nextId, ?_⟩
      by_contra hne
      exact absurd (h.completed s.sends (by simpa using hne)) (Nat.lt_irrefl _)
  · intro r
    have := h.refs r
    rw [← hrest] at this
    dsimp only
    rw [hc.puts, this, ZcState.sentBatch]
    dsimp only
    rw [(assignZerocopyId_other ..).2.2]
    have hnil : (done.reverse.flatMap fun _ => ([] : List Nat)) = [] := by simp
    rw [hnil]
    simp only [List.count_append, List.nil_append]
    omega

theorem sendStep (h : NotifyInv s l p) {n : Nat} (hn : n ≤ s.st.offered.length) :
    ∃ l' p', NotifyInv (s.queueStep (.send (.sent n))) l' p' := by
  unfold NotifyRun.queueStep
  cases l with
  | nil =>
    have hhead := h.inv.send.head_eq
    have hbatch : s.st.batch = [] := by
      rw [h.inv.batch_eq]
      rfl
    have hst : (zerocopySend true (.sent n) s.st).2.2 = s.st := by
      unfold zerocopySend
      rw [hhead]
      rfl
    simp only [ZcOp.sends, ZcOp.takes, hbatch, if_true, ZcOp.run, hst]
    exact ⟨[], p, h⟩
  | cons ref l =>
    have href : ref ∉ l ++ p := (List.nodup_cons.1 h.inv.nodup).1
    by_cases hfile : (s.st.heap ref).type = .file
    · have hbatch : s.st.batch = [] := by
        rw [h.inv.batch_eq, List.takeWhile_cons_of_neg (by simp [hfile]), List.take_nil]
      simp only [ZcOp.sends, ZcOp.takes, hbatch, if_true, ZcOp.run]
      have hrefp : ref ∉ p := fun hr => href (List.mem_append_right _ hr)
      rcases zerocopySend_file h.inv hfile true n with ⟨hf, -⟩ | ⟨hf, -⟩
      · exact ⟨_, p, h.fileSent hrefp hf fun r => rfl⟩
      · refine ⟨_, p, h.fileSent hrefp hf fun r => ?_⟩
        simp only [List.count_cons, List.count_nil]
        omega
    · have hmem : (s.st.heap ref).type = .memory := by
        cases htype : (s.st.heap ref).type with
        | memory => rfl
        | file => exact absurd htype hfile
      rw [StreamInv.offered_eq h.inv List.head?_cons hmem] at hn
      simp only [ZcOp.sends, ZcOp.takes, if_neg (h.inv.batch_ne_nil hmem), ZcOp.run]
      exact h.sendMemory rfl hmem hn

theorem queueStep (h : NotifyInv s l p) {op : ZcOp} (hop : s.Legal (.queue op)) :
    ∃ l' p', NotifyInv (s.queueStep op) l' p' := by
  have hlists : s.st.sendList ++ s.st.pendingList = l ++ p := by rw [h.inv.sendList, h.inv.pendingList]
  unfold NotifyRun.queueStep
  cases op with
  | touch ref buf freeList =>
    have href : ref ∉ l ++ p := by rwa [← hlists]
    have hinv := h.inv.modify href fun _ => buf
    refine ⟨l, p, ⟨hinv.send, hinv.pending, hinv.nodup, hinv.numQueued, hinv.numPending, hinv.totalBytes, hinv.pos⟩,
      h.nextId, h.carriers, h.completed, fun r hr => ?_, h.refs⟩
    have hne := ne_of_mem_of_not_mem (List.mem_append_right l hr) href
    obtain ⟨k, hk, hid, hc⟩ := h.pending r hr
    exact ⟨k, hk, (congrArg SendBuffer.zerocopyId (modify_heap_of_ne s.st (fun _ => buf) hne)).trans hid, hc⟩
  | add ref =>
    have href : ref ∉ l ++ p := by rwa [← hlists]
    rcases zerocopyQueueAdd_cases h.inv href with ⟨hst, hzero⟩ | ⟨hret, ha⟩
    · have htakes : (ZcOp.add ref).takes s.st = none := by
        rw [ZcOp.takes, if_neg]
        exact fun hc => hc.2 (hzero hc.1)
      simp only [ZcOp.sends, htakes, ZcOp.run, hst]
      exact ⟨l, p, h⟩
    · by_cases hsize : (s.st.heap ref).dataSize = 0
      · have hst : (zerocopyQueueAdd s.st ref).2 = s.st := by
          unfold zerocopyQueueAdd
          dsimp only
          rw [if_pos hsize]
        have htakes : (ZcOp.add ref).takes s.st = none := by
          rw [ZcOp.takes, if_neg]
          exact fun hc => hc.2 hsize
        simp only [ZcOp.sends, htakes, ZcOp.run, hst]
        exact ⟨l, p, h⟩
      · have htakes : (ZcOp.add ref).takes s.st = some ref := by rw [ZcOp.takes, if_pos ⟨hret, hsize⟩]
        simp only [ZcOp.sends, htakes, ZcOp.run]
        exact ⟨_, p, h.appended href ha⟩
  | addFile mem fileFd file fileOffset fileSize =>
    have hmem : ∀ ref ∈ mem, ref ∉ l ++ p := by
      rintro ref hr
      rw [Option.mem_def.1 hr] at hop
      rwa [← hlists]
    rcases zerocopyQueueAddFile_cases h.inv hmem fileFd file fileOffset fileSize with ⟨hst, hret⟩ | ⟨hret, ref, hr, ha⟩
    · have htakes : (ZcOp.addFile mem fileFd file fileOffset fileSize).takes s.st = none := by
        rw [ZcOp.takes, if_neg hret]
      simp only [ZcOp.sends, htakes, ZcOp.run, hst]
      exact ⟨l, p, h⟩
    · obtain rfl := Option.mem_def.1 hr
      have htakes : (ZcOp.addFile (some ref) fileFd file fileOffset fileSize).takes s.st = some ref := by
        rw [ZcOp.takes, if_pos hret]
      simp only [ZcOp.sends, htakes, ZcOp.run]
      exact ⟨_, p, h.appended (hmem ref rfl) ha⟩
  | send kernel =>
    cases kernel with
    | sent n => exact h.sendStep hop
    | eagain | enobufs | failed =>
      simp only [ZcOp.sends, ZcOp.takes, ZcOp.run]
      rw [zerocopySend_refused]
      · exact ⟨l, p, h⟩
      · simp
  | completions ranges failed => exact hop.elim

/-- A range of completions releases the pending buffers with an id in it. -/
theorem completeStep (h : NotifyInv s l p) {first last : Nat} (hop : s.Legal (.complete first last)) :
    NotifyInv (s.completeStep first last) l
        (p.filter fun r => !inRange s.st.heap (BitVec.ofNat 32 first) (BitVec.ofNat 32 last) r) ∧
      (s.completeStep first last).released = s.released ++
        (p.filter (inRange s.st.heap (BitVec.ofNat 32 first) (BitVec.ofNat 32 last))).reverse.map fun r =>
          (r, (s.carriers r).all fun k => s.completed k || decide (first ≤ k ∧ k ≤ last)) := by
  obtain ⟨-, hlast, hlen, -⟩ := hop
  set lo := BitVec.ofNat 32 first
  set hi := BitVec.ofNat 32 last
  have hst : (zerocopyHandleCompletions true [(lo, hi)] false s.st).2 = (completeRange lo hi s.st).2 := rfl
  have hrel := (completeRange_spec h.inv lo hi).1
  refine ⟨⟨hrel.inv, hrel.nextId.trans h.nextId, h.carriers, ?_, ?_, ?_⟩, ?_⟩
  · intro k hk
    unfold NotifyRun.completeStep at hk
    rcases Bool.or_eq_true_iff.1 hk with hk | hk
    · exact h.completed k hk
    · exact Nat.lt_of_le_of_lt (of_decide_eq_true hk).2 hlast
  · intro r hr
    obtain ⟨hr, hout⟩ := List.mem_filter.1 hr
    obtain ⟨k, hk, hid, hc⟩ := h.pending r hr
    refine ⟨k, hk, (SendBuffer.zerocopyId_eq (hrel.core r)).trans hid, ?_⟩
    show (s.completed k || decide (first ≤ k ∧ k ≤ last)) = false
    rw [hc, Bool.false_or, decide_eq_false_iff_not]
    rintro ⟨hf, hl⟩
    rw [inRange, hid, idCompleted_of_mem hlen hf hl] at hout
    cases hout
  · intro r
    have := h.refs r
    show s.taken.count r = (completeRange lo hi s.st).2.puts.count r + _
    rw [hrel.puts, this]
    have hp := List.count_eq_countP (a := r) (l := p)
    have hsplit : p.count r = (p.filter (inRange s.st.heap lo hi)).count r +
        (p.filter fun r => !inRange s.st.heap lo hi r).count r := by
      rw [← List.count_append]
      exact ((List.filter_append_perm (inRange s.st.heap lo hi) p).count_eq r).symm
    simp only [List.count_append, List.count_reverse, hsplit]
    omega
  · unfold NotifyRun.completeStep
    dsimp only
    rw [hst, hrel.puts, List.length_append, Nat.add_sub_cancel, List.take_left]

theorem step (h : NotifyInv s l p) {op : NotifyOp} (hop : s.Legal op) : ∃ l' p', NotifyInv (s.step op) l' p' := by
  cases op with
  | queue op => exact h.queueStep hop
  | complete first last => exact ⟨l, _, (h.completeStep hop).1⟩

/-- A step keeps every release safe exactly when it is in order. -/
theorem safe_iff (h : NotifyInv s l p) (hs : s.Safe) {op : NotifyOp} (hop : s.Legal op) :
    s.InOrder op ↔ (s.step op).Safe := by
  cases op with
  | queue op =>
    have : (s.queueStep op).released = s.released := by
      unfold NotifyRun.queueStep
      dsimp only
      split <;> split <;> rfl
    refine iff_of_true trivial ?_
    show ∀ x ∈ (s.queueStep op).released, x.2 = true
    rwa [this]
  | complete first last =>
    show _ ↔ ∀ x ∈ (s.completeStep first last).released, x.2 = true
    rw [(h.completeStep hop).2, List.forall_mem_append, NotifyRun.InOrder, h.inv.pendingList]
    simp only [List.mem_map, List.mem_reverse, List.mem_filter, forall_exists_index, and_imp]
    constructor
    · rintro hin
      refine ⟨hs, ?_⟩
      rintro _ r hr hrange rfl
      simpa using hin r hr hrange
    · rintro ⟨-, hin⟩ r hr hrange
      simpa using hin _ r hr hrange rfl

end NotifyInv

/-- In every run the queue gives back what it took, once, and nothing it still queues; what is fully sent and
completely reported has been given back; and no buffer is released before all of its sends are reported exactly when
the ranges arrive in order for the buffers they release. -/
theorem zerocopy_release (heap : Nat → SendBuffer) (freeList : Option Nat) {ops : List NotifyOp}
    (hops : Run.Meets NotifyRun.step NotifyRun.Legal (.init heap freeList) ops) :
    let s := ops.foldl NotifyRun.step (.init heap freeList)
    (∀ r, s.taken.count r = s.st.puts.count r + (s.st.sendList ++ s.st.pendingList).count r) ∧
      (∀ r ∉ s.st.sendList, (∀ k ∈ s.carriers r, s.completed k = true) → s.st.puts.count r = s.taken.count r) ∧
      (Run.Meets NotifyRun.step NotifyRun.InOrder (.init heap freeList) ops ↔
        Run.Meets NotifyRun.step (fun s op => (s.step op).Safe) (.init heap freeList) ops) := by
  intro s
  obtain ⟨l, p, h⟩ : ∃ l p, NotifyInv s l p :=
    @Run.Meets.invariant _ _ _ _ _ _ (fun _ s => ∃ l p, NotifyInv s l p)
      (fun _ _ _ hop ⟨_, _, hs⟩ => hs.step hop) [] ⟨[], [], .init heap freeList⟩ hops
  refine ⟨?_, ?_, ?_⟩
  · rw [h.inv.sendList, h.inv.pendingList]
    exact h.refs
  · rw [h.inv.sendList]
    intro r hr hall
    have hp : r ∉ p := by
      intro hrp
      obtain ⟨k, hk, -, hc⟩ := h.pending r hrp
      rw [hall k (List.mem_of_getLast? hk)] at hc
      cases hc
    rw [h.refs r, List.count_append, List.count_eq_zero_of_not_mem hr, List.count_eq_zero_of_not_mem hp,
      Nat.add_zero]
  · exact Run.Meets.iff (I := fun s => ∃ l p, NotifyInv s l p) (P := NotifyRun.Safe)
      (fun _ _ hop ⟨_, _, hs⟩ _ => hs.step hop) (fun _ _ hop ⟨_, _, hs⟩ hsafe => hs.safe_iff hsafe hop) hops
      ⟨[], [], .init heap freeList⟩ nofun

/-- A buffer of three bytes for every address. -/
def threeBytes : Nat → SendBuffer := fun _ => {
  type := .memory, data := fun i => UInt8.ofNat i, dataOffset := 0, dataSize := 3, iovBase := 0, iovLen := 0
  fileFd := 0, file := fun _ => 0, fileOffset := 0, fileSize := 0, fileSent := 0, refcount := 1, sendNext := none
  zerocopyId := 0 }

/-- A buffer split over two sends, both reported in one range. -/
theorem zerocopy_release_split :
    Run.Meets NotifyRun.step (fun s op => (s.step op).Safe) (.init threeBytes none)
      [.queue (.add 1), .queue (.send (.sent 2)), .queue (.send (.sent 1)), .complete 0 1] :=
  (zerocopy_release threeBytes none (by decide +kernel)).2.2.1 (by decide +kernel)

/-- The second of two sends is reported first: the buffer is released while the kernel still reads it. -/
theorem zerocopy_release_early :
    let ops : List NotifyOp := [.queue (.add 1), .queue (.send (.sent 2)), .queue (.send (.sent 1)), .complete 1 1]
    let s := ops.foldl NotifyRun.step (.init threeBytes none)
    Run.Meets NotifyRun.step NotifyRun.Legal (.init threeBytes none) ops ∧ s.st.puts = [1] ∧ s.carriers 1 = [0, 1] ∧
      s.completed 0 = false ∧ ¬ s.Safe := by
  decide +kernel

end Rtp2httpd
