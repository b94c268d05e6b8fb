import Mathlib.Data.List.Find
import DOpenWrt.Rtp2httpd.RtpReorderCount

/-!
# Bounded reordering is repaired

Packets are numbered on without end here, and the number in the packet is that index modulo `2 ^ 16`. As
long as no packet is overtaken by a whole window, the ring is an exact picture of the packets that have
arrived and not been delivered, and everything is delivered once and in order.
-/

namespace Rtp2httpd
open Serial SlotTable

variable {w : Window} {conn : Conn} {isSnapshot : Bool}

/-- The sequence number of packet `q`. -/
def seqOf (q : ℕ) : BitVec 16 := BitVec.ofNat 16 q

theorem seqOf_succ (q : ℕ) : seqOf (q + 1) = seqOf q + 1 := by
  unfold seqOf
  rw [BitVec.ofNat_add]
  rfl

theorem ahead_seqOf {b q : ℕ} (h : b ≤ q) (hlt : q < b + 65536) : ahead (seqOf q) (seqOf b) = q - b := by
  have : seqOf q = seqOf b + BitVec.ofNat 16 (q - b) := by
    unfold seqOf
    rw [← BitVec.ofNat_add, Nat.add_sub_cancel' h]
  rw [this]
  exact ahead_add (by omega) _

/-- A packet that is behind looks far ahead. -/
theorem ahead_seqOf_behind {b q : ℕ} (h : q < b) (hlt : b < q + 65536) :
    ahead (seqOf q) (seqOf b) = 65536 - (b - q) := by
  have hback := ahead_seqOf h.le hlt
  have hne : seqOf q ≠ seqOf b := by
    intro he
    rw [he, ahead_self] at hback
    omega
  have := ahead_swap hne
  omega

theorem slotOf_seqOf_add (w : Window) (q : ℕ) : slotOf w (seqOf (q + w.size)) = slotOf w (seqOf q) := by
  unfold seqOf
  rw [BitVec.ofNat_add, slotOf_add_size]

theorem slotOf_seqOf_inj {b p q : ℕ} (hp : b ≤ p) (hp' : p < b + w.size) (hq : b ≤ q) (hq' : q < b + w.size)
    (h : slotOf w (seqOf p) = slotOf w (seqOf q)) : p = q := by
  have := w.size_le
  have heq := @slotOf_injective w _ _ (seqOf b) (by rw [ahead_seqOf] <;> omega)
    (by rw [ahead_seqOf] <;> omega) h
  have := ahead_seqOf (b := b) (q := p) hp (by omega)
  rw [heq, ahead_seqOf hq (by omega)] at this
  omega

/-! ### Packets -/

/-- A packet by its index, with the arguments of the call that brings it. -/
structure Packet where
  index : ℕ
  heap : Heap
  conn : Conn
  isSnapshot : Bool
  buf : BufferRef

def Packet.arrival (p : Packet) : Arrival := ⟨p.heap, p.conn, p.isSnapshot, p.buf, seqOf p.index⟩

def insertPacket (s : Stream w) (p : Packet) : Stream w := insertArrival s p.arrival

def Arrived (ps : List Packet) (q : ℕ) : Prop := ∃ p ∈ ps, p.index = q

/-- The buffer with which packet `q` arrived first. -/
def firstCopy (ps : List Packet) (q : ℕ) : Option BufferRef :=
  (ps.find? fun p => p.index = q).map Packet.buf

theorem firstCopy_eq_none {ps : List Packet} {q : ℕ} : firstCopy ps q = none ↔ ¬ Arrived ps q := by
  simp [firstCopy, Arrived]

theorem firstCopy_append (ps : List Packet) (p : Packet) (q : ℕ) : firstCopy (ps ++ [p]) q =
    (firstCopy ps q).or (if p.index = q then some p.buf else none) := by
  unfold firstCopy
  rw [List.find?_append]
  cases ps.find? fun p => p.index = q with
  | some _ => rfl
  | none =>
    by_cases h : p.index = q <;> simp [h]

theorem firstCopy_append_of_arrived {ps : List Packet} {q : ℕ} (h : Arrived ps q) (p : Packet) :
    firstCopy (ps ++ [p]) q = firstCopy ps q := by
  rw [firstCopy_append]
  cases hq : firstCopy ps q with
  | some _ => rfl
  | none => exact absurd h (firstCopy_eq_none.1 hq)

theorem firstCopy_append_of_ne {ps : List Packet} {p : Packet} {q : ℕ} (h : p.index ≠ q) :
    firstCopy (ps ++ [p]) q = firstCopy ps q := by
  rw [firstCopy_append, if_neg h, Option.or_none]

theorem firstCopy_append_self {ps : List Packet} {p : Packet} (h : ¬ Arrived ps p.index) :
    firstCopy (ps ++ [p]) p.index = some p.buf := by
  rw [firstCopy_append, firstCopy_eq_none.2 h, if_pos rfl]
  rfl

theorem Arrived.append {ps : List Packet} {q : ℕ} (h : Arrived ps q) (p : Packet) : Arrived (ps ++ [p]) q := by
  obtain ⟨p', hp', h'⟩ := h
  exact ⟨p', List.mem_append_left _ hp', h'⟩

/-- The packets `start`, ..., `start + n - 1` arrive, in an order in which the first eight are distinct,
include `start` and span less than a window, no packet arrives before one that is a window or more
behind it, and a repeated packet is at most `2 ^ 15` behind the next packet expected. -/
structure BoundedReordering (w : Window) (start n : ℕ) (ps : List Packet) : Prop where
  fed : ∀ q, Arrived ps q ↔ start ≤ q ∧ q < start + n
  first : Arrived (ps.take 8) start
  once : ((ps.take 8).map Packet.index).Nodup
  span : ∀ p ∈ ps.take 8, ∀ q ∈ ps.take 8, p.index < q.index + w.size
  displaced : ∀ pre p post, ps = pre ++ p :: post → ¬ Arrived pre p.index →
    ∀ q, start ≤ q → q + w.size ≤ p.index → Arrived pre q
  repeated : ∀ pre p post, ps = pre ++ p :: post → Arrived pre p.index →
    ∀ b, (∀ q, start ≤ q → q < b → Arrived pre q) → b ≤ p.index + 2 ^ 15

/-! ### Active -/

/-- The delivery of packet `q`. -/
def DeliversFirst (ps : List Packet) (d : Delivery) (q : ℕ) : Prop :=
  ∃ buf, firstCopy ps q = some buf ∧ d = .packet (seqOf q) (seqOf q) buf

/-- The ring is a picture of the packets `ps` that have arrived: those before `b` are delivered, in
order, and those from `b` on are in their slots. -/
structure Mirrors (start : ℕ) (ps : List Packet) (b : ℕ) (s : Stream w) : Prop where
  fec : s.fec = none
  count : CountInv 0 s.r
  base : s.r.baseSeq = seqOf b
  filled : ∀ q, b ≤ q → q < b + w.size → s.r.slots (slotOf w (seqOf q)) = firstCopy ps q
  bounded : ∀ q, Arrived ps q → q < b + w.size
  start_le : start ≤ b
  past : ∀ q, start ≤ q → q < b → Arrived ps q
  delivered : List.Forall₂ (DeliversFirst ps) s.delivered (List.range' start (b - start))

namespace Mirrors

variable {start b : ℕ} {ps : List Packet} {s : Stream w}

theorem flushPass (h : Mirrors start ps b s) {buf : BufferRef}
    (hb : s.r.slots (slotOf w s.r.baseSeq) = some buf) :
    Mirrors start ps (b + 1) (flushPass conn isSnapshot false s buf) := by
  have hsize := w.size_pos
  have hfirst : firstCopy ps b = some buf := by rw [← h.filled b le_rfl (by omega), ← h.base, hb]
  have harrived : Arrived ps b := by
    by_contra hn
    rw [firstCopy_eq_none.2 hn] at hfirst
    cases hfirst
  constructor
  · rw [flushPass_fec, h.fec]
  · exact h.count.deliver hb flushPass_slots_false flushPass_seq flushPass_baseSeq flushPass_count
  · rw [flushPass_baseSeq, h.base, seqOf_succ]
  · intro q hq hlt
    rw [flushPass_slots_false, h.base]
    rcases Nat.lt_or_ge q (b + w.size) with hin | hout
    · have hne : slotOf w (seqOf q) ≠ slotOf w (seqOf b) := by
        intro he
        have := slotOf_seqOf_inj (b := b) (by omega) hin le_rfl (by omega) he
        omega
      rw [Function.update_of_ne hne, h.filled q (by omega) hin]
    · -- the slot that was emptied is now that of the number one window further
      obtain rfl : q = b + w.size := by omega
      rw [slotOf_seqOf_add, Function.update_self, eq_comm, firstCopy_eq_none]
      intro ha
      have := h.bounded _ ha
      omega
  · intro q ha
    have := h.bounded q ha
    omega
  · have := h.start_le
    omega
  · intro q hq hlt
    rcases Nat.lt_succ_iff_lt_or_eq.1 hlt with hlt | rfl
    · exact h.past q hq hlt
    · exact harrived
  · have hrange : List.range' start (b + 1 - start) = List.range' start (b - start) ++ [b] := by
      rw [Nat.succ_sub h.start_le, List.range'_concat]
      congr 2
      have := h.start_le
      omega
    rw [hrange, flushPass_delivered, h.count.inWindow.seq_base hb, h.base]
    exact List.rel_append h.delivered (.cons ⟨buf, hfirst, rfl⟩ .nil)

/-- A flush goes on to the first packet that has not arrived. -/
theorem flushConsecutive (h : Mirrors start ps b s) :
    ∃ b', Mirrors start ps b' (flushConsecutive conn isSnapshot s) ∧ ¬ Arrived ps b' := by
  have hstops := @CountInv.flushConsecutive_stops w conn isSnapshot _ _ h.count h.fec
  rw [flushConsecutive_none h.fec] at hstops ⊢
  obtain ⟨b', h'⟩ := @flushLoop_induct w conn isSnapshot false s
    (fun s => ∃ b', Mirrors start ps b' s)
    (fun _ _ ⟨b', h⟩ _ hb => ⟨b' + 1, h.flushPass hb⟩) ⟨b, h⟩ s.r.count.toNat
  refine ⟨b', h', ?_⟩
  have hsize := w.size_pos
  rw [← firstCopy_eq_none, ← h'.filled b' le_rfl (by omega), ← h'.base]
  by_contra hne
  obtain ⟨buf, hb⟩ := Option.ne_none_iff_exists'.1 hne
  rw [rtpReorderGet, if_pos (h'.count.inWindow.seq_base hb), hb] at hstops
  cases hstops

theorem delivers_append {ds : List Delivery} {qs : List ℕ} (h : List.Forall₂ (DeliversFirst ps) ds qs)
    (p : Packet) : List.Forall₂ (DeliversFirst (ps ++ [p])) ds qs := by
  refine h.imp fun d q ⟨buf, hq, hd⟩ => ⟨buf, ?_, hd⟩
  rw [firstCopy_append, hq]
  rfl

/-- A repeated packet changes nothing. -/
theorem repeated (h : Mirrors start ps b s) {p : Packet} (hp : Arrived ps p.index) :
    Mirrors start (ps ++ [p]) b s where
  fec := h.fec
  count := h.count
  base := h.base
  filled q hq hlt := by
    rw [h.filled q hq hlt]
    rcases eq_or_ne p.index q with rfl | hne
    · rw [firstCopy_append_of_arrived hp]
    · rw [firstCopy_append_of_ne hne]
  bounded := by
    rintro q ⟨p', hp', rfl⟩
    rcases List.mem_append.1 hp' with hp' | hp'
    · exact h.bounded _ ⟨p', hp', rfl⟩
    · rw [List.mem_singleton.1 hp']
      exact h.bounded _ hp
  start_le := h.start_le
  past q hq hlt := (h.past q hq hlt).append p
  delivered := delivers_append h.delivered p

/-- A packet within the window takes its slot. -/
theorem insertSlot (h : Mirrors start ps b s) {p : Packet} (hnew : ¬ Arrived ps p.index) (hle : b ≤ p.index)
    (hlt : p.index < b + w.size) :
    Mirrors start (ps ++ [p]) b { s with r := insertSlot s.r p.buf (seqOf p.index) } := by
  have hsize := w.size_le
  have hslot := h.filled _ hle hlt
  rw [firstCopy_eq_none.2 hnew] at hslot
  constructor
  · exact h.fec
  · refine h.count.insertSlot (by omega) ?_ (by simp [rtpReorderGet, hslot]) _
    rw [h.base, ahead_seqOf hle (by omega)]
    omega
  · exact (insertSlot_baseSeq ..).trans h.base
  · intro q hq hq'
    show (Rtp2httpd.insertSlot s.r p.buf (seqOf p.index)).slots _ = _
    rw [insertSlot_slots]
    rcases eq_or_ne p.index q with rfl | hne
    · rw [Function.update_self, firstCopy_append_self hnew]
    · have hne' : slotOf w (seqOf q) ≠ slotOf w (seqOf p.index) := fun he =>
        hne (slotOf_seqOf_inj hle hlt hq hq' he.symm)
      rw [Function.update_of_ne hne', h.filled q hq hq', firstCopy_append_of_ne hne]
  · rintro q ⟨p', hp', rfl⟩
    rcases List.mem_append.1 hp' with hp' | hp'
    · exact h.bounded _ ⟨p', hp', rfl⟩
    · rw [List.mem_singleton.1 hp']
      exact hlt
  · exact h.start_le
  · exact fun q hq hlt => (h.past q hq hlt).append p
  · exact delivers_append h.delivered p

theorem insertActive (h : Mirrors start ps b s) (hb : ¬ Arrived ps b) {p : Packet}
    (hstart : start ≤ p.index) (hnew : ¬ Arrived ps p.index → p.index < b + w.size)
    (hold : Arrived ps p.index → b ≤ p.index + 2 ^ 15) :
    ∃ b', Mirrors start (ps ++ [p]) b'
      (insertActive p.heap p.conn p.isSnapshot s p.buf (seqOf p.index)) ∧ ¬ Arrived (ps ++ [p]) b' := by
  have hsize := w.size_le
  have hpos := w.size_pos
  have hlt : p.index < b + w.size := by
    by_cases ha : Arrived ps p.index
    · exact h.bounded _ ha
    · exact hnew ha
  -- a packet is behind only if it is a repeated one
  have hbehind : p.index < b → Arrived ps p.index := fun hlt => h.past _ hstart hlt
  have hlate : p.index < b → 32768 ≤ ahead (seqOf p.index) s.r.baseSeq := by
    intro hlt
    have := hold (hbehind hlt)
    rw [h.base, ahead_seqOf_behind hlt (by omega)]
    omega
  have hahead : b ≤ p.index → ahead (seqOf p.index) s.r.baseSeq = p.index - b := by
    intro hle
    rw [h.base, ahead_seqOf hle (by omega)]
  have hmiss : p.index ≠ b → ¬ Arrived (ps ++ [p]) b := by
    intro hne
    rw [← firstCopy_eq_none, firstCopy_append_of_ne hne, firstCopy_eq_none]
    exact hb
  have hroom : ∀ {s'}, MadeRoom p.conn p.isSnapshot s (seqOf p.index) s' → s' = s ∧ b < p.index := by
    intro s' hroom
    rcases Nat.lt_or_ge p.index b with hlt' | hle
    · have := hlate hlt'
      cases hroom <;> omega
    · have := hahead hle
      cases hroom with
      | near => exact ⟨rfl, by omega⟩
      | far => omega
  have hcase := insertActive_cases p.heap p.conn p.isSnapshot s p.buf (seqOf p.index)
  generalize Rtp2httpd.insertActive p.heap p.conn p.isSnapshot s p.buf (seqOf p.index) = s₁ at hcase ⊢
  cases hcase with
  | expected heq =>
    have heq' : p.index = b := by
      rcases Nat.lt_or_ge p.index b with hlt' | hle
      · have := hlate hlt'
        rw [heq, ahead_self] at this
        omega
      · have := hahead hle
        rw [heq, ahead_self] at this
        omega
    exact (h.insertSlot (heq' ▸ hb) heq'.ge hlt).flushConsecutive
  | late hfar =>
    have hlt' : p.index < b := by
      by_contra hle
      have := hahead (by omega)
      omega
    exact ⟨b, h.repeated (hbehind hlt'), hmiss (by omega)⟩
  | duplicate hr hget =>
    obtain ⟨rfl, hlt'⟩ := hroom hr
    refine ⟨b, h.repeated ?_, hmiss (by omega)⟩
    obtain ⟨hsome, -⟩ := isSome_rtpReorderGet.1 hget
    rw [h.filled _ hlt'.le hlt] at hsome
    by_contra hn
    rw [firstCopy_eq_none.2 hn] at hsome
    cases hsome
  | stored hr hget =>
    obtain ⟨rfl, hlt'⟩ := hroom hr
    have hn : ¬ Arrived ps p.index := by
      rw [← firstCopy_eq_none, ← h.filled _ hlt'.le hlt]
      by_contra hne
      obtain ⟨buf, hslot⟩ := Option.ne_none_iff_exists'.1 hne
      have hseq := h.count.inWindow.seq_slotOf (by rw [hahead hlt'.le]; omega) hslot
      rw [rtpReorderGet, if_pos hseq, hslot] at hget
      cases hget
    have h' := h.insertSlot hn hlt'.le hlt
    rw [recoverBase_none p.heap h'.fec]
    exact ⟨b, h', hmiss (by omega)⟩

end Mirrors

/-! ### Collecting -/

/-- While packets are collected, each is in the slot of its number. -/
structure Collected (ps : List Packet) (s : Stream w) : Prop where
  fec : s.fec = none
  phase : s.r.phase = .collecting
  slots : ∀ i, s.r.slots i = (ps.find? fun p => slotOf w (seqOf p.index) = i).map Packet.buf
  seq : ∀ i p, ps.find? (fun p => slotOf w (seqOf p.index) = i) = some p → s.r.seq i = seqOf p.index
  exact : s.r.count.toNat = occupied s.r
  count : s.r.count.toNat = ps.length
  least : ∃ m, Arrived ps m ∧ (∀ p ∈ ps, m ≤ p.index) ∧ s.r.baseSeq = seqOf m
  delivered : s.delivered = []

namespace Collected

variable {ps : List Packet} {s : Stream w} {p : Packet}

theorem placed (h : Collected ps s) : Placed s.r := by
  intro i hi
  rw [h.slots i, Option.isSome_map] at hi
  obtain ⟨p, hp⟩ := Option.isSome_iff_exists.1 hi
  rw [h.seq i p hp]
  simpa using List.find?_some hp

/-- The slot of a packet less than a window away from all the others is free. -/
theorem slot_free (hnew : ∀ q ∈ ps, q.index ≠ p.index)
    (hspan : ∀ q ∈ ps, p.index < q.index + w.size ∧ q.index < p.index + w.size) :
    ps.find? (fun q => slotOf w (seqOf q.index) = slotOf w (seqOf p.index)) = none := by
  rw [List.find?_eq_none]
  intro q hq he
  obtain ⟨h₁, h₂⟩ := hspan q hq
  have heq := slotOf_seqOf_inj (b := min q.index p.index) (by omega) (by omega) (by omega) (by omega)
    (of_decide_eq_true he)
  exact hnew q hq heq

theorem storeSlot (h : Collected ps s) (hlt : ps.length < 8) (hnew : ∀ q ∈ ps, q.index ≠ p.index)
    (hspan : ∀ q ∈ ps, p.index < q.index + w.size ∧ q.index < p.index + w.size) :
    Collected (ps ++ [p]) { s with r := insertCollecting s.r p.buf (seqOf p.index), totalBytes := 0 } := by
  have hfree := slot_free hnew hspan
  have hslot : s.r.slots (slotOf w (seqOf p.index)) = none := by rw [h.slots, hfree]; rfl
  have hsize := w.size_le
  obtain ⟨m, ⟨pm, hpm, rfl⟩, hleast, hbase⟩ := h.least
  have hfind : ∀ i, (ps ++ [p]).find? (fun q => slotOf w (seqOf q.index) = i) =
      (ps.find? fun q => slotOf w (seqOf q.index) = i).or
        (if slotOf w (seqOf p.index) = i then some p else none) := by
    intro i
    rw [List.find?_append]
    by_cases hi : slotOf w (seqOf p.index) = i <;> simp [hi]
  have hcount : (s.r.count + 1).toNat = s.r.count.toNat + 1 := by
    have := h.count
    exact toNat_add_one (by omega)
  rw [insertCollecting_free hslot]
  refine ⟨h.fec, h.phase, fun i => ?_, fun i q hq => ?_, ?_, ?_, ?_, h.delivered⟩
  · rw [hfind]
    rcases eq_or_ne (slotOf w (seqOf p.index)) i with rfl | hne
    · simp [hfree]
    · simp [Function.update_of_ne hne.symm, h.slots i, hne]
  · rw [hfind] at hq
    rcases eq_or_ne (slotOf w (seqOf p.index)) i with rfl | hne
    · rw [hfree, if_pos rfl, Option.none_or, Option.some.injEq] at hq
      subst hq
      simp
    · rw [if_neg hne, Option.or_none] at hq
      simp [Function.update_of_ne hne.symm, h.seq i q hq]
  · have hocc : occupied (s.r.storeSlot p.buf (seqOf p.index)) = occupied s.r + 1 :=
      tally_fill (p := fun _ (_ : BufferRef) => true) hslot p.buf
    show (s.r.count + 1).toNat = occupied (s.r.storeSlot p.buf (seqOf p.index))
    rw [hcount, hocc, h.exact]
  · show (s.r.count + 1).toNat = _
    rw [hcount, h.count, List.length_append, List.length_singleton]
  · obtain ⟨h₁, h₂⟩ := hspan pm hpm
    dsimp only
    rw [hbase]
    rcases Nat.lt_or_ge p.index pm.index with hlt' | hle
    · refine ⟨p.index, ⟨p, by simp, rfl⟩, ?_, ?_⟩
      · intro q hq
        rcases List.mem_append.1 hq with hq | hq
        · have := hleast q hq
          omega
        · rw [List.mem_singleton.1 hq]
      · rw [if_pos (sdiff_neg.2 ?_)]
        rw [ahead_seqOf_behind hlt' (by omega)]
        omega
    · refine ⟨pm.index, ⟨pm, by simp [hpm], rfl⟩, ?_, ?_⟩
      · intro q hq
        rcases List.mem_append.1 hq with hq | hq
        · exact hleast q hq
        · rw [List.mem_singleton.1 hq]
          exact hle
      · rw [if_neg fun hneg => ?_]
        have := sdiff_neg.1 hneg
        rw [ahead_seqOf hle (by omega)] at this
        omega

theorem first {p : Packet} : Collected [p] (insertPacket startPlain p) := by
  have hslots : (insertPacket startPlain p).r.slots =
      Function.update (fun _ => none) (slotOf (.ofFec false) (seqOf p.index)) (some p.buf) := rfl
  have hseq : (insertPacket startPlain p).r.seq =
      Function.update (fun _ => 0) (slotOf (.ofFec false) (seqOf p.index)) (seqOf p.index) := rfl
  refine ⟨rfl, rfl, fun i => ?_, fun i q hq => ?_, ?_, rfl, ⟨p.index, ⟨p, by simp, rfl⟩, by simp, rfl⟩, rfl⟩
  · rw [hslots]
    rcases eq_or_ne (slotOf (.ofFec false) (seqOf p.index)) i with rfl | hne
    · simp
    · simp [Function.update_of_ne hne.symm, hne]
  · rw [hseq]
    have hi := List.find?_some hq
    have hmem := List.mem_of_find?_eq_some hq
    rw [List.mem_singleton.1 hmem] at hi ⊢
    rw [of_decide_eq_true hi, Function.update_self]
  · have hocc : occupied (insertPacket startPlain p).r = 1 := by
      unfold occupied
      rw [hslots, tally_fill rfl]
      simp
    rw [hocc]
    rfl

/-- Eight packets, the first of the stream among them: the ring mirrors them from there on. -/
theorem activate (h : Collected ps s) {start : ℕ} (hstart : Arrived ps start)
    (hle : ∀ p ∈ ps, start ≤ p.index) (hspan : ∀ p ∈ ps, p.index < start + w.size) :
    Mirrors start ps start { s with r := { s.r with phase := .active } } := by
  have hsize := w.size_le
  obtain ⟨m, ⟨pm, hpm, rfl⟩, hleast, hbase⟩ := h.least
  obtain ⟨p₀, hp₀, hp₀'⟩ := hstart
  have hm : pm.index = start := by
    have := hle pm hpm
    have := hleast p₀ hp₀
    omega
  have hforeign : foreign s.r = 0 := by
    refine tally_eq_zero.2 fun i buf hi => ?_
    rw [h.slots i] at hi
    obtain ⟨p, hp, -⟩ := Option.map_eq_some_iff.1 hi
    have h₁ := hle p (List.mem_of_find?_eq_some hp)
    have h₂ := hspan p (List.mem_of_find?_eq_some hp)
    rw [h.seq i p hp, hbase, hm, ahead_seqOf h₁ (by omega)]
    have := hspan p (List.mem_of_find?_eq_some hp)
    simp only [decide_eq_false_iff_not, not_le]
    omega
  refine ⟨h.fec, ⟨h.placed, h.exact.ge, ?_⟩, by rw [← hm]; exact hbase, fun q hq hlt => ?_, ?_, le_rfl, ?_, ?_⟩
  · show s.r.count.toNat + foreign s.r ≤ occupied s.r + 0
    rw [hforeign, h.exact]
  · show s.r.slots _ = _
    rw [h.slots, firstCopy]
    congr 1
    refine List.find?_congr fun p hp => decide_eq_decide.2 ⟨fun he => ?_, fun he => by rw [he]⟩
    exact slotOf_seqOf_inj (hle p hp) (hspan p hp) hq hlt he
  · rintro q ⟨p, hp, rfl⟩
    exact hspan p hp
  · intro q hq hlt
    omega
  · rw [Nat.sub_self, h.delivered]
    exact .nil

end Collected

/-! ### Runs -/

structure RepairInv (start : ℕ) (ps : List Packet) (s : Stream (.ofFec false)) : Prop where
  unstarted : ps = [] → s = startPlain
  collecting : 0 < ps.length → ps.length < 8 → Collected ps s
  active : 8 ≤ ps.length → s.r.phase = .active ∧ ∃ b, Mirrors start ps b s ∧ ¬ Arrived ps b

namespace RepairInv

variable {start n : ℕ} {ps pre post : List Packet} {p : Packet} {s : Stream (.ofFec false)}

theorem insertCollecting (h : BoundedReordering (.ofFec false) start n ps) (hps : ps = pre ++ p :: post)
    (hc : Collected pre s) (hlt : pre.length < 8) : RepairInv start (pre ++ [p]) (insertPacket s p) := by
  have htake : ps.take 8 = (pre ++ [p]) ++ post.take (8 - (pre ++ [p]).length) := by
    rw [hps, show pre ++ p :: post = (pre ++ [p]) ++ post by simp, List.take_append,
      List.take_of_length_le (by simp; omega)]
  have hmem : ∀ q ∈ pre ++ [p], q ∈ ps.take 8 := by
    intro q hq
    rw [htake]
    exact List.mem_append_left _ hq
  have hnew : ∀ q ∈ pre, q.index ≠ p.index := by
    intro q hq
    have := h.once
    rw [htake, List.map_append, List.map_append, List.append_assoc, List.nodup_append] at this
    exact this.2.2 _ (List.mem_map_of_mem hq) _ (by simp)
  have hspan : ∀ q ∈ pre, p.index < q.index + (Window.ofFec false).size ∧
      q.index < p.index + (Window.ofFec false).size := fun q hq =>
    ⟨h.span p (hmem p (by simp)) q (hmem q (List.mem_append_left _ hq)),
      h.span q (hmem q (List.mem_append_left _ hq)) p (hmem p (by simp))⟩
  have hstore := hc.storeSlot hlt hnew hspan
  have hcount := hstore.count
  rw [List.length_append, List.length_singleton] at hcount
  change (Rtp2httpd.insertCollecting s.r p.buf (seqOf p.index)).count.toNat = _ at hcount
  have hcollect : rtpReorderInitCollect = 8 := rfl
  show RepairInv start (pre ++ [p]) (rtpReorderInsert p.heap p.conn p.isSnapshot s p.buf (seqOf p.index))
  rw [rtpReorderInsert_collecting _ _ _ _ _ hc.phase]
  split
  · next hfull =>
    -- the eighth packet
    have hlen : (pre ++ [p]).length = 8 := by
      rw [List.length_append, List.length_singleton]
      omega
    have hall : ps.take 8 = pre ++ [p] := by rw [htake, hlen, Nat.sub_self, List.take_zero, List.append_nil]
    have hfirst := h.first
    rw [hall] at hfirst
    have hle : ∀ q ∈ pre ++ [p], start ≤ q.index := fun q hq =>
      ((h.fed q.index).1 ⟨q, List.mem_of_mem_take (hmem q hq), rfl⟩).1
    have hwin : ∀ q ∈ pre ++ [p], q.index < start + (Window.ofFec false).size := by
      obtain ⟨p₀, hp₀, rfl⟩ := hfirst
      exact fun q hq => h.span q (hmem q hq) p₀ (hmem p₀ hp₀)
    obtain ⟨b, hb⟩ := @Mirrors.flushConsecutive _ p.conn p.isSnapshot _ _ _ _ (hstore.activate hfirst hle hwin)
    refine ⟨fun he => by simp at he, fun _ hlt => by omega, fun _ => ⟨?_, b, hb⟩⟩
    rw [flushConsecutive_phase]
  · refine ⟨fun he => by simp at he, fun _ _ => hstore, fun hlen => ?_⟩
    rw [List.length_append, List.length_singleton] at hlen
    omega

theorem insertPacket (h : BoundedReordering (.ofFec false) start n ps) (hps : ps = pre ++ p :: post)
    (hinv : RepairInv start pre s) : RepairInv start (pre ++ [p]) (insertPacket s p) := by
  rcases Nat.eq_zero_or_pos pre.length with h0 | hpos
  · obtain rfl := List.length_eq_zero_iff.1 h0
    rw [hinv.unstarted rfl]
    exact ⟨nofun, fun _ _ => Collected.first, fun hlen => by simp at hlen⟩
  · rcases Nat.lt_or_ge pre.length 8 with hlt | hge
    · exact insertCollecting h hps (hinv.collecting hpos hlt) hlt
    · obtain ⟨hp, b, hm, hb⟩ := hinv.active hge
      have hin : start ≤ p.index := ((h.fed p.index).1 ⟨p, by rw [hps]; simp, rfl⟩).1
      have hnew : ¬ Arrived pre p.index → p.index < b + (Window.ofFec false).size := by
        intro hn
        by_contra hge'
        exact hb (h.displaced pre p post hps hn b hm.start_le (by omega))
      have hold : Arrived pre p.index → b ≤ p.index + 2 ^ 15 := fun ha =>
        h.repeated pre p post hps ha b hm.past
      have hm' : Mirrors start pre b { s with totalBytes := 0 } :=
        ⟨hm.fec, hm.count, hm.base, hm.filled, hm.bounded, hm.start_le, hm.past, hm.delivered⟩
      have hstep : Rtp2httpd.insertPacket s p = Rtp2httpd.insertActive p.heap p.conn p.isSnapshot
          { s with totalBytes := 0 } p.buf (seqOf p.index) := rtpReorderInsert_active _ _ _ _ _ hp
      refine ⟨fun he => by simp at he, fun _ hlt => ?_, fun _ => ⟨?_, ?_⟩⟩
      · rw [List.length_append] at hlt
        omega
      · rw [hstep, insertActive_phase]
        exact hp
      · rw [hstep]
        exact hm'.insertActive hb hin hnew hold

end RepairInv

theorem BoundedReordering.le_length {start n : ℕ} {ps : List Packet}
    (h : BoundedReordering w start n ps) : n ≤ ps.length := by
  have hsub : Finset.Ico start (start + n) ⊆ (ps.map Packet.index).toFinset := by
    intro q hq
    rw [Finset.mem_Ico] at hq
    obtain ⟨p, hp, rfl⟩ := (h.fed q).2 hq
    simp only [List.mem_toFinset, List.mem_map]
    exact ⟨p, hp, rfl⟩
  calc n = (Finset.Ico start (start + n)).card := by simp
    _ ≤ (ps.map Packet.index).toFinset.card := Finset.card_le_card hsub
    _ ≤ (ps.map Packet.index).length := List.toFinset_card_le _
    _ = ps.length := List.length_map ..

/-- Without FEC, packets whose reordering is bounded by the window are delivered completely, each once
and in order, and nothing is left in the ring. -/
theorem reorder_repairs_bounded_reordering {start n : ℕ} {ps : List Packet} (hn : 8 ≤ n)
    (h : BoundedReordering (.ofFec false) start n ps) :
    let s := ps.foldl insertPacket startPlain
    List.Forall₂ (DeliversFirst ps) s.delivered (List.range' start n) ∧
      (∀ i, s.r.slots i = none) ∧ s.r.count = 0 := by
  intro s
  have hrun : ∀ post, ps = ps ++ post → RepairInv start ps s := by
    refine @Run.invariant _ _ _ _ (fun pre s => ∀ post, ps = pre ++ post → RepairInv start pre s)
      (fun pre s p hinv post hps => ?_) [] (fun _ _ => ⟨fun _ => rfl, nofun, nofun⟩) ps
    rw [List.append_assoc] at hps
    exact (hinv (p :: post) hps).insertPacket h hps
  have hlen := h.le_length
  obtain ⟨-, b, hm, hb⟩ := (hrun [] (List.append_nil _).symm).active (by omega)
  have hbn : b = start + n := by
    have hle := hm.start_le
    rcases Nat.lt_trichotomy b (start + n) with hlt | heq | hgt
    · exact absurd ((h.fed b).2 ⟨hle, hlt⟩) hb
    · exact heq
    · have := ((h.fed _).1 (hm.past (start + n) (by omega) hgt)).2
      omega
  have hempty : ∀ i, s.r.slots i = none := by
    intro i
    by_contra hne
    obtain ⟨buf, hi⟩ := Option.ne_none_iff_exists'.1 hne
    obtain ⟨hslot, hwin⟩ := hm.count.inWindow i buf hi
    have hseq : s.r.seq i = seqOf (b + ahead (s.r.seq i) s.r.baseSeq) := by
      conv_lhs => rw [← add_ahead (s.r.seq i) s.r.baseSeq, hm.base]
      rw [seqOf, seqOf, BitVec.ofNat_add, hm.base]
      rfl
    have hfilled := hm.filled (b + ahead (s.r.seq i) s.r.baseSeq) (by omega) (by omega)
    rw [← hseq, hslot, hi, eq_comm] at hfilled
    have hn : ¬ Arrived ps (b + ahead (s.r.seq i) s.r.baseSeq) := fun ha => by
      have := ((h.fed _).1 ha).2
      omega
    rw [firstCopy_eq_none.2 hn] at hfilled
    cases hfilled
  refine ⟨?_, hempty, ?_⟩
  · have := hm.delivered
    rwa [hbn, Nat.add_sub_cancel_left] at this
  · have hocc : occupied s.r = 0 := tally_eq_zero.2 fun i buf hi => by rw [hempty i] at hi; cases hi
    have henough := hm.count.bounded
    rw [hocc] at henough
    exact BitVec.eq_of_toNat_eq (by simpa using (by omega : s.r.count.toNat = 0))

/-- Nine packets around the wrap of the numbers, neighbours swapped and the first one repeated. -/
def swappedPackets : List Packet :=
  [65534, 65533, 65536, 65535, 65537, 65539, 65538, 65540, 65533, 65541].map fun q =>
    { index := q, heap := fun _ => true, conn := ⟨fun _ => 1316, fun _ => 1316, fun _ => 0⟩,
      isSnapshot := false, buf := ⟨q, [], 12, 1316⟩ }

theorem arrived_swappedPackets (q : ℕ) : Arrived swappedPackets q ↔ 65533 ≤ q ∧ q < 65533 + 9 := by
  simp [Arrived, swappedPackets]
  omega

theorem swappedPackets_boundedReordering : BoundedReordering (.ofFec false) 65533 9 swappedPackets where
  fed := arrived_swappedPackets
  first := ⟨_, by simp [swappedPackets]; exact .inr (.inl rfl), rfl⟩
  once := by decide
  span := by decide
  displaced pre p post hps _ q hq hle := by
    -- all packets fit into one window
    have := ((arrived_swappedPackets p.index).1 ⟨p, by rw [hps]; simp, rfl⟩).2
    have : (Window.ofFec false).size = 32 := rfl
    omega
  repeated pre p post hps _ b hb := by
    have hp := ((arrived_swappedPackets p.index).1 ⟨p, by rw [hps]; simp, rfl⟩).1
    rcases Nat.lt_or_ge (65533 + 9) b with hlt | hge
    · obtain ⟨p', hp', he⟩ := hb (65533 + 9) (by omega) hlt
      have := ((arrived_swappedPackets _).1 ⟨p', by rw [hps]; exact List.mem_append_left _ hp', he⟩).2
      omega
    · omega

theorem reorder_repairs_swappedPackets :
    let s := swappedPackets.foldl insertPacket startPlain
    List.Forall₂ (DeliversFirst swappedPackets) s.delivered (List.range' 65533 9) ∧
      (∀ i, s.r.slots i = none) ∧ s.r.count = 0 :=
  reorder_repairs_bounded_reordering (by decide) swappedPackets_boundedReordering

end Rtp2httpd
