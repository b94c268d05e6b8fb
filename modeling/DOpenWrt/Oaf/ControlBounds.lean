import DOpenWrt.Oaf.ControlInput

/-!
# Control input at its bounds

The text of the accepted writes is followed by a NUL unless it fills the buffer. A message is read inside the received
bytes exactly when it holds what its header announces, or the text of a feature ends in it.
-/

namespace Oaf

/-! ### The device -/

section
variable {file file' : AfCdevFile} {text : List UInt8}

/-- The buffer is the text, and zero behind it. -/
structure Filled (file : AfCdevFile) (text : List UInt8) : Prop where
  size_eq : file.size = text.length
  buf_eq : file.buf = text ++ List.replicate (cdevBufLen - text.length) 0

theorem afCdevOpen_filled : Filled afCdevOpen [] where
  size_eq := rfl
  buf_eq := by rw [afCdevOpen, List.length_nil, Nat.sub_zero, List.nil_append]

theorem Filled.length_le (h : Filled file text) : text.length ≤ cdevBufLen := h.size_eq ▸ file.size_le

theorem Filled.write {buffer : List UInt8} {readable n : ℕ} (h : Filled file text)
    (hwrite : afCdevWrite file buffer readable = (file', some n)) : Filled file' (text ++ buffer) := by
  rw [afCdevWrite] at hwrite
  split at hwrite
  · exact absurd (Prod.mk.inj hwrite).2.symm (Option.some_ne_none _)
  next hroom =>
  dsimp only at hwrite
  split at hwrite
  · exact absurd (Prod.mk.inj hwrite).2.symm (Option.some_ne_none _)
  next hreadable =>
  have hcopied : copied buffer readable = buffer := by
    have hle : buffer.length ≤ readable := Nat.le_of_not_lt hreadable
    rw [copied, List.take_of_length_le hle, Nat.sub_eq_zero_of_le hle, List.replicate_zero, List.append_nil]
  have hsize := h.size_eq
  rw [← (Prod.mk.inj hwrite).1]
  refine ⟨?_, ?_⟩
  · change file.size + buffer.length = _
    rw [hsize, List.length_append]
  · change overwrite file.buf file.size (copied buffer readable) = _
    have hdrop : (text ++ List.replicate (cdevBufLen - text.length) (0 : UInt8)).drop (text.length + buffer.length) =
        List.replicate (cdevBufLen - (text ++ buffer).length) 0 := by
      rw [List.drop_append, List.drop_replicate, List.drop_of_length_le (by omega), List.nil_append,
        List.length_append]
      congr 1
      omega
    rw [overwrite, hcopied, h.buf_eq, hsize, hdrop, List.take_left]

theorem Filled.run {writes : List (List UInt8 × ℕ)} (h : Filled file text)
    (hrun : acceptedWrites file writes = some file') : Filled file' (text ++ (writes.map Prod.fst).flatten) := by
  induction writes generalizing file text with
  | nil =>
    rw [← Option.some.inj hrun, List.map_nil, List.flatten_nil, List.append_nil]
    exact h
  | cons write writes ih =>
    rw [acceptedWrites] at hrun
    split at hrun
    · next hwrite =>
      rw [List.map_cons, List.flatten_cons, ← List.append_assoc]
      exact ih (h.write hwrite) hrun
    · exact absurd hrun.symm (Option.some_ne_none _)

/-- The text is handed over with a NUL unless it fills the buffer. -/
theorem Filled.handedOver_iff (h : Filled file text) : HandedOver file text ↔ text.length ≠ cdevBufLen := by
  have htake : file.buf.take file.size = text := by rw [h.buf_eq, h.size_eq, List.take_left]
  have hlength := h.length_le
  have hbuf := file.buf_length
  rw [HandedOver, and_iff_right h.size_eq, and_iff_right htake]
  constructor
  · intro hnul heq
    obtain ⟨hlt, -⟩ := List.getElem?_eq_some_iff.1 hnul
    have := h.size_eq
    omega
  · intro hne
    rw [h.buf_eq, h.size_eq, List.getElem?_append_right (Nat.le_refl _), Nat.sub_self]
    exact List.getElem?_replicate_of_lt (by omega)

end

/-! ### Netlink -/

section
variable {bigEndian : Bool} {skb : List UInt8}

theorem not_ok_error {α : Type} {fault : DpiFault} : ¬∃ a, (.error fault : Except DpiFault α) = .ok a := by
  rintro ⟨a, h⟩
  cases h

theorem readInt_eq (pos : ℕ) : readInt bigEndian skb pos =
    if pos + 4 ≤ skb.length then .ok (intFrom bigEndian skb pos) else .error .read := rfl

/-- `strncpy` stays inside when the bytes are there, or a NUL ends the text before. -/
theorem strncpyFrom_ok {pos n : ℕ} (hn : 0 < n) :
    (∃ text, strncpyFrom skb pos n = .ok text) ↔ pos + n ≤ skb.length ∨ 0 ∈ skb.drop pos := by
  induction n generalizing pos with
  | zero => exact absurd hn (Nat.lt_irrefl 0)
  | succ n ih =>
    rw [strncpyFrom]
    by_cases hpos : pos < skb.length
    · have hrd : rd skb pos = .ok skb[pos] := by rw [rd, List.getElem?_eq_getElem hpos]
      have hdrop : skb.drop pos = skb[pos] :: skb.drop (pos + 1) := List.drop_eq_getElem_cons hpos
      rw [hrd, hdrop]
      by_cases hzero : skb[pos] = 0
      · refine iff_of_true ⟨[], ?_⟩ (.inr (hzero ▸ List.mem_cons_self))
        exact if_pos hzero
      · have hmem : (0 ∈ skb[pos] :: skb.drop (pos + 1)) ↔ 0 ∈ skb.drop (pos + 1) :=
          ⟨fun h => (List.mem_cons.1 h).resolve_left (Ne.symm hzero), List.mem_cons_of_mem _⟩
        have hstep : (∃ text, (if skb[pos] = 0 then (pure [] : Except DpiFault (List UInt8)) else do
            let text ← strncpyFrom skb (pos + 1) n
            return skb[pos] :: text) = .ok text) ↔ ∃ text, strncpyFrom skb (pos + 1) n = .ok text := by
          rw [if_neg hzero]
          cases strncpyFrom skb (pos + 1) n with
          | error fault => exact iff_of_false not_ok_error not_ok_error
          | ok text => exact iff_of_true ⟨_, rfl⟩ ⟨_, rfl⟩
        refine hstep.trans ?_
        rw [hmem]
        cases n with
        | zero => exact iff_of_true ⟨[], rfl⟩ (.inl (by omega))
        | succ n => rw [ih (Nat.succ_pos n), Nat.add_right_comm, Nat.add_assoc pos]
    · have hrd : rd skb pos = .error .read := by rw [rd, List.getElem?_eq_none (Nat.le_of_not_lt hpos)]
      rw [hrd, List.drop_of_length_le (Nat.le_of_not_lt hpos)]
      refine iff_of_false not_ok_error fun h => ?_
      rcases h with h | h
      · omega
      · exact List.not_mem_nil h

/-! ### The messages that fit -/

/-- What the header of a message announces. -/
def announced (bigEndian : Bool) (skb : List UInt8) : ℤ := (intFrom bigEndian skb (nlmsgHdrlen + 4)).toInt

/-- The feature that the message announces lies in it, or ends in it with a NUL. -/
def FeatureFits (bigEndian : Bool) (skb : List UInt8) : Prop :=
  (nlmsgHdrlen + sizeofAfMsgHdr : ℕ) + announced bigEndian skb ≤ skb.length ∨
    0 ∈ skb.drop (nlmsgHdrlen + sizeofAfMsgHdr + sizeofAfMsg)

/-- The message holds its action; the feature of a message that adds one fits. -/
def ActionFits (bigEndian : Bool) (skb : List UInt8) : Prop :=
  nlmsgHdrlen + sizeofAfMsgHdr + sizeofAfMsg ≤ skb.length ∧
  (intFrom bigEndian skb (nlmsgHdrlen + sizeofAfMsgHdr) = 1 →
    announced bigEndian skb - sizeofAfMsg ≤ 0 ∨ maxFeatureLineLen ≤ announced bigEndian skb - sizeofAfMsg ∨
      FeatureFits bigEndian skb)

/-- The message is too short to be looked at, or holds each part of it that the parts before lead to. -/
def MessageFits (bigEndian : Bool) (skb : List UInt8) : Prop :=
  nlmsgTotalSize ≤ skb.length →
    nlmsgHdrlen + 4 ≤ skb.length ∧
    (intFrom bigEndian skb nlmsgHdrlen = afMagic →
      nlmsgHdrlen + sizeofAfMsgHdr ≤ skb.length ∧
      (sizeofAfMsg ≤ announced bigEndian skb → announced bigEndian skb < maxOafNetlinkMsgLen →
        ActionFits bigEndian skb))

theorem bind_ok_iff {α β : Type} {c : Prop} [Decidable c] {a : α} {f : α → Except DpiFault β} :
    (∃ b, ((if c then .ok a else .error .read : Except DpiFault α) >>= f) = .ok b) ↔ c ∧ ∃ b, f a = .ok b := by
  by_cases h : c
  · rw [if_pos h, and_iff_right h]; rfl
  · rw [if_neg h]
    exact iff_of_false not_ok_error fun hc => h hc.1

theorem ite_ok_iff {α : Type} {c : Prop} [Decidable c] {a : α} {x : Except DpiFault α} :
    (∃ b, (if c then pure a else x) = .ok b) ↔ (¬c → ∃ b, x = .ok b) := by
  by_cases h : c
  · rw [if_pos h]
    exact iff_of_true ⟨a, rfl⟩ fun hnot => absurd h hnot
  · rw [if_neg h]
    exact ⟨fun hx _ => hx, fun hx => hx h⟩

theorem addFeature_ok (data : ℕ) (len : ℤ) : (∃ msg, afAddFeatureMsgHandle skb data len = .ok msg) ↔
    (len ≤ 0 ∨ maxFeatureLineLen ≤ len ∨ (data : ℤ) + len ≤ skb.length ∨ 0 ∈ skb.drop data) := by
  rw [afAddFeatureMsgHandle, ite_ok_iff, not_or, ← or_assoc]
  by_cases h : len ≤ 0 ∨ maxFeatureLineLen ≤ len
  · exact iff_of_true (fun hnot => absurd h (not_or.2 hnot)) (.inl h)
  · rw [or_iff_right h, forall_prop_of_true (not_or.1 h)]
    have hpos : 0 < len.toNat := by
      have := (not_or.1 h).1
      omega
    have hbound : data + len.toNat ≤ skb.length ↔ (data : ℤ) + len ≤ skb.length := by omega
    rw [← hbound, ← strncpyFrom_ok hpos]
    cases strncpyFrom skb data len.toNat with
    | error fault =>
      exact iff_of_false not_ok_error
        not_ok_error
    | ok text => exact iff_of_true ⟨_, rfl⟩ ⟨_, rfl⟩

theorem userMsg_ok (len : ℤ) : (∃ msg, oafUserMsgHandle bigEndian skb (nlmsgHdrlen + sizeofAfMsgHdr) len = .ok msg) ↔
    (sizeofAfMsg ≤ len → nlmsgHdrlen + sizeofAfMsgHdr + sizeofAfMsg ≤ skb.length ∧
      (intFrom bigEndian skb (nlmsgHdrlen + sizeofAfMsgHdr) = 1 → len - sizeofAfMsg ≤ 0 ∨
        maxFeatureLineLen ≤ len - sizeofAfMsg ∨ (nlmsgHdrlen + sizeofAfMsgHdr : ℕ) + len ≤ skb.length ∨
        0 ∈ skb.drop (nlmsgHdrlen + sizeofAfMsgHdr + sizeofAfMsg))) := by
  rw [oafUserMsgHandle, ite_ok_iff, not_lt, readInt_eq, bind_ok_iff]
  refine forall_congr' fun _ => and_congr_right fun _ => ?_
  rw [ite_ok_iff]
  by_cases hadd : intFrom bigEndian skb (nlmsgHdrlen + sizeofAfMsgHdr) = 1
  · have hinit : ¬intFrom bigEndian skb (nlmsgHdrlen + sizeofAfMsgHdr) = 0 := by rw [hadd]; decide
    have hbound : ((nlmsgHdrlen + sizeofAfMsgHdr + sizeofAfMsg : ℕ) : ℤ) + (len - sizeofAfMsg) =
        (nlmsgHdrlen + sizeofAfMsgHdr : ℕ) + len := by
      push_cast; omega
    rw [forall_prop_of_true hinit, forall_prop_of_true hadd, if_pos hadd, addFeature_ok, hbound]
  · refine iff_of_true (fun _ => ?_) fun h => absurd h hadd
    rw [if_neg hadd]
    split
    · exact ⟨_, rfl⟩
    · exact ⟨_, rfl⟩

theorem oafMsgRcv_ok : (∃ msg, oafMsgRcv bigEndian skb = .ok msg) ↔ MessageFits bigEndian skb := by
  rw [oafMsgRcv, MessageFits]
  by_cases htotal : nlmsgTotalSize ≤ skb.length
  · rw [if_pos htotal, forall_prop_of_true htotal, readInt_eq, bind_ok_iff]
    refine and_congr_right fun _ => ?_
    rw [ite_ok_iff, not_not, readInt_eq, bind_ok_iff]
    refine forall_congr' fun _ => and_congr_right fun _ => ?_
    rw [ite_ok_iff]
    change (¬(announced bigEndian skb ≤ 0 ∨ maxOafNetlinkMsgLen ≤ announced bigEndian skb) → ∃ msg,
      oafUserMsgHandle bigEndian skb (nlmsgHdrlen + sizeofAfMsgHdr) (announced bigEndian skb) = .ok msg) ↔ _
    rw [userMsg_ok, not_or, not_le, not_le]
    constructor
    · exact fun h hsize hmax => h ⟨lt_of_lt_of_le (by decide) hsize, hmax⟩ hsize
    · exact fun h hlen hsize => h hsize hlen.2
  · rw [if_neg htotal]
    exact iff_of_true ⟨_, rfl⟩ fun h => absurd h htotal

end

/-- Accepted writes are handed over with a NUL unless they fill the buffer, and a message is read inside the received
bytes exactly when it fits. -/
theorem control_input_bounded (bigEndian : Bool) (writes : List (List UInt8 × ℕ)) (file : AfCdevFile) (skb : List UInt8)
    (hwrites : acceptedWrites afCdevOpen writes = some file) :
    (HandedOver file (writes.map Prod.fst).flatten ↔ (writes.map Prod.fst).flatten.length ≠ cdevBufLen) ∧
    ((∃ msg, oafMsgRcv bigEndian skb = .ok msg) ↔ MessageFits bigEndian skb) := by
  have hfilled := afCdevOpen_filled.run hwrites
  rw [List.nil_append] at hfilled
  exact ⟨hfilled.handedOver_iff, oafMsgRcv_ok⟩

/-! ### At the bounds -/

/-- A message of an action without data, whose header announces 100 bytes. -/
def shortMessage : List UInt8 := List.replicate nlmsgHdrlen 0 ++ [0xd0, 0xc0, 0xb0, 0xa0, 100, 0, 0, 0, 1, 0, 0, 0]

/-- A text as long as the buffer. -/
def fullText : List UInt8 := List.replicate cdevBufLen 0x20

theorem length_fullText : fullText.length = cdevBufLen := List.length_replicate

/-- A buffer that has room and can be read is accepted. -/
theorem afCdevWrite_accepted {file : AfCdevFile} {buffer : List UInt8}
    (h : file.size + buffer.length ≤ cdevBufLen) :
    ∃ file', afCdevWrite file buffer buffer.length = (file', some buffer.length) ∧
      file'.size = file.size + buffer.length := by
  rw [afCdevWrite, dif_neg (Nat.not_lt_of_le h), if_neg (Nat.lt_irrefl _)]
  exact ⟨_, rfl, rfl⟩

theorem fullText_accepted : ∃ file, acceptedWrites afCdevOpen [(fullText, cdevBufLen)] = some file := by
  have hroom : afCdevOpen.size + fullText.length ≤ cdevBufLen := by
    rw [length_fullText]
    exact Nat.le_of_eq (Nat.zero_add _)
  obtain ⟨file, hwrite, -⟩ := afCdevWrite_accepted hroom
  rw [length_fullText] at hwrite
  rw [acceptedWrites, hwrite]
  exact ⟨file, rfl⟩

/-- A text that fills the buffer is accepted and handed over without a NUL; the feature of a message is read behind its
last byte. -/
theorem control_input_overrun :
    (∃ file, acceptedWrites afCdevOpen [(fullText, cdevBufLen)] = some file ∧ file.buf[file.size]? = none) ∧
      oafMsgRcv false shortMessage = .error .read := by
  refine ⟨?_, by decide +kernel⟩
  obtain ⟨file, hfile⟩ := fullText_accepted
  have hfilled := afCdevOpen_filled.run hfile
  have hsize : file.size = cdevBufLen := by
    have hsize := hfilled.size_eq
    rw [List.map_cons, List.map_nil, List.flatten_singleton, List.nil_append] at hsize
    exact hsize.trans length_fullText
  refine ⟨file, hfile, List.getElem?_eq_none ?_⟩
  rw [file.buf_length, hsize]

/-! ### A text in two writes -/

/-- `{"op`. -/
def opHead : List UInt8 := [0x7b, 0x22, 0x6f, 0x70]

/-- `":1}`. -/
def opTail : List UInt8 := [0x22, 0x3a, 0x31, 0x7d]

theorem opWrites_accepted : ∃ file, acceptedWrites afCdevOpen [(opHead, 4), (opTail, 4)] = some file := by
  obtain ⟨file, hfile, hsize⟩ := afCdevWrite_accepted (show afCdevOpen.size + opHead.length ≤ cdevBufLen by decide)
  have hroom : file.size + opTail.length ≤ cdevBufLen := by
    rw [hsize]
    decide
  obtain ⟨file', hfile', -⟩ := afCdevWrite_accepted hroom
  have hhead : afCdevWrite afCdevOpen opHead 4 = (file, some opHead.length) := hfile
  have htail : afCdevWrite file opTail 4 = (file', some opTail.length) := hfile'
  rw [acceptedWrites, hhead]
  dsimp only
  rw [acceptedWrites, htail]
  exact ⟨file', rfl⟩

/-- A message that adds the feature `1 a:[]`, all of it received. -/
def addMessage : List UInt8 := List.replicate nlmsgHdrlen 0 ++
  [0xd0, 0xc0, 0xb0, 0xa0, 10, 0, 0, 0, 1, 0, 0, 0, 0x31, 0x20, 0x61, 0x3a, 0x5b, 0x5d]

/-- Both writes are handed over with a NUL behind them, and the feature fits. -/
theorem control_input_bounded_op :
    (∃ file, acceptedWrites afCdevOpen [(opHead, 4), (opTail, 4)] = some file ∧
      HandedOver file [0x7b, 0x22, 0x6f, 0x70, 0x22, 0x3a, 0x31, 0x7d]) ∧
    oafMsgRcv false addMessage = .ok (.addFeature [0x31, 0x20, 0x61, 0x3a, 0x5b, 0x5d]) ∧
    MessageFits false addMessage := by
  obtain ⟨file, hfile⟩ := opWrites_accepted
  have hfeature : oafMsgRcv false addMessage = .ok (.addFeature [0x31, 0x20, 0x61, 0x3a, 0x5b, 0x5d]) := by
    decide +kernel
  obtain ⟨hdevice, hmessage⟩ := control_input_bounded false [(opHead, 4), (opTail, 4)] file addMessage hfile
  exact ⟨⟨file, hfile, hdevice.2 (by decide)⟩, hfeature, hmessage.1 ⟨_, hfeature⟩⟩

end Oaf
