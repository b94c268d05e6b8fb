import DOpenWrt.Rtp2httpd.RtpFecRecovery

/-!
# The payload of a packet

Which packets `rtp_get_payload` accepts, said over the fields of the header, and what it returns for them. The model's
reads are checked, so that a result at all means that none was outside the packet.
-/

namespace Rtp2httpd

section
variable (p : List UInt8)

def rtpVersion : ℕ := (p.getD 0 0).toNat / 64

def HasPadding : Prop := (p.getD 0 0).toNat / 32 % 2 = 1

def HasExtension : Prop := (p.getD 0 0).toNat / 16 % 2 = 1

def csrcCount : ℕ := (p.getD 0 0).toNat % 16

def rtpPayloadType : ℕ := (p.getD 1 0).toNat % 128

instance : Decidable (HasPadding p) := inferInstanceAs (Decidable (_ = _))

instance : Decidable (HasExtension p) := inferInstanceAs (Decidable (_ = _))

/-- Where the list of contributing sources ends. -/
def csrcEnd : ℕ := 12 + 4 * csrcCount p

/-- The length of the extension in words, in network order. -/
def extensionWords : ℕ := (p.getD (csrcEnd p + 2) 0).toNat * 256 + (p.getD (csrcEnd p + 3) 0).toNat

def headersEnd : ℕ := if HasExtension p then csrcEnd p + (4 + 4 * extensionWords p) else csrcEnd p

def paddingCount : ℕ := if HasPadding p then (p.getD (p.length - 1) 0).toNat else 0

/-- The list of contributing sources and the extension fit. -/
def HeadersFit : Prop := csrcEnd p ≤ p.length ∧ (HasExtension p → csrcEnd p + 4 ≤ p.length) ∧ headersEnd p ≤ p.length

instance : Decidable (HeadersFit p) := inferInstanceAs (Decidable (_ ∧ _ ∧ _))

structure RtpAccepted : Prop where
  length : 12 ≤ p.length
  version : rtpVersion p = 2
  notFec : rtpPayloadType p ≠ fecPayloadType1 ∧ rtpPayloadType p ≠ fecPayloadType2
  fit : HeadersFit p
  payload : headersEnd p + paddingCount p < p.length

end

/-! ### The flags -/

section
variable (c : UInt8)

theorem byte_induction {P : UInt8 → Prop} (h : ∀ n < 256, P (UInt8.ofNat n)) : P c := by
  have hc := h c.toNat c.toNat_lt
  rwa [UInt8.ofNat_toNat] at hc

theorem version_iff : c &&& 0xC0 = 0x80 ↔ c.toNat / 64 = 2 :=
  @byte_induction c (fun c => c &&& 0xC0 = 0x80 ↔ c.toNat / 64 = 2) (by decide +kernel)

theorem padding_iff : c &&& 0x20 ≠ 0 ↔ c.toNat / 32 % 2 = 1 :=
  @byte_induction c (fun c => c &&& 0x20 ≠ 0 ↔ c.toNat / 32 % 2 = 1) (by decide +kernel)

theorem extension_iff : c &&& 0x10 ≠ 0 ↔ c.toNat / 16 % 2 = 1 :=
  @byte_induction c (fun c => c &&& 0x10 ≠ 0 ↔ c.toNat / 16 % 2 = 1) (by decide +kernel)

theorem csrc_eq : (c &&& 0x0F).toNat = c.toNat % 16 := by
  rw [UInt8.toNat_and]
  exact Nat.and_two_pow_sub_one_eq_mod c.toNat 4

theorem payloadType_eq : (c &&& 0x7F).toNat = c.toNat % 128 := by
  rw [UInt8.toNat_and]
  exact Nat.and_two_pow_sub_one_eq_mod c.toNat 7

end

/-! ### The parser -/

section
variable {p : List UInt8} {start size : ℕ} {seqn : BitVec 16}

theorem rtpPayloadStart_eq :
    rtpPayloadStart p (p.getD 0 0) = .ok (if HeadersFit p then some (headersEnd p) else none) := by
  have hcsrc : 12 + (p.getD 0 0 &&& 0x0F).toNat * 4 = csrcEnd p := by rw [csrc_eq, csrcEnd, csrcCount, Nat.mul_comm]
  rw [rtpPayloadStart]
  simp only [hcsrc, extension_iff]
  by_cases hfit : csrcEnd p ≤ p.length; swap
  · rw [if_pos (Nat.not_le.1 hfit), if_neg fun h => hfit h.1]; rfl
  rw [if_neg (Nat.not_lt.2 hfit)]
  by_cases hext : HasExtension p
  · have hext' : (p.getD 0 0).toNat / 16 % 2 = 1 := hext
    rw [if_pos hext']
    by_cases hfour : csrcEnd p + 4 ≤ p.length; swap
    · rw [if_pos (Nat.not_le.1 hfour), if_neg fun h => hfour (h.2.1 hext)]; rfl
    rw [if_neg (Nat.not_lt.2 hfour), be16At_ok (by omega)]
    have hwords : p[csrcEnd p + 2].toNat * 256 + p[csrcEnd p + 2 + 1].toNat = extensionWords p := by
      rw [extensionWords, List.getD_eq_getElem _ _ (by omega), List.getD_eq_getElem _ _ (by omega)]
    have hends : headersEnd p = csrcEnd p + (4 + 4 * extensionWords p) := if_pos hext
    have hdiv : extensionWords p > (p.length - csrcEnd p - 4) / 4 ↔ ¬ headersEnd p ≤ p.length := by
      rw [hends]
      omega
    simp only [bind, Except.bind, hwords, hdiv, ← hends]
    by_cases hlen : headersEnd p ≤ p.length
    · rw [if_neg (not_not.2 hlen), if_pos ⟨hfit, fun _ => hfour, hlen⟩]; rfl
    · rw [if_pos hlen, if_neg fun h => hlen h.2.2]; rfl
  · have hext' : ¬ (p.getD 0 0).toNat / 16 % 2 = 1 := hext
    have hends : headersEnd p = csrcEnd p := if_neg hext
    rw [if_neg hext', if_pos ⟨hfit, fun h => absurd h hext, hends ▸ hfit⟩, hends]; rfl

/-- What is decided once the header is read. -/
theorem rtpGetPayload_eq (h : 12 ≤ p.length) : rtpGetPayload p =
    if rtpVersion p ≠ 2 then .ok .notRtp
    else if rtpPayloadType p = fecPayloadType1 ∨ rtpPayloadType p = fecPayloadType2 then .ok .fec
    else
      have seqn := BitVec.ofNat 16 ((p.getD 2 0).toNat * 256 + (p.getD 3 0).toNat)
      if HeadersFit p ∧ headersEnd p + paddingCount p < p.length then
        .ok (.rtp (headersEnd p) (p.length - headersEnd p - paddingCount p) seqn)
      else .ok (.malformed seqn) := by
  have hseq : be16At p 2 = .ok ((p.getD 2 0).toNat * 256 + (p.getD 3 0).toNat) := by
    rw [be16At_ok (by omega), List.getD_eq_getElem _ _ (by omega), List.getD_eq_getElem _ _ (by omega)]
  have hlast : byteAt p (p.length - 1) = .ok (p.getD (p.length - 1) 0) := byteAt_eq (by omega)
  rw [rtpGetPayload, if_neg (Nat.not_lt.2 h), byteAt_eq (show 0 < p.length by omega),
    byteAt_eq (show 1 < p.length by omega)]
  simp only [bind, Except.bind, pure, Except.pure, ne_eq, version_iff, payloadType_eq, hseq, rtpPayloadStart_eq]
  rw [rtpVersion, rtpPayloadType]
  split
  · rfl
  split
  · rfl
  by_cases hfit : HeadersFit p; swap
  · rw [if_neg hfit, if_neg fun h => hfit h.1]
  rw [if_pos hfit]
  have hbound (n : ℕ) : ((p.length : ℤ) - headersEnd p - n ≤ 0 ∨
      (headersEnd p : ℤ) + ((p.length : ℤ) - headersEnd p - n) > p.length) ↔ ¬ headersEnd p + n < p.length := by
    have := hfit.2.2
    omega
  have hsize (n : ℕ) : ((p.length : ℤ) - headersEnd p - n).toNat = p.length - headersEnd p - n := by omega
  by_cases hpadding : HasPadding p
  · have hflag : ¬ (p.getD 0 0 &&& 0x20 = 0) := (padding_iff _).2 hpadding
    have hcount : paddingCount p = (p.getD (p.length - 1) 0).toNat := if_pos hpadding
    simp only [hflag, not_false_eq_true, if_true, hlast, hbound, hsize, ← hcount]
    simp only [ite_not, hfit, true_and]
  · have hflag : p.getD 0 0 &&& 0x20 = 0 := not_not.1 fun h => hpadding ((padding_iff _).1 h)
    have hcount : paddingCount p = 0 := if_neg hpadding
    simp only [hflag, not_true_eq_false, if_false, UInt8.toNat_zero, hbound, hsize, hcount]
    simp only [ite_not, hfit, true_and]

/-- A packet is accepted with these values and no others. -/
theorem rtpGetPayload_iff : rtpGetPayload p = .ok (.rtp start size seqn) ↔ RtpAccepted p ∧ start = headersEnd p ∧
    size = p.length - headersEnd p - paddingCount p ∧
    seqn = BitVec.ofNat 16 ((p.getD 2 0).toNat * 256 + (p.getD 3 0).toNat) := by
  rcases Nat.lt_or_ge p.length 12 with hshort | h
  · have hnot : rtpGetPayload p = .ok .notRtp := by rw [rtpGetPayload, if_pos hshort]; rfl
    rw [hnot]
    exact iff_of_false (fun h => absurd h (by simp)) fun h => absurd h.1.length (Nat.not_le.2 hshort)
  rw [rtpGetPayload_eq h]
  split
  · next hversion => exact iff_of_false (fun h => absurd h (by simp)) fun h => hversion h.1.version
  · next hversion =>
    split
    · next hfec => exact iff_of_false (fun h => absurd h (by simp)) fun h => hfec.elim h.1.notFec.1 h.1.notFec.2
    · next hfec =>
      dsimp only
      split
      · next hfit =>
        have haccepted : RtpAccepted p := ⟨h, not_not.1 hversion, not_or.1 hfec, hfit.1, hfit.2⟩
        rw [Except.ok.injEq, RtpGetPayload.rtp.injEq, and_iff_right haccepted]
        exact ⟨fun h => ⟨h.1.symm, h.2.1.symm, h.2.2.symm⟩, fun h => ⟨h.1.symm, h.2.1.symm, h.2.2.symm⟩⟩
      · next hfit =>
        exact iff_of_false (fun h => absurd h (by simp)) fun h => hfit ⟨h.1.fit, h.1.payload⟩

/-- No read is outside the packet. -/
theorem rtpGetPayload_reads (p : List UInt8) : ∃ result, rtpGetPayload p = .ok result := by
  rcases Nat.lt_or_ge p.length 12 with hshort | h
  · exact ⟨.notRtp, by rw [rtpGetPayload, if_pos hshort]; rfl⟩
  · rw [rtpGetPayload_eq h]
    split
    · exact ⟨_, rfl⟩
    split
    · exact ⟨_, rfl⟩
    dsimp only
    split
    · exact ⟨_, rfl⟩
    · exact ⟨_, rfl⟩

/-- The headers, the payload and the padding make up the packet. -/
theorem RtpAccepted.split (h : RtpAccepted p) (hstart : start = headersEnd p)
    (hsize : size = p.length - headersEnd p - paddingCount p) :
    p = p.take (headersEnd p) ++ (p.drop start).take size ++ p.drop (p.length - paddingCount p) := by
  have hpayload := h.payload
  have hend : p.length - paddingCount p = start + size := by omega
  rw [hend, ← List.drop_drop, List.append_assoc, List.take_append_drop, ← hstart, List.take_append_drop]

end

/-- Of the `recv_len` bytes of a packet, `rtp_get_payload` reads no byte behind the last, accepts the packet if and only if
its version is 2, it is not a parity packet, its headers fit and there is a payload before the padding, and returns what is
between the headers and the padding. -/
theorem rtpGetPayload_exact (p : List UInt8) :
    (∃ result, rtpGetPayload p = .ok result) ∧
    ((∃ start size seqn, rtpGetPayload p = .ok (.rtp start size seqn)) ↔ RtpAccepted p) ∧
    ∀ start size seqn, rtpGetPayload p = .ok (.rtp start size seqn) →
      start = headersEnd p ∧ 0 < size ∧ start + size + paddingCount p = p.length ∧
      p = p.take (headersEnd p) ++ (p.drop start).take size ++ p.drop (p.length - paddingCount p) := by
  refine ⟨rtpGetPayload_reads p, ⟨?_, fun h => ⟨_, _, _, rtpGetPayload_iff.2 ⟨h, rfl, rfl, rfl⟩⟩⟩, ?_⟩
  · rintro ⟨start, size, seqn, h⟩
    exact (rtpGetPayload_iff.1 h).1
  · intro start size seqn h
    obtain ⟨haccepted, hstart, hsize, -⟩ := rtpGetPayload_iff.1 h
    have hpayload := haccepted.payload
    exact ⟨hstart, by omega, by omega, haccepted.split hstart hsize⟩

/-- An extension of one word and two bytes of padding. -/
example : rtpGetPayload ([0xB0, 33, 0, 7, 0, 0, 0, 0, 0, 0, 0, 0, 0xBE, 0xDE, 0, 1, 1, 2, 3, 4, 0x47, 0, 2]) =
    .ok (.rtp 20 1 7) := by
  decide +kernel

end Rtp2httpd
