import DOpenWrt.Lib.Except
import DOpenWrt.Rtp2httpd.Snapshot

/-!
# TS packets of a snapshot

What the snapshot code finds out about a TS packet depends on its 188 bytes alone, and it reads no others, except that
of a PES header it asks for six bytes and reads nine.
-/

namespace Rtp2httpd.Snapshot

/-- A TS packet. -/
structure TsPacket where
  bytes : List UInt8
  length_eq : bytes.length = tsPacketSize
  sync : bytes.head? = some tsSyncByte

/-! ### Reads inside a packet -/

/-- The computation comes to the same result whatever follows the packet: it reads nothing else. -/
def Settled {α : Type} (p : TsPacket) (f : List UInt8 → Except SnapshotFault α) : Prop :=
  ∃ a, ∀ rest, f (p.bytes ++ rest) = .ok a

section
variable {α β : Type} {p : TsPacket} {f g : List UInt8 → Except SnapshotFault α} {i : Nat}

theorem Settled.pure (a : α) : Settled p fun _ => Pure.pure a := ⟨a, fun _ => rfl⟩

theorem Settled.bind {k : α → List UInt8 → Except SnapshotFault β} (hf : Settled p f) (hk : ∀ a, Settled p (k a)) :
    Settled p fun ts => f ts >>= fun a => k a ts := by
  obtain ⟨a, ha⟩ := hf
  obtain ⟨b, hb⟩ := hk a
  refine ⟨b, fun rest => ?_⟩
  dsimp only
  rw [ha rest]
  exact hb rest

theorem Settled.ite {c : Prop} [Decidable c] (hf : c → Settled p f) (hg : ¬ c → Settled p g) :
    Settled p fun ts => if c then f ts else g ts := by
  by_cases hc : c
  · simp only [if_pos hc]
    exact hf hc
  · simp only [if_neg hc]
    exact hg hc

theorem tsByte_append (h : i < tsPacketSize) (rest : List UInt8) :
    tsByte (p.bytes ++ rest) i = .ok (p.bytes.getD i 0) := by
  have hi : i < p.bytes.length := p.length_eq ▸ h
  rw [tsByte, List.getElem?_append_left hi, List.getD_eq_getElem?_getD, List.getElem?_eq_getElem hi]
  rfl

theorem settled_tsByte (h : i < tsPacketSize) : Settled p fun ts => tsByte ts i := ⟨_, tsByte_append h⟩

theorem settled_tsPidAt (h : i + 1 < tsPacketSize) : Settled p fun ts => tsPidAt ts i := by
  unfold tsPidAt
  exact .bind (settled_tsByte (by omega)) fun hi => .bind (settled_tsByte h) fun lo => .pure _

theorem settled_tsPayloadStart : Settled p tsPayloadStart := by
  unfold tsPayloadStart
  refine .bind (settled_tsByte (by decide)) fun control => .ite (fun _ => ?_) fun _ => .pure _
  exact .bind (settled_tsByte (by decide)) fun adaptationLength => .pure _

theorem settled_patPrograms {left : Nat} (h : i + 4 * left ≤ tsPacketSize) :
    Settled p fun ts => patPrograms ts left i := by
  induction left generalizing i with
  | zero => exact .pure 0
  | succ left ih =>
    simp only [patPrograms]
    refine .bind (settled_tsByte (by omega)) fun hi => .bind (settled_tsByte (by omega)) fun lo =>
      .bind (settled_tsPidAt (by omega)) fun pmtPid => .ite (fun _ => .pure _) fun _ => ?_
    exact ih (by omega)

theorem settled_patTable (start : Nat) : Settled p fun ts => patTable ts start := by
  unfold patTable
  refine .ite (fun _ => .pure 0) fun hfits => .bind (settled_tsByte (by omega)) fun tableId =>
    .ite (fun _ => .pure 0) fun _ => .bind (settled_tsByte (by omega)) fun hi => .bind (settled_tsByte (by omega))
      fun lo => .ite (fun _ => .pure 0) fun hsection => ?_
  exact settled_patPrograms (by omega)

theorem settled_extractPmtPidFromPat : Settled p extractPmtPidFromPat := by
  unfold extractPmtPidFromPat
  refine .bind (settled_tsByte (by decide)) fun sync => .ite (fun _ => .pure 0) fun _ =>
    .bind (settled_tsPidAt (by decide)) fun pid => .ite (fun _ => .pure 0) fun _ =>
      .bind (settled_tsByte (by decide)) fun control => .ite (fun _ => .pure 0) fun _ =>
        .bind settled_tsPayloadStart fun start => .ite (fun _ => .pure 0) fun hstart =>
          .bind (settled_tsByte (by decide)) fun flags => .ite (fun _ => ?_) fun _ => settled_patTable _
  exact .bind (settled_tsByte (by omega)) fun pointer => settled_patTable _

theorem settled_startCodeAt (h : i + 3 < tsPacketSize) : Settled p fun ts => startCodeAt ts i := by
  unfold startCodeAt
  refine .bind (settled_tsByte (by omega)) fun b0 => .ite (fun _ => .pure _) fun _ =>
    .bind (settled_tsByte (by omega)) fun b1 => .ite (fun _ => .pure _) fun _ =>
      .bind (settled_tsByte (by omega)) fun b2 => .ite (fun _ => .pure _) fun _ => .ite (fun _ => ?_) fun _ => .pure _
  exact .bind (settled_tsByte h) fun b3 => .ite (fun _ => .pure _) fun _ => .pure _

theorem settled_scanNal {left : Nat} (h : left = 0 ∨ i + left + 4 ≤ tsPacketSize) :
    Settled p fun ts => scanNal ts left i := by
  induction left generalizing i with
  | zero => exact .pure false
  | succ left ih =>
    simp only [scanNal]
    have hrest := ih (i := i + 1) (by omega)
    refine .bind (settled_startCodeAt (by omega)) fun code => ?_
    cases code with
    | none => exact hrest
    | some nalStart =>
      refine .ite (fun hlt => .bind (settled_tsByte hlt) fun nal => .ite (fun _ => .pure true) fun _ => hrest) fun _ => hrest

end

/-! ### What a packet says -/

namespace TsPacket

variable (p : TsPacket)

def byte (i : Nat) : UInt8 := p.bytes.getD i 0

def pid : Nat := (p.byte 1 &&& 0x1F).toNat * 256 + (p.byte 2).toNat

/-- `payload_unit_start`. -/
def unitStart : Bool := p.byte 1 &&& 0x40 ≠ 0

def hasPayload : Bool := p.byte 3 &&& 0x10 ≠ 0

def payloadStart : Nat := if p.byte 3 &&& 0x20 ≠ 0 then 4 + (1 + (p.byte 4).toNat) else 4

/-- The payload begins with a start code and the id of a video stream. -/
def videoPes : Bool :=
  p.byte p.payloadStart = 0 && p.byte (p.payloadStart + 1) = 0 && p.byte (p.payloadStart + 2) = 1 &&
    (0xE0 ≤ p.byte (p.payloadStart + 3) && p.byte (p.payloadStart + 3) ≤ 0xEF)

/-- A PES header that is asked for its length although the packet ends before it. -/
def ShortPes : Prop :=
  p.hasPayload ∧ p.unitStart ∧ (p.payloadStart + 6 ≤ tsPacketSize ∧ tsPacketSize < p.payloadStart + 9) ∧ p.videoPes

instance decidableShortPes : Decidable p.ShortPes := inferInstanceAs (Decidable (_ ∧ _))

/-- The packet starts an IDR frame. -/
def idrStart : Bool := startsIdr p.bytes = .ok true

/-- The PID that a PAT names for the PMT. -/
def pmtPid : Nat :=
  match extractPmtPidFromPat p.bytes with
  | .ok pid => pid
  | .error _ => 0

end TsPacket

section
variable {p : TsPacket} {rest : List UInt8} {i : Nat}

theorem tsByte_packet (h : i < tsPacketSize) (rest : List UInt8) : tsByte (p.bytes ++ rest) i = .ok (p.byte i) :=
  tsByte_append h rest

theorem tsPidAt_packet (rest : List UInt8) : tsPidAt (p.bytes ++ rest) 1 = .ok p.pid := by
  unfold tsPidAt
  rw [tsByte_packet (by decide), tsByte_packet (by decide)]
  rfl

theorem tsPayloadStart_packet (rest : List UInt8) : tsPayloadStart (p.bytes ++ rest) = .ok p.payloadStart := by
  unfold tsPayloadStart TsPacket.payloadStart
  rw [tsByte_packet (by decide), tsByte_packet (by decide)]
  simp only [bind, Except.bind, pure, Except.pure]
  split <;> rfl

theorem extractPmtPidFromPat_packet (rest : List UInt8) : extractPmtPidFromPat (p.bytes ++ rest) = .ok p.pmtPid := by
  obtain ⟨pid, hpid⟩ := settled_extractPmtPidFromPat (p := p)
  have halone := hpid []
  rw [List.append_nil] at halone
  rw [hpid rest, TsPacket.pmtPid, halone]

theorem isVideoPes_packet (h : p.payloadStart + 3 < tsPacketSize) (rest : List UInt8) :
    isVideoPes (p.bytes ++ rest) p.payloadStart = .ok p.videoPes := by
  unfold isVideoPes TsPacket.videoPes
  rw [tsByte_packet (by omega), tsByte_packet (by omega), tsByte_packet (by omega), tsByte_packet h]
  simp only [bind, Except.bind, pure, Except.pure]
  by_cases h0 : p.byte p.payloadStart = 0
  · by_cases h1 : p.byte (p.payloadStart + 1) = 0
    · by_cases h2 : p.byte (p.payloadStart + 2) = 1
      · simp [h0, h1, h2]
      · simp [h0, h1, h2]
    · simp [h0, h1]
  · simp [h0]

/-- The checks in front of the length of the PES header. -/
theorem startsIdr_packet (rest : List UInt8) : startsIdr (p.bytes ++ rest) =
    if p.hasPayload ∧ p.unitStart ∧ p.payloadStart + 6 ≤ tsPacketSize ∧ p.videoPes then
      tsByte (p.bytes ++ rest) (p.payloadStart + 8) >>= fun length =>
        if p.payloadStart + (9 + length.toNat) < tsPacketSize then
          scanNal (p.bytes ++ rest) (tsPacketSize - (p.payloadStart + (9 + length.toNat)) - 4)
            (p.payloadStart + (9 + length.toNat))
        else .ok false
    else .ok false := by
  unfold startsIdr
  rw [tsByte_packet (by decide), tsByte_packet (by decide), tsPayloadStart_packet]
  simp only [Except.ok_bind]
  have hpayload_iff : p.hasPayload = true ↔ p.byte 3 &&& 0x10 ≠ 0 := decide_eq_true_iff
  have hunit_iff : p.unitStart = true ↔ p.byte 1 &&& 0x40 ≠ 0 := decide_eq_true_iff
  by_cases hflags : p.byte 3 &&& 0x10 = 0 ∨ p.byte 1 &&& 0x40 = 0
  · rw [if_pos hflags, if_neg]
    · rfl
    · rintro ⟨hpayload, hunit, -⟩
      exact hflags.elim (hpayload_iff.1 hpayload) (hunit_iff.1 hunit)
  rw [if_neg hflags]
  by_cases hlen : p.payloadStart + 6 ≤ tsPacketSize
  · rw [if_neg (show ¬ p.payloadStart ≥ tsPacketSize by omega),
      if_neg (show ¬ tsPacketSize - p.payloadStart < 6 by omega), isVideoPes_packet (by omega), Except.ok_bind]
    have hpayload := hpayload_iff.2 (not_or.1 hflags).1
    have hunit := hunit_iff.2 (not_or.1 hflags).2
    simp only [hpayload, hunit, hlen, true_and]
    rfl
  · rw [if_neg (show ¬ (p.hasPayload ∧ p.unitStart ∧ p.payloadStart + 6 ≤ tsPacketSize ∧ p.videoPes) from
      fun h => hlen h.2.2.1)]
    by_cases hstart : p.payloadStart ≥ tsPacketSize
    · exact if_pos hstart
    · rw [if_neg hstart]
      exact if_pos (by omega)

theorem idrStart_of_packet {b : Bool} (h : startsIdr p.bytes = .ok b) : p.idrStart = b := by
  rw [TsPacket.idrStart, h]
  cases b <;> rfl

/-- A packet whose PES header, if it has one, is in the packet. -/
theorem startsIdr_settled (hshort : ¬ p.ShortPes) (rest : List UInt8) :
    startsIdr (p.bytes ++ rest) = .ok p.idrStart := by
  have hsettled : Settled p startsIdr := by
    by_cases hchecks : p.hasPayload ∧ p.unitStart ∧ p.payloadStart + 6 ≤ tsPacketSize ∧ p.videoPes
    · have hlen : p.payloadStart + 8 < tsPacketSize := by
        by_contra hge
        exact hshort ⟨hchecks.1, hchecks.2.1, ⟨hchecks.2.2.1, by omega⟩, hchecks.2.2.2⟩
      have hscan : Settled p fun ts => tsByte ts (p.payloadStart + 8) >>= fun length =>
          if p.payloadStart + (9 + length.toNat) < tsPacketSize then
            scanNal ts (tsPacketSize - (p.payloadStart + (9 + length.toNat)) - 4) (p.payloadStart + (9 + length.toNat))
          else .ok false :=
        .bind (settled_tsByte hlen) fun length => .ite (fun _ => settled_scanNal (by omega)) fun _ => .pure false
      obtain ⟨b, hb⟩ := hscan
      exact ⟨b, fun rest => by rw [startsIdr_packet, if_pos hchecks, ← hb rest]⟩
    · exact ⟨false, fun rest => by rw [startsIdr_packet, if_neg hchecks]⟩
  obtain ⟨b, hb⟩ := hsettled
  have halone := hb []
  rw [List.append_nil] at halone
  rw [hb rest, idrStart_of_packet halone]

/-- The length of a short PES header is read behind the packet, where it does no harm if there is something. -/
theorem startsIdr_short (hshort : p.ShortPes) (rest : List UInt8) (hrest : rest = [] ∨ 3 ≤ rest.length) :
    startsIdr (p.bytes ++ rest) = if rest = [] then .error .payloadRead else .ok p.idrStart := by
  obtain ⟨hpayload, hunit, ⟨hlow, hhigh⟩, hpes⟩ := hshort
  have hnone : startsIdr (p.bytes ++ []) = .error .payloadRead := by
    have hread : tsByte (p.bytes ++ []) (p.payloadStart + 8) = .error .payloadRead := by
      rw [List.append_nil, tsByte, List.getElem?_eq_none (p.length_eq ▸ by omega)]
    rw [startsIdr_packet, if_pos ⟨hpayload, hunit, hlow, hpes⟩, hread]
    rfl
  by_cases hnil : rest = []
  · rw [if_pos hnil, hnil, hnone]
  · have hlen : p.payloadStart + 8 < (p.bytes ++ rest).length := by
      rw [List.length_append, p.length_eq]
      have := hrest.resolve_left hnil
      omega
    have hread : tsByte (p.bytes ++ rest) (p.payloadStart + 8) = .ok (p.bytes ++ rest)[p.payloadStart + 8] := by
      rw [tsByte, List.getElem?_eq_getElem hlen]
    rw [List.append_nil] at hnone
    have hidr : p.idrStart = false := by
      rw [TsPacket.idrStart, hnone]
      rfl
    rw [startsIdr_packet, if_pos ⟨hpayload, hunit, hlow, hpes⟩, hread, Except.ok_bind, if_neg hnil, hidr]
    exact if_neg (by omega)

end

end Rtp2httpd.Snapshot
