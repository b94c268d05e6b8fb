import Mathlib.Tactic

/-!
# RTP packets

`rtp_get_payload` and what the modules below share: packets as byte lists whose every access is checked,
and the reference-counted buffers that hold them.
-/

namespace Rtp2httpd

/-- An access outside its object, undefined in the source. -/
inductive Fault where
  | packetRead
  | slotIndex
  deriving DecidableEq, Repr

def byteAt (data : List UInt8) (i : Nat) : Except Fault UInt8 :=
  match data[i]? with
  | some b => .ok b
  | none => .error .packetRead

/-- `ntohs` of the two bytes at `i`. -/
def be16At (data : List UInt8) (i : Nat) : Except Fault Nat := do
  let hi ← byteAt data i
  let lo ← byteAt data (i + 1)
  return hi.toNat * 256 + lo.toNat

/-- A computation that runs without a fault, to a result with the property `P`. -/
def Safe {α : Type} (x : Except Fault α) (P : α → Prop) : Prop := ∃ a, x = .ok a ∧ P a

namespace Safe

variable {α β : Type} {x : Except Fault α} {f : α → Except Fault β} {P : α → Prop} {Q : β → Prop}

theorem pure {a : α} (h : P a) : Safe (Pure.pure a) P := ⟨a, rfl, h⟩

theorem bind (hx : Safe x P) (hf : ∀ a, P a → Safe (f a) Q) : Safe (x >>= f) Q := by
  obtain ⟨a, rfl, ha⟩ := hx
  exact hf a ha

end Safe

theorem byteAt_ok {data : List UInt8} {i : Nat} (h : i < data.length) :
    byteAt data i = .ok data[i] := by
  simp [byteAt, List.getElem?_eq_getElem h]

theorem be16At_ok {data : List UInt8} {i : Nat} (h : i + 1 < data.length) :
    be16At data i = .ok (data[i].toNat * 256 + data[i + 1].toNat) := by
  simp [be16At, byteAt_ok h, byteAt_ok (show i < data.length by omega), bind, Except.bind, pure,
    Except.pure]

theorem safe_byteAt {data : List UInt8} {i : Nat} (h : i < data.length) :
    Safe (byteAt data i) fun _ => True := ⟨_, byteAt_ok h, trivial⟩

theorem safe_be16At {data : List UInt8} {i : Nat} (h : i + 1 < data.length) :
    Safe (be16At data i) fun _ => True := ⟨_, be16At_ok h, trivial⟩

def bufferPoolBufferSize : Nat := 1536

/-- `buffer_ref_t`: `id` is the identity of the buffer, `data` all its bytes, of which the `dataSize`
from `dataOffset` on are the ones to be sent. -/
structure BufferRef where
  id : Nat
  data : List UInt8
  dataOffset : Nat
  dataSize : Nat
  deriving DecidableEq, Repr

/-! ### `rtp_get_payload` -/

def fecPayloadType1 : Nat := 127
def fecPayloadType2 : Nat := 97

/-- The returned code with what was written through the output pointers. -/
inductive RtpGetPayload where
  /-- `0`: the whole packet is payload -/
  | notRtp
  /-- `1` -/
  | rtp (payloadStart size : Nat) (seqn : BitVec 16)
  /-- `2`: a parity packet, returned whole -/
  | fec
  /-- `-1`, the sequence number having been written -/
  | malformed (seqn : BitVec 16)
  deriving DecidableEq, Repr

/-- The part of the header that depends on its flags: where the payload starts, or `none` when the
header does not fit. -/
def rtpPayloadStart (buf : List UInt8) (flags : UInt8) : Except Fault (Option Nat) := do
  let payloadStart := 12 + (flags &&& 0x0F).toNat * 4
  if payloadStart > buf.length then return none
  if flags &&& 0x10 ≠ 0 then
    if payloadStart + 4 > buf.length then return none
    let extLen ← be16At buf (payloadStart + 2)
    if extLen > (buf.length - payloadStart - 4) / 4 then return none
    return some (payloadStart + (4 + 4 * extLen))
  return some payloadStart

def rtpGetPayload (buf : List UInt8) : Except Fault RtpGetPayload := do
  if buf.length < 12 then return .notRtp
  let flags ← byteAt buf 0
  if flags &&& 0xC0 ≠ 0x80 then return .notRtp
  let payloadType := ((← byteAt buf 1) &&& 0x7F).toNat
  if payloadType = fecPayloadType1 ∨ payloadType = fecPayloadType2 then return .fec
  let seqn := BitVec.ofNat 16 (← be16At buf 2)
  match ← rtpPayloadStart buf flags with
  | none => return .malformed seqn
  | some payloadStart =>
    let padding ← if flags &&& 0x20 ≠ 0 then byteAt buf (buf.length - 1) else pure 0
    let payloadLength : Int := buf.length - payloadStart - padding.toNat
    if payloadLength ≤ 0 ∨ payloadStart + payloadLength > buf.length then return .malformed seqn
    return .rtp payloadStart payloadLength.toNat seqn

end Rtp2httpd
