import DOpenWrt.Oaf.Dpi

/-!
# Control input

The writes to `/dev/appfilter` up to `af_config_handle`, of `af_config.c`, and the netlink messages of `oaf_msg_rcv`, of
`app_filter.c`, up to what their handlers are given. A read behind the received bytes is a fault. The byte order of an
`int` is that of the machine.
-/

namespace Oaf

/-! ### The device -/

def cdevBufLen : ℕ := 256 <<< 10

structure AfCdevFile where
  size : ℕ
  buf : List UInt8
  size_le : size ≤ cdevBufLen
  buf_length : buf.length = cdevBufLen

def afCdevOpen : AfCdevFile where
  size := 0
  buf := List.replicate cdevBufLen 0
  size_le := Nat.zero_le _
  buf_length := List.length_replicate

/-- `memcpy(buf + pos, bytes)`. -/
def overwrite (buf : List UInt8) (pos : ℕ) (bytes : List UInt8) : List UInt8 :=
  buf.take pos ++ bytes ++ buf.drop (pos + bytes.length)

theorem length_overwrite {buf bytes : List UInt8} {pos : ℕ} (h : pos + bytes.length ≤ buf.length) :
    (overwrite buf pos bytes).length = buf.length := by
  rw [overwrite, List.length_append, List.length_append, List.length_take, List.length_drop]
  omega

/-- What `copy_from_user` stores of `buffer` when only `readable` bytes can be read: the rest is zero. -/
def copied (buffer : List UInt8) (readable : ℕ) : List UInt8 :=
  buffer.take readable ++ List.replicate (buffer.length - readable) 0

theorem length_copied (buffer : List UInt8) (readable : ℕ) : (copied buffer readable).length = buffer.length := by
  rw [copied, List.length_append, List.length_take, List.length_replicate]
  omega

/-- A write and its result, none for `-EINVAL`. -/
def afCdevWrite (file : AfCdevFile) (buffer : List UInt8) (readable : ℕ) : AfCdevFile × Option ℕ :=
  if h : cdevBufLen < file.size + buffer.length then (file, none)
  else
    have hle : file.size + buffer.length ≤ cdevBufLen := Nat.le_of_not_lt h
    have hbuf : (overwrite file.buf file.size (copied buffer readable)).length = cdevBufLen := by
      rw [length_overwrite, file.buf_length]
      rwa [length_copied, file.buf_length]
    if readable < buffer.length then
      ({ file with buf := overwrite file.buf file.size (copied buffer readable), buf_length := hbuf }, none)
    else
      (⟨file.size + buffer.length, overwrite file.buf file.size (copied buffer readable), hle, hbuf⟩,
        some buffer.length)

/-- The file after writes that are all accepted. -/
def acceptedWrites : AfCdevFile → List (List UInt8 × ℕ) → Option AfCdevFile
  | file, [] => some file
  | file, (buffer, readable) :: writes =>
    match afCdevWrite file buffer readable with
    | (file, some _) => acceptedWrites file writes
    | (_, none) => none

/-- What `af_cdev_release` hands to `af_config_handle` is the text, with a NUL behind it in the buffer. -/
def HandedOver (file : AfCdevFile) (text : List UInt8) : Prop :=
  file.size = text.length ∧ file.buf.take file.size = text ∧ file.buf[file.size]? = some 0

/-! ### Netlink -/

def nlmsgHdrlen : ℕ := 16
def nlmsgTotalSize : ℕ := 16
def afMagic : BitVec 32 := 0xa0b0c0d0#32
def maxOafNetlinkMsgLen : ℤ := 1024
def maxFeatureLineLen : ℤ := 600
def sizeofAfMsgHdr : ℕ := 8
def sizeofAfMsg : ℕ := 4

section
variable (bigEndian : Bool) (skb : List UInt8)

/-- The bytes of an `int`. -/
def intOf (bytes : List UInt8) : BitVec 32 :=
  BitVec.ofNat 32 ((if bigEndian then bytes else bytes.reverse).foldl (fun n c => n * 256 + c.toNat) 0)

def intFrom (pos : ℕ) : BitVec 32 := intOf bigEndian ((skb.drop pos).take 4)

/-- A read of an `int` of the message. -/
def readInt (pos : ℕ) : Except DpiFault (BitVec 32) :=
  if pos + 4 ≤ skb.length then .ok (intFrom bigEndian skb pos) else .error .read

/-- What `strncpy` copies of the `n` bytes from a position on. -/
def strncpyFrom : ℕ → ℕ → Except DpiFault (List UInt8)
  | _, 0 => .ok []
  | pos, n + 1 => do
    let c ← rd skb pos
    if c = 0 then return []
    else
      let text ← strncpyFrom (pos + 1) n
      return c :: text

/-- What a message makes the module do. -/
inductive OafMsg
  | dropped
  | init
  | addFeature (feature : List UInt8)
  | cleanFeature
  deriving DecidableEq

/-- `af_add_feature_msg_handle` up to `af_init_feature`. -/
def afAddFeatureMsgHandle (data : ℕ) (len : ℤ) : Except DpiFault OafMsg :=
  if len ≤ 0 ∨ maxFeatureLineLen ≤ len then return .dropped
  else do
    let feature ← strncpyFrom skb data len.toNat
    return .addFeature feature

def oafUserMsgHandle (data : ℕ) (len : ℤ) : Except DpiFault OafMsg :=
  if len < sizeofAfMsg then return .dropped
  else do
    let action ← readInt bigEndian skb data
    if action = 0 then return .init
    else if action = 1 then afAddFeatureMsgHandle skb (data + sizeofAfMsg) (len - sizeofAfMsg)
    else if action = 2 then return .cleanFeature
    else return .dropped

def oafMsgRcv : Except DpiFault OafMsg :=
  if nlmsgTotalSize ≤ skb.length then do
    let magic ← readInt bigEndian skb nlmsgHdrlen
    if magic ≠ afMagic then return .dropped
    else
      let len ← readInt bigEndian skb (nlmsgHdrlen + 4)
      if len.toInt ≤ 0 ∨ maxOafNetlinkMsgLen ≤ len.toInt then return .dropped
      else oafUserMsgHandle bigEndian skb (nlmsgHdrlen + sizeofAfMsgHdr) len.toInt
  else return .dropped

end

end Oaf
