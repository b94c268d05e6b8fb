import DOpenWrt.Rtp2httpd.Rtp

/-!
# Decoding a STUN response (`stun.c`)

`stun_parse_response` stops at the first attribute it can use. It so takes the MAPPED-ADDRESS meant for older servers
where a server sends it in front of the preferred XOR-MAPPED-ADDRESS.
-/

namespace Rtp2httpd

/-! ### The source -/

def stunMsgBindingSuccess : Nat := 0x0101
def stunAttrMappedAddr : Nat := 0x0001
def stunAttrXorMappedAddr : Nat := 0x0020
def stunMagicCookie : BitVec 32 := 0x2112A442
def stunHeaderSize : Nat := 20
def stunTransactionIdSize : Nat := 12
def stunAddrFamilyIpv4 : UInt8 := 0x01
def stunAddrFamilyIpv6 : UInt8 := 0x02

/-- `stun_state_t`, the address in host order. -/
structure StunState where
  inProgress : Bool
  completed : Bool
  requestTimeMs : Int
  retryCount : Nat
  mappedRtpPort : BitVec 16
  mappedRtcpPort : BitVec 16
  mappedIp4 : BitVec 32
  transactionId : Vector UInt8 stunTransactionIdSize
deriving DecidableEq

def be32At (data : List UInt8) (i : Nat) : Except Fault Nat := do
  let hi ← be16At data i
  let lo ← be16At data (i + 2)
  return hi * 65536 + lo

/-- `n` bytes from `i` on. -/
def readBytes (data : List UInt8) (i n : Nat) : Except Fault (List UInt8) :=
  if i + n ≤ data.length then .ok ((data.drop i).take n) else .error .packetRead

/-- The attribute's branches that return `0`; `none` goes on with the next attribute. -/
def stunXorMappedAddr (state : StunState) (data : List UInt8) (attrLen valOff : Nat) :
    Except Fault (Option StunState) := do
  let family ← byteAt data (valOff + 1)
  let xport ← be16At data (valOff + 2)
  let port := BitVec.ofNat 16 xport ^^^ (stunMagicCookie >>> 16).setWidth 16
  if family = stunAddrFamilyIpv4 then
    let xaddr ← be32At data (valOff + 4)
    return some { state with
      mappedRtpPort := port
      mappedRtcpPort := port + 1
      mappedIp4 := BitVec.ofNat 32 xaddr ^^^ stunMagicCookie
      inProgress := false
      completed := true }
  if family = stunAddrFamilyIpv6 ∧ attrLen ≥ 20 then
    -- the address is only logged
    let _in6 ← readBytes data (valOff + 4) 16
    return some { state with
      mappedRtpPort := port
      mappedRtcpPort := port + 1
      inProgress := false
      completed := true }
  return none

def stunMappedAddr (state : StunState) (data : List UInt8) (attrLen valOff : Nat) :
    Except Fault (Option StunState) := do
  let family ← byteAt data (valOff + 1)
  if family = stunAddrFamilyIpv4 ∨ family = stunAddrFamilyIpv6 ∧ attrLen ≥ 20 then
    let xport ← be16At data (valOff + 2)
    let port := BitVec.ofNat 16 xport
    let addr ← (if family = stunAddrFamilyIpv4 then (BitVec.ofNat 32) <$> be32At data (valOff + 4)
      else pure state.mappedIp4)
    return some { state with
      mappedRtpPort := port
      mappedRtcpPort := port + 1
      mappedIp4 := addr
      inProgress := false
      completed := true }
  return none

/-- The two attributes have different types, so at most one of the branches is taken. -/
def stunAttribute (state : StunState) (data : List UInt8) (attrType attrLen valOff : Nat) :
    Except Fault (Option StunState) :=
  if attrType = stunAttrXorMappedAddr ∧ attrLen ≥ 8 then stunXorMappedAddr state data attrLen valOff
  else if attrType = stunAttrMappedAddr ∧ attrLen ≥ 8 then stunMappedAddr state data attrLen valOff
  else pure none

/-- From an attribute to the next one, 4-byte aligned. -/
def stunAdvance (attrLen : Nat) : Nat := 4 + attrLen + if attrLen % 4 ≠ 0 then 4 - attrLen % 4 else 0

/-- The loop over the attributes, with `limit` the end of the message as declared. -/
def stunParseAttributes (state : StunState) (data : List UInt8) (limit offset : Nat) : Except Fault (StunState × Int) :=
  if h : offset + 4 ≤ limit ∧ offset + 4 ≤ data.length then do
    let attrType ← be16At data offset
    let attrLen ← be16At data (offset + 2)
    let valOff := offset + 4
    if valOff + attrLen > data.length then return (state, -1)
    match ← stunAttribute state data attrType attrLen valOff with
    | some state => return (state, 0)
    | none => stunParseAttributes state data limit (offset + stunAdvance attrLen)
  else return (state, -1)
termination_by data.length - offset
decreasing_by
  unfold stunAdvance
  omega

def stunParseResponse (state : StunState) (data : List UInt8) : Except Fault (StunState × Int) := do
  if data.length < stunHeaderSize then return (state, -1)
  let msgType ← be16At data 0
  let msgLen ← be16At data 2
  let magic ← be32At data 4
  if msgType ≠ stunMsgBindingSuccess then return (state, -1)
  if magic ≠ stunMagicCookie.toNat then return (state, -1)
  if (← readBytes data 8 stunTransactionIdSize) ≠ state.transactionId.toList then return (state, -1)
  stunParseAttributes state data (stunHeaderSize + msgLen) stunHeaderSize

/-! ### Attributes and what they map to -/

structure StunAttr where
  type : Nat
  value : List UInt8
deriving DecidableEq, Repr

def beBytes16 (hi lo : UInt8) : Nat := hi.toNat * 256 + lo.toNat

/-- The attributes in `bytes`, of which the first `declared` belong to the message. -/
def stunAttrs (declared : Nat) (bytes : List UInt8) : List StunAttr :=
  match bytes with
  | t₁ :: t₀ :: l₁ :: l₀ :: rest =>
    if 4 ≤ declared ∧ beBytes16 l₁ l₀ ≤ rest.length then
      ⟨beBytes16 t₁ t₀, rest.take (beBytes16 l₁ l₀)⟩ ::
        stunAttrs (declared - stunAdvance (beBytes16 l₁ l₀)) (rest.drop (stunAdvance (beBytes16 l₁ l₀) - 4))
    else []
  | _ => []
termination_by bytes.length
decreasing_by
  simp only [List.length_cons, List.length_drop]
  omega

/-- A port and, of the IPv4 family, an address. -/
structure StunMapping where
  port : BitVec 16
  ip4 : Option (BitVec 32)
deriving DecidableEq, Repr

namespace StunAttr

/-- The address in an attribute's value. -/
def address : List UInt8 → Option StunMapping
  | _ :: family :: p₁ :: p₀ :: a₃ :: a₂ :: a₁ :: a₀ :: rest =>
    if family = stunAddrFamilyIpv4 then
      some ⟨BitVec.ofNat 16 (beBytes16 p₁ p₀), some (BitVec.ofNat 32 (beBytes16 a₃ a₂ * 65536 + beBytes16 a₁ a₀))⟩
    else if family = stunAddrFamilyIpv6 ∧ 12 ≤ rest.length then some ⟨BitVec.ofNat 16 (beBytes16 p₁ p₀), none⟩
    else none
  | _ => none

/-- What a well-formed XOR-MAPPED-ADDRESS maps to. -/
def xorMapped (a : StunAttr) : Option StunMapping :=
  if a.type = stunAttrXorMappedAddr then
    (address a.value).map fun m =>
      ⟨m.port ^^^ (stunMagicCookie >>> 16).setWidth 16, m.ip4.map (· ^^^ stunMagicCookie)⟩
  else none

/-- What a well-formed MAPPED-ADDRESS maps to. -/
def mapped (a : StunAttr) : Option StunMapping :=
  if a.type = stunAttrMappedAddr then address a.value else none

/-- What a usable attribute maps to. -/
def mapping (a : StunAttr) : Option StunMapping := a.xorMapped.or a.mapped

end StunAttr

/-- The state with a mapping found. -/
def StunState.found (state : StunState) (m : StunMapping) : StunState :=
  { state with
    mappedRtpPort := m.port
    mappedRtcpPort := m.port + 1
    mappedIp4 := m.ip4.getD state.mappedIp4
    inProgress := false
    completed := true }

/-- The answer for the mapping that was found, if any. -/
def StunState.answer (state : StunState) : Option StunMapping → StunState × Int
  | some m => (state.found m, 0)
  | none => (state, -1)

/-! ### The loop finds the first usable attribute -/

section
variable {state : StunState} {data bytes : List UInt8} {offset limit : Nat}

theorem byteAt_drop {n i : Nat} {b : UInt8} (h : ((data.drop offset).take n)[i]? = some b) :
    byteAt data (offset + i) = .ok b := by
  obtain ⟨hi, -⟩ := List.getElem?_eq_some_iff.1 h
  rw [List.length_take, List.length_drop] at hi
  rw [List.getElem?_take_of_lt (by omega), List.getElem?_drop] at h
  rw [byteAt, h]

theorem be16At_drop {n i : Nat} {hi lo : UInt8} (h : ((data.drop offset).take n)[i]? = some hi)
    (h' : ((data.drop offset).take n)[i + 1]? = some lo) : be16At data (offset + i) = .ok (beBytes16 hi lo) := by
  rw [be16At, byteAt_drop h, Nat.add_assoc, byteAt_drop h']
  rfl

theorem be32At_drop {n i : Nat} {b₃ b₂ b₁ b₀ : UInt8} (h₃ : ((data.drop offset).take n)[i]? = some b₃)
    (h₂ : ((data.drop offset).take n)[i + 1]? = some b₂) (h₁ : ((data.drop offset).take n)[i + 2]? = some b₁)
    (h₀ : ((data.drop offset).take n)[i + 3]? = some b₀) :
    be32At data (offset + i) = .ok (beBytes16 b₃ b₂ * 65536 + beBytes16 b₁ b₀) := by
  rw [be32At, be16At_drop h₃ h₂, Nat.add_assoc, be16At_drop h₁ h₀]
  rfl

theorem readBytes_ok {n i : Nat} (h : i + n ≤ data.length) : readBytes data i n = .ok ((data.drop i).take n) := if_pos h

/-- A value that is long enough for an address, and how its bytes are read. -/
structure AddressBytes (data : List UInt8) (offset attrLen : Nat) (f p₁ p₀ a₃ a₂ a₁ a₀ : UInt8) (rest : List UInt8) :
    Prop where
  address : StunAttr.address ((data.drop offset).take attrLen) =
    if f = stunAddrFamilyIpv4 then
      some ⟨BitVec.ofNat 16 (beBytes16 p₁ p₀), some (BitVec.ofNat 32 (beBytes16 a₃ a₂ * 65536 + beBytes16 a₁ a₀))⟩
    else if f = stunAddrFamilyIpv6 ∧ 12 ≤ rest.length then some ⟨BitVec.ofNat 16 (beBytes16 p₁ p₀), none⟩
    else none
  family : byteAt data (offset + 1) = .ok f
  port : be16At data (offset + 2) = .ok (beBytes16 p₁ p₀)
  ip4 : be32At data (offset + 4) = .ok (beBytes16 a₃ a₂ * 65536 + beBytes16 a₁ a₀)
  length : rest.length + 8 = attrLen

variable {attrLen : Nat}

theorem exists_addressBytes (hlen : 8 ≤ attrLen) (hend : offset + attrLen ≤ data.length) :
    ∃ f p₁ p₀ a₃ a₂ a₁ a₀ rest, AddressBytes data offset attrLen f p₁ p₀ a₃ a₂ a₁ a₀ rest := by
  have hl : ((data.drop offset).take attrLen).length = attrLen := by
    rw [List.length_take, List.length_drop]
    omega
  match hv : (data.drop offset).take attrLen, hlen.trans_eq hl.symm with
  | r :: f :: p₁ :: p₀ :: a₃ :: a₂ :: a₁ :: a₀ :: rest, _ =>
    refine ⟨f, p₁, p₀, a₃, a₂, a₁, a₀, rest, by rw [hv, StunAttr.address], ?_, ?_, ?_, ?_⟩
    · exact byteAt_drop (n := attrLen) (by rw [hv]; rfl)
    · exact be16At_drop (n := attrLen) (by rw [hv]; rfl) (by rw [hv]; rfl)
    · exact be32At_drop (n := attrLen) (by rw [hv]; rfl) (by rw [hv]; rfl) (by rw [hv]; rfl) (by rw [hv]; rfl)
    · rw [← hl, hv]
      simp only [List.length_cons]

theorem address_short (h : bytes.length < 8) : StunAttr.address bytes = none := by
  unfold StunAttr.address
  split
  · simp only [List.length_cons] at h
    omega
  · rfl

theorem stunXorMappedAddr_eq (hlen : 8 ≤ attrLen) (hend : offset + attrLen ≤ data.length) :
    stunXorMappedAddr state data attrLen offset =
      .ok ((StunAttr.mk stunAttrXorMappedAddr ((data.drop offset).take attrLen)).xorMapped.map state.found) := by
  obtain ⟨f, p₁, p₀, a₃, a₂, a₁, a₀, rest, hb⟩ := exists_addressBytes hlen hend
  have hlength := hb.length
  rw [stunXorMappedAddr, hb.family, hb.port, hb.ip4, StunAttr.xorMapped, if_pos rfl, hb.address]
  by_cases hf : f = stunAddrFamilyIpv4
  · simp only [if_pos hf, Except.bind, bind, pure, Except.pure, Option.map_some, StunState.found, Option.getD_some]
  by_cases hf' : f = stunAddrFamilyIpv6 ∧ 12 ≤ rest.length
  · have hread : readBytes data (offset + 4) 16 = .ok ((data.drop (offset + 4)).take 16) := readBytes_ok (by omega)
    have hge : f = stunAddrFamilyIpv6 ∧ attrLen ≥ 20 := ⟨hf'.1, by omega⟩
    simp only [if_neg hf, if_pos hf', if_pos hge, hread, Except.bind, bind, pure, Except.pure, Option.map_some,
      Option.map_none, StunState.found, Option.getD_none]
  · have hlt : ¬ (f = stunAddrFamilyIpv6 ∧ attrLen ≥ 20) := fun h => hf' ⟨h.1, by omega⟩
    simp only [if_neg hf, if_neg hf', if_neg hlt, Except.bind, bind, pure, Except.pure, Option.map_none]

theorem stunMappedAddr_eq (hlen : 8 ≤ attrLen) (hend : offset + attrLen ≤ data.length) :
    stunMappedAddr state data attrLen offset =
      .ok ((StunAttr.mk stunAttrMappedAddr ((data.drop offset).take attrLen)).mapped.map state.found) := by
  obtain ⟨f, p₁, p₀, a₃, a₂, a₁, a₀, rest, hb⟩ := exists_addressBytes hlen hend
  have hlength := hb.length
  rw [stunMappedAddr, hb.family, hb.port, hb.ip4, StunAttr.mapped, if_pos rfl, hb.address]
  by_cases hf : f = stunAddrFamilyIpv4
  · simp only [if_pos hf, if_pos (Or.inl hf), Except.bind, bind, pure, Except.pure, Option.map_some, StunState.found,
      Option.getD_some, Functor.map, Except.map]
  by_cases hf' : f = stunAddrFamilyIpv6 ∧ 12 ≤ rest.length
  · have hge : f = stunAddrFamilyIpv4 ∨ f = stunAddrFamilyIpv6 ∧ attrLen ≥ 20 := .inr ⟨hf'.1, by omega⟩
    simp only [if_neg hf, if_pos hf', if_pos hge, Except.bind, bind, pure, Except.pure, Option.map_some,
      StunState.found, Option.getD_none]
  · have hlt : ¬ (f = stunAddrFamilyIpv4 ∨ f = stunAddrFamilyIpv6 ∧ attrLen ≥ 20) := by
      rintro (h | h)
      · exact hf h
      · exact hf' ⟨h.1, by omega⟩
    simp only [if_neg hf, if_neg hf', if_neg hlt, Except.bind, bind, pure, Except.pure, Option.map_none]

/-- The branches of the loop read an attribute as its value tells. -/
theorem stunAttribute_eq (attrType : Nat) (hend : offset + attrLen ≤ data.length) :
    stunAttribute state data attrType attrLen offset =
      .ok ((StunAttr.mk attrType ((data.drop offset).take attrLen)).mapping.map state.found) := by
  have hshort (h : ¬ attrLen ≥ 8) : StunAttr.address ((data.drop offset).take attrLen) = none :=
    address_short ((List.length_take_le _ _).trans_lt (by omega))
  rw [stunAttribute, StunAttr.mapping]
  by_cases hx : attrType = stunAttrXorMappedAddr
  · subst hx
    by_cases hlen : attrLen ≥ 8
    · rw [if_pos ⟨rfl, hlen⟩, stunXorMappedAddr_eq hlen hend, StunAttr.mapped,
        if_neg (show ¬ stunAttrXorMappedAddr = stunAttrMappedAddr by decide), Option.or_none]
    · rw [if_neg (hlen ·.2), if_neg (hlen ·.2), StunAttr.xorMapped, StunAttr.mapped, if_pos rfl, hshort hlen,
        if_neg (show ¬ stunAttrXorMappedAddr = stunAttrMappedAddr by decide)]
      rfl
  · rw [if_neg (hx ·.1), StunAttr.xorMapped, if_neg hx, Option.none_or]
    by_cases hm : attrType = stunAttrMappedAddr
    · subst hm
      by_cases hlen : attrLen ≥ 8
      · rw [if_pos ⟨rfl, hlen⟩, stunMappedAddr_eq hlen hend]
      · rw [if_neg (hlen ·.2), StunAttr.mapped, if_pos rfl, hshort hlen]
        rfl
    · rw [if_neg (hm ·.1), StunAttr.mapped, if_neg hm]
      rfl

theorem stunAdvance_pos (attrLen : Nat) : 4 ≤ stunAdvance attrLen := by
  unfold stunAdvance
  omega

theorem stunAttrs_short {declared : Nat} (h : declared < 4 ∨ bytes.length < 4) : stunAttrs declared bytes = [] := by
  unfold stunAttrs
  split
  · simp only [List.length_cons] at h
    rw [if_neg (by omega)]
  · rfl

/-- From an attribute on, the loop and the list of attributes go on in the same way. -/
theorem stunParseAttributes_eq (limit offset : Nat) : stunParseAttributes state data limit offset =
    .ok (state.answer ((stunAttrs (limit - offset) (data.drop offset)).findSome? StunAttr.mapping)) := by
  induction hn : data.length - offset using Nat.strong_induction_on generalizing offset with
  | _ n ih =>
  rw [stunParseAttributes]
  by_cases h : offset + 4 ≤ limit ∧ offset + 4 ≤ data.length
  · have hlength : 4 ≤ (data.drop offset).length := by
      rw [List.length_drop]
      omega
    match hd : data.drop offset, hlength with
    | t₁ :: t₀ :: l₁ :: l₀ :: rest, _ =>
      have htype : be16At data offset = .ok (beBytes16 t₁ t₀) :=
        be16At_drop (i := 0) (n := 4) (by rw [hd]; rfl) (by rw [hd]; rfl)
      have hlen : be16At data (offset + 2) = .ok (beBytes16 l₁ l₀) :=
        be16At_drop (i := 2) (n := 4) (by rw [hd]; rfl) (by rw [hd]; rfl)
      have hrest : data.drop (offset + 4) = rest := by
        rw [← List.drop_drop, hd]
        rfl
      have hrestlen : rest.length + (offset + 4) = data.length := by
        rw [← hrest, List.length_drop]
        omega
      rw [dif_pos h, htype, hlen, stunAttrs]
      by_cases hend : offset + 4 + beBytes16 l₁ l₀ > data.length
      · rw [if_neg (by omega)]
        simp only [Except.bind, bind, pure, Except.pure, if_pos hend, List.findSome?_nil, StunState.answer]
      · have hadvance := stunAdvance_pos (beBytes16 l₁ l₀)
        have hdrop : rest.drop (stunAdvance (beBytes16 l₁ l₀) - 4) = data.drop (offset + stunAdvance (beBytes16 l₁ l₀)) := by
          rw [← hrest, List.drop_drop]
          congr 1
          omega
        have hih := ih _ (by omega) (offset + stunAdvance (beBytes16 l₁ l₀)) rfl
        rw [if_pos (by omega), hdrop, Nat.sub_sub, List.findSome?_cons, ← hrest]
        simp only [Except.bind, bind, pure, Except.pure, if_neg hend,
          @stunAttribute_eq state _ _ _ (beBytes16 t₁ t₀) (Nat.le_of_not_lt hend)]
        cases (StunAttr.mk (beBytes16 t₁ t₀) ((data.drop (offset + 4)).take (beBytes16 l₁ l₀))).mapping with
        | none => exact hih
        | some m => rfl
  · rw [dif_neg h, stunAttrs_short (by rw [List.length_drop]; omega)]
    rfl

end

/-! ### The preferred attribute -/

/-- A Binding Success for the request of the state. -/
structure IsStunResponse (state : StunState) (data : List UInt8) : Prop where
  header : stunHeaderSize ≤ data.length
  type : be16At data 0 = .ok stunMsgBindingSuccess
  magic : be32At data 4 = .ok stunMagicCookie.toNat
  transactionId : readBytes data 8 stunTransactionIdSize = .ok state.transactionId.toList

/-- The attributes of a message, whose length is in the header. -/
def stunMessageAttrs (data : List UInt8) : List StunAttr :=
  stunAttrs (beBytes16 (data.getD 2 0) (data.getD 3 0)) (data.drop stunHeaderSize)

/-- The first XOR-MAPPED-ADDRESS counts, the first MAPPED-ADDRESS only where there is none. -/
def preferredMapping (attrs : List StunAttr) : Option StunMapping :=
  (attrs.findSome? StunAttr.xorMapped).or (attrs.findSome? StunAttr.mapped)

variable {state : StunState} {data : List UInt8}

theorem stunParseResponse_of_isStunResponse (h : IsStunResponse state data) : stunParseResponse state data =
    .ok (state.answer ((stunMessageAttrs data).findSome? StunAttr.mapping)) := by
  have hlength : 20 ≤ data.length := h.header
  have hlen : be16At data 2 = .ok (beBytes16 (data.getD 2 0) (data.getD 3 0)) := by
    rw [be16At_ok (by omega), beBytes16, ← List.getElem_eq_getD 0, ← List.getElem_eq_getD 0]
  rw [stunParseResponse, if_neg h.header.not_gt, h.type, hlen, h.magic, h.transactionId]
  simp only [Except.bind, bind, pure, Except.pure, ne_eq, not_true, if_false]
  rw [stunParseAttributes_eq, Nat.add_sub_cancel_left]
  rfl

theorem stunParseResponse_of_not_isStunResponse (h : ¬ IsStunResponse state data) :
    stunParseResponse state data = .ok (state, -1) := by
  rw [stunParseResponse]
  by_cases hheader : data.length < stunHeaderSize
  · rw [if_pos hheader]
    rfl
  have hlength : 20 ≤ data.length := Nat.le_of_not_lt hheader
  obtain ⟨msgType, htype, -⟩ : Safe (be16At data 0) fun _ => True := safe_be16At (by omega)
  obtain ⟨msgLen, hlen, -⟩ : Safe (be16At data 2) fun _ => True := safe_be16At (by omega)
  obtain ⟨magic, hmagic, -⟩ : Safe (be32At data 4) fun _ => True :=
    (safe_be16At (by omega)).bind fun _ _ => (safe_be16At (by omega)).bind fun _ _ => .pure trivial
  have hid : readBytes data 8 stunTransactionIdSize = .ok ((data.drop 8).take 12) := readBytes_ok hlength
  rw [if_neg hheader, htype, hlen, hmagic, hid]
  simp only [Except.bind, bind, pure, Except.pure]
  split
  · rfl
  split
  · rfl
  split
  · rfl
  · next htype' hmagic' hid' =>
    rw [ne_eq, not_not] at htype' hmagic' hid'
    exact absurd ⟨hlength, by rw [htype, htype'], by rw [hmagic, hmagic'], by rw [hid, hid']⟩ h

/-- A usable MAPPED-ADDRESS at which the loop stops, before the first XOR-MAPPED-ADDRESS, leaves what the latter would. -/
def FallbackAgrees (state : StunState) (attrs : List StunAttr) : Prop :=
  ∀ pre a post m x, attrs = pre ++ a :: post → (∀ b ∈ pre, b.mapping = none) → a.mapped = some m →
    post.findSome? StunAttr.xorMapped = some x → state.found m = state.found x

namespace StunAttr
variable {a : StunAttr} {m : StunMapping}

theorem mapping_eq_none : a.mapping = none ↔ a.xorMapped = none ∧ a.mapped = none := Option.or_eq_none_iff

theorem xorMapped_of_mapped (h : a.mapped = some m) : a.xorMapped = none := by
  unfold mapped at h
  split at h
  · next htype => rw [xorMapped, htype, if_neg (by decide)]
  · cases h

end StunAttr

/-- Where the loop stops at a XOR-MAPPED-ADDRESS it is the first one. -/
theorem preferredMapping_append {pre post : List StunAttr} {a : StunAttr} (hpre : ∀ b ∈ pre, b.mapping = none) :
    preferredMapping (pre ++ a :: post) = preferredMapping (a :: post) := by
  have hxor : pre.findSome? StunAttr.xorMapped = none :=
    List.findSome?_eq_none_iff.2 fun b hb => (StunAttr.mapping_eq_none.1 (hpre b hb)).1
  have hmapped : pre.findSome? StunAttr.mapped = none :=
    List.findSome?_eq_none_iff.2 fun b hb => (StunAttr.mapping_eq_none.1 (hpre b hb)).2
  rw [preferredMapping, List.findSome?_append, List.findSome?_append, hxor, hmapped, Option.none_or, Option.none_or,
    preferredMapping]

theorem preferredMapping_of_xorMapped {a : StunAttr} {post : List StunAttr} {x : StunMapping}
    (h : a.xorMapped = some x) : preferredMapping (a :: post) = some x := by
  rw [preferredMapping, List.findSome?_cons, h, Option.some_or]

theorem preferredMapping_of_mapped {a : StunAttr} {post : List StunAttr} {m : StunMapping} (h : a.mapped = some m) :
    preferredMapping (a :: post) = (post.findSome? StunAttr.xorMapped).or (some m) := by
  rw [preferredMapping, List.findSome?_cons, StunAttr.xorMapped_of_mapped h, List.findSome?_cons, h]

theorem answer_findSome_mapping_iff (state : StunState) (attrs : List StunAttr) :
    state.answer (attrs.findSome? StunAttr.mapping) = state.answer (preferredMapping attrs) ↔
      FallbackAgrees state attrs := by
  constructor
  · rintro h pre a post m x rfl hpre hm hx
    have hfirst : (pre ++ a :: post).findSome? StunAttr.mapping = some m := by
      rw [List.findSome?_append, List.findSome?_eq_none_iff.2 hpre, Option.none_or, List.findSome?_cons,
        StunAttr.mapping, StunAttr.xorMapped_of_mapped hm, Option.none_or, hm]
    rw [hfirst, preferredMapping_append hpre, preferredMapping_of_mapped hm, hx] at h
    exact congrArg Prod.fst h
  · intro h
    cases hfirst : attrs.findSome? StunAttr.mapping with
    | none =>
      have hnone := List.findSome?_eq_none_iff.1 hfirst
      rw [preferredMapping, List.findSome?_eq_none_iff.2 fun b hb => (StunAttr.mapping_eq_none.1 (hnone b hb)).1,
        List.findSome?_eq_none_iff.2 fun b hb => (StunAttr.mapping_eq_none.1 (hnone b hb)).2, Option.none_or]
    | some m =>
      obtain ⟨pre, a, post, rfl, ha, hpre⟩ := List.findSome?_eq_some_iff.1 hfirst
      rw [preferredMapping_append hpre]
      cases hx : a.xorMapped with
      | some x =>
        rw [StunAttr.mapping, hx, Option.some_or] at ha
        rw [preferredMapping_of_xorMapped hx, ha]
      | none =>
        rw [StunAttr.mapping, hx, Option.none_or] at ha
        rw [preferredMapping_of_mapped ha]
        cases hpost : post.findSome? StunAttr.xorMapped with
        | none => rfl
        | some x => exact congrArg (·, 0) (h pre a post m x rfl hpre ha hpost)

/-- What a response should do: refused, it leaves the state alone; else its preferred mapping is stored. -/
structure StunDecodes (state : StunState) (data : List UInt8) (r : StunState × Int) : Prop where
  unchanged : r.2 = -1 → r.1 = state
  refused : ¬ IsStunResponse state data → r.2 = -1
  preferred : IsStunResponse state data → r = state.answer (preferredMapping (stunMessageAttrs data))

theorem StunState.answer_unchanged (state : StunState) (o : Option StunMapping) (h : (state.answer o).2 = -1) :
    (state.answer o).1 = state := by
  cases o with
  | none => rfl
  | some m => cases h

/-- Nothing outside the message is read, a refused message leaves the state alone, and the preferred mapping is stored,
unless a MAPPED-ADDRESS that says something else stands in front of it. -/
theorem stunParseResponse_decodes_iff (state : StunState) (data : List UInt8) :
    Safe (stunParseResponse state data) (StunDecodes state data) ↔
      (IsStunResponse state data → FallbackAgrees state (stunMessageAttrs data)) := by
  by_cases h : IsStunResponse state data
  · rw [stunParseResponse_of_isStunResponse h, imp_iff_right h, ← answer_findSome_mapping_iff]
    constructor
    · rintro ⟨r, hr, hdecodes⟩
      rw [Except.ok.inj hr, hdecodes.preferred h]
    · exact fun hpreferred => ⟨_, rfl, state.answer_unchanged _, fun h' => absurd h h', fun _ => hpreferred⟩
  · rw [stunParseResponse_of_not_isStunResponse h]
    exact ⟨fun _ h' => absurd h' h, fun _ => ⟨_, rfl, fun _ => rfl, fun _ => rfl, fun h' => absurd h' h⟩⟩

/-- A Binding Success for the transaction of zeros: MAPPED-ADDRESS 10.0.0.1:80, then XOR-MAPPED-ADDRESS
192.0.2.1:8080. -/
def fallbackFirst : List UInt8 :=
  [0x01, 0x01, 0, 24, 0x21, 0x12, 0xA4, 0x42, 0, 0, 0, 0, 0, 0, 0, 0, 0, 0, 0, 0,
    0x00, 0x01, 0, 8, 0, 1, 0x00, 0x50, 10, 0, 0, 1,
    0x00, 0x20, 0, 8, 0, 1, 0x3E, 0x82, 0xE1, 0x12, 0xA6, 0x43]

theorem stunMessageAttrs_fallbackFirst : stunMessageAttrs fallbackFirst =
    [⟨stunAttrMappedAddr, [0, 1, 0x00, 0x50, 10, 0, 0, 1]⟩,
      ⟨stunAttrXorMappedAddr, [0, 1, 0x3E, 0x82, 0xE1, 0x12, 0xA6, 0x43]⟩] := by
  simp [stunMessageAttrs, fallbackFirst, stunAttrs, beBytes16, stunAdvance, stunHeaderSize, stunAttrMappedAddr,
    stunAttrXorMappedAddr]

/-- The private address is stored, not the preferred public one. -/
theorem stunParseResponse_fallbackFirst : ∃ state : StunState, IsStunResponse state fallbackFirst ∧
    preferredMapping (stunMessageAttrs fallbackFirst) = some ⟨8080, some 0xC0000201⟩ ∧
    stunParseResponse state fallbackFirst = .ok (state.found ⟨80, some 0x0A000001⟩, 0) ∧
    ¬ Safe (stunParseResponse state fallbackFirst) (StunDecodes state fallbackFirst) := by
  let state : StunState := ⟨true, false, 0, 0, 0, 0, 0, Vector.replicate 12 0⟩
  have h : IsStunResponse state fallbackFirst := ⟨by decide, by rfl, by rfl, by rfl⟩
  have hpreferred : preferredMapping (stunMessageAttrs fallbackFirst) = some ⟨8080, some 0xC0000201⟩ := by
    rw [stunMessageAttrs_fallbackFirst]
    decide
  have hrun : stunParseResponse state fallbackFirst = .ok (state.found ⟨80, some 0x0A000001⟩, 0) := by
    rw [stunParseResponse_of_isStunResponse h, stunMessageAttrs_fallbackFirst]
    rfl
  refine ⟨state, h, hpreferred, hrun, ?_⟩
  rintro ⟨r, hr, hdecodes⟩
  have hstored := hdecodes.preferred h
  rw [hpreferred, ← Except.ok.inj (hrun.symm.trans hr)] at hstored
  exact absurd hstored (by decide)

end Rtp2httpd
