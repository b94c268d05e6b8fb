import DOpenWrt.Oaf.DpiBounds

/-!
# The server name

`dpi_https_proto` does not follow the structure of a ClientHello: it takes the first place that looks like a server name.
That is the server name extension exactly when nothing before it looks like one and the payload goes on behind the name.
-/

namespace Oaf
open CString (str)

def be16 (n : ℕ) : List UInt8 := [UInt8.ofNat (n / 256), UInt8.ofNat n]
def be24 (n : ℕ) : List UInt8 := [UInt8.ofNat (n / 65536), UInt8.ofNat (n / 256), UInt8.ofNat n]

/-! ### The handshake -/

/-- An extension of a ClientHello; `type` 0 is the server name. -/
structure Extension where
  type : ℕ
  data : List UInt8
  type_lt : type < 2 ^ 16
  type_ne : type ≠ 0
  length_lt : data.length < 2 ^ 16

def Extension.encode (e : Extension) : List UInt8 := be16 e.type ++ be16 e.data.length ++ e.data

/-- A host name as the scanner accepts one. -/
structure HostName where
  name : List UInt8
  valid : ∀ c ∈ name, isDomainChar c = true
  length_ge : 5 ≤ name.length
  length_le : name.length ≤ 64

/-- The server name extension: a list of one entry, of the type of host names. -/
def HostName.encode (host : HostName) : List UInt8 :=
  be16 0 ++ be16 (host.name.length + 5) ++ be16 (host.name.length + 3) ++ [0] ++ be16 host.name.length ++ host.name

/-- The fields of a ClientHello. -/
structure ClientHello where
  recordMinor : UInt8
  version : UInt8 × UInt8
  random : List UInt8
  sessionId : List UInt8
  cipherSuites : List (UInt8 × UInt8)
  compressionMethods : List UInt8
  before : List Extension
  serverName : HostName
  after : List Extension
  random_length : random.length = 32
  sessionId_le : sessionId.length ≤ 32
  cipherSuites_pos : 0 < cipherSuites.length
  cipherSuites_lt : cipherSuites.length < 2 ^ 15
  compressionMethods_pos : 0 < compressionMethods.length
  compressionMethods_lt : compressionMethods.length < 2 ^ 8

namespace ClientHello
variable (hello : ClientHello)

def extensions : List UInt8 :=
  (hello.before.map Extension.encode).flatten ++ hello.serverName.encode ++ (hello.after.map Extension.encode).flatten

/-- What precedes the extensions in the message. -/
def fields : List UInt8 :=
  [hello.version.1, hello.version.2] ++ hello.random ++ [UInt8.ofNat hello.sessionId.length] ++ hello.sessionId ++
    be16 (2 * hello.cipherSuites.length) ++ (hello.cipherSuites.map fun suite => [suite.1, suite.2]).flatten ++
    [UInt8.ofNat hello.compressionMethods.length] ++ hello.compressionMethods ++ be16 hello.extensions.length

def message : List UInt8 := hello.fields ++ hello.extensions

/-- The record, with the header of the handshake message. -/
def record : List UInt8 :=
  [0x16, 0x03, hello.recordMinor] ++ be16 (hello.message.length + 4) ++ [0x01] ++ be24 hello.message.length ++
    hello.message

/-- What precedes the server name extension in the record. -/
def front : List UInt8 :=
  [0x16, 0x03, hello.recordMinor] ++ be16 (hello.message.length + 4) ++ [0x01] ++ be24 hello.message.length ++
    hello.fields ++ (hello.before.map Extension.encode).flatten

/-- Where the server name extension starts. -/
def serverNamePos : ℕ := hello.front.length

theorem record_eq : hello.record =
    hello.front ++ (hello.serverName.encode ++ (hello.after.map Extension.encode).flatten) := by
  simp only [record, front, message, extensions, List.append_assoc]

end ClientHello

/-! ### What looks like a server name -/

section
variable (d : List UInt8)

def byteAt (i : ℕ) : UInt8 := d.getD i 0

def nameLenAt (i : ℕ) : ℕ := (byteAt d (i + httpsLenOffset)).toNat * 256 + (byteAt d (i + httpsLenOffset + 1)).toNat

/-- The bytes `0 0 0 x`, and after a length in the bounds a host name that is not the end of the payload. -/
def LooksLikeName (i : ℕ) : Prop :=
  byteAt d i = 0 ∧ byteAt d (i + 1) = 0 ∧ byteAt d (i + 2) = 0 ∧ byteAt d (i + 3) ≠ 0 ∧
  minHostLen < nameLenAt d i ∧ nameLenAt d i ≤ maxHostLen ∧ i + httpsUrlOffset + nameLenAt d i < d.length ∧
  ∀ c ∈ (d.drop (i + httpsUrlOffset)).take (nameLenAt d i), isDomainChar c = true

instance (i : ℕ) : Decidable (LooksLikeName d i) := inferInstanceAs (Decidable (_ ∧ _))

end

section
variable {d : List UInt8} {i : ℕ}

theorem rd_eq_byteAt (h : i < d.length) : rd d i = .ok (byteAt d i) := by
  rw [rd, byteAt, List.getElem?_eq_getElem h, List.getD_eq_getElem?_getD, List.getElem?_eq_getElem h]; rfl

theorem atServerName_eq (h : i + 3 < d.length) : atServerName d i =
    .ok (decide (byteAt d i = 0 ∧ byteAt d (i + 1) = 0 ∧ byteAt d (i + 2) = 0 ∧ byteAt d (i + 3) ≠ 0)) := by
  rw [atServerName, rd_eq_byteAt (by omega), rd_eq_byteAt (by omega), rd_eq_byteAt (by omega), rd_eq_byteAt h]
  simp only [Bind.bind, Except.bind]
  by_cases h0 : byteAt d i = 0
  · by_cases h1 : byteAt d (i + 1) = 0
    · by_cases h2 : byteAt d (i + 2) = 0
      · simp [h0, h1, h2, pure, Except.pure]
      · simp [h0, h1, h2, pure, Except.pure]
    · simp [h0, h1, pure, Except.pure]
  · simp [h0, pure, Except.pure]

theorem serverNameLen_eq (h : i + httpsUrlOffset < d.length) : serverNameLen d i = .ok (nameLenAt d i) := by
  have h9 : httpsUrlOffset = 9 := rfl
  have h7 : httpsLenOffset = 7 := rfl
  rw [serverNameLen, rd_eq_byteAt (by omega), rd_eq_byteAt (by omega)]; rfl

theorem checkDomain_eq {pos len : ℕ} (h : pos + len ≤ d.length) :
    checkDomain d pos len = .ok (((d.drop pos).take len).all isDomainChar) := by
  induction len generalizing pos with
  | zero => rw [List.take_zero]; rfl
  | succ len ih =>
    have hpos : pos < d.length := by omega
    rw [checkDomain, rd_eq_byteAt hpos, List.drop_eq_getElem_cons hpos, List.take_succ_cons, List.all_cons]
    have hbyte : byteAt d pos = d[pos] := by
      rw [byteAt, List.getD_eq_getElem?_getD, List.getElem?_eq_getElem hpos]; rfl
    simp only [Bind.bind, Except.bind, hbyte]
    by_cases hc : isDomainChar d[pos] = true
    · rw [if_pos hc, ih (by omega), hc, Bool.true_and]
    · rw [if_neg hc, Bool.eq_false_iff.2 hc]; rfl

end

/-! ### The scan -/

section
variable {flow : DpiFlow} {i n : ℕ}

/-- The flow with the server name found at `i`. -/
def foundAt (flow : DpiFlow) (i : ℕ) : DpiFlow :=
  { flow with
    https := { matched := true, urlPos := some (i + httpsUrlOffset), urlLen := nameLenAt flow.l4Data i }
    clientHello := false }

/-- One turn of the scan. -/
theorem httpsLoop_succ (h : i + httpsUrlOffset < flow.l4Data.length) : httpsLoop flow (n + 1) i =
    if LooksLikeName flow.l4Data i then .ok (foundAt flow i) else httpsLoop flow n (i + 1) := by
  have h9 : httpsUrlOffset = 9 := rfl
  rw [httpsLoop, if_neg (Nat.not_le_of_lt h), atServerName_eq (by omega), serverNameLen_eq h]
  simp only [Bind.bind, Except.bind]
  by_cases hstart : byteAt flow.l4Data i = 0 ∧ byteAt flow.l4Data (i + 1) = 0 ∧ byteAt flow.l4Data (i + 2) = 0 ∧
      byteAt flow.l4Data (i + 3) ≠ 0; swap
  · have hno : ¬LooksLikeName flow.l4Data i := fun hl => hstart ⟨hl.1, hl.2.1, hl.2.2.1, hl.2.2.2.1⟩
    rw [if_neg fun heq => hstart (of_decide_eq_true heq), if_neg hno]
  rw [if_pos (decide_eq_true hstart)]
  by_cases hlen : nameLenAt flow.l4Data i ≤ minHostLen ∨ nameLenAt flow.l4Data i > flow.l4Data.length ∨
      nameLenAt flow.l4Data i > maxHostLen
  · have hno : ¬LooksLikeName flow.l4Data i := fun hl => by
      obtain ⟨-, -, -, -, hmin, hmax, hin, -⟩ := hl
      omega
    rw [if_pos hlen, if_neg hno]
  rw [if_neg hlen]
  by_cases hin : i + httpsUrlOffset + nameLenAt flow.l4Data i < flow.l4Data.length; swap
  · rw [if_neg hin, if_neg fun hl => hin hl.2.2.2.2.2.2.1]
  rw [if_pos hin, checkDomain_eq hin.le]
  by_cases hvalid : ∀ c ∈ (flow.l4Data.drop (i + httpsUrlOffset)).take (nameLenAt flow.l4Data i), isDomainChar c = true
  · have hyes : LooksLikeName flow.l4Data i :=
      ⟨hstart.1, hstart.2.1, hstart.2.2.1, hstart.2.2.2, by omega, by omega, hin, hvalid⟩
    rw [if_pos hyes]
    exact if_pos (List.all_eq_true.2 hvalid)
  · rw [if_neg fun hl => hvalid hl.2.2.2.2.2.2.2]
    exact if_neg fun hall => hvalid (List.all_eq_true.1 hall)

/-- The scan finds the first place that looks like a name. -/
theorem httpsLoop_first {k : ℕ} (hk : LooksLikeName flow.l4Data k) (hi : i ≤ k) (hn : flow.l4Data.length ≤ i + n)
    (hfirst : ∀ j, i ≤ j → j < k → ¬LooksLikeName flow.l4Data j) : httpsLoop flow n i = .ok (foundAt flow k) := by
  have hin : k + httpsUrlOffset < flow.l4Data.length := by
    have := hk.2.2.2.2.2.2.1
    omega
  induction n generalizing i with
  | zero => omega
  | succ n ih =>
    rw [httpsLoop_succ (by omega)]
    rcases Nat.eq_or_lt_of_le hi with rfl | hlt
    · rw [if_pos hk]
    · rw [if_neg (hfirst i (Nat.le_refl i) hlt)]
      exact ih hlt (by omega) fun j hj => hfirst j (by omega)

/-- Without such a place the flow waits for the rest of a ClientHello. -/
theorem httpsLoop_none (hn : flow.l4Data.length = i + n) (hpos : i < flow.l4Data.length)
    (hnone : ∀ j ≥ i, ¬LooksLikeName flow.l4Data j) : httpsLoop flow n i = .ok { flow with clientHello := true } := by
  induction n generalizing i with
  | zero => omega
  | succ n ih =>
    by_cases hin : i + httpsUrlOffset < flow.l4Data.length
    · have h9 : httpsUrlOffset = 9 := rfl
      rw [httpsLoop_succ hin, if_neg (hnone i (Nat.le_refl i))]
      exact ih (by omega) (by omega) fun j hj => hnone j (by omega)
    · rw [httpsLoop, if_pos (Nat.le_of_not_lt hin)]

/-- A name is reported at `k` exactly when `k` is the first place that looks like one. -/
theorem httpsLoop_found_iff (hne : flow.l4Data ≠ []) (k : ℕ) :
    (∃ r, httpsLoop flow flow.l4Data.length 0 = .ok r ∧ r.clientHello = false ∧
      r.https.urlPos = some (k + httpsUrlOffset)) ↔
      LooksLikeName flow.l4Data k ∧ ∀ j < k, ¬LooksLikeName flow.l4Data j := by
  have hpos : 0 < flow.l4Data.length := List.length_pos_iff.2 hne
  by_cases hex : ∃ j, LooksLikeName flow.l4Data j
  · have hfind := httpsLoop_first (Nat.find_spec hex) (Nat.zero_le _) (Nat.le_of_eq (Nat.zero_add _).symm)
      fun j _ hj => Nat.find_min hex hj
    rw [hfind]
    constructor
    · rintro ⟨r, hr, -, hurl⟩
      rw [← Except.ok.inj hr] at hurl
      have hk : Nat.find hex = k := Nat.add_right_cancel (Option.some.inj hurl)
      rw [← hk]
      exact ⟨Nat.find_spec hex, fun j hj => Nat.find_min hex hj⟩
    · rintro ⟨hk, hfirst⟩
      have hk : Nat.find hex = k := (Nat.find_eq_iff hex).2 ⟨hk, hfirst⟩
      rw [hk]
      exact ⟨_, rfl, rfl, rfl⟩
  · rw [httpsLoop_none (Nat.zero_add _).symm hpos fun j _ hj => hex ⟨j, hj⟩]
    refine iff_of_false ?_ fun h => hex ⟨k, h.1⟩
    rintro ⟨r, hr, hhello, -⟩
    rw [← Except.ok.inj hr] at hhello
    exact Bool.false_ne_true hhello.symm

end

/-! ### The extension -/

section
variable (host : HostName) (front tail : List UInt8)

theorem HostName.encode_eq : host.encode = 0 :: 0 :: 0 :: UInt8.ofNat (host.name.length + 5) ::
    UInt8.ofNat ((host.name.length + 3) / 256) :: UInt8.ofNat (host.name.length + 3) :: 0 :: 0 ::
    UInt8.ofNat host.name.length :: host.name := by
  have hle := host.length_le
  have hlength : (host.name.length + 5) / 256 = 0 := Nat.div_eq_of_lt (by omega)
  have hname : host.name.length / 256 = 0 := Nat.div_eq_of_lt (by omega)
  rw [HostName.encode, be16, be16, be16, be16, hlength, hname]; rfl

theorem byteAt_append (l : List UInt8) (k : ℕ) : byteAt (front ++ l) (front.length + k) = byteAt l k := by
  rw [byteAt, byteAt, List.getD_eq_getElem?_getD, List.getElem?_append_right (Nat.le_add_right ..),
    Nat.add_sub_cancel_left, ← List.getD_eq_getElem?_getD]

theorem nameLenAt_serverName :
    nameLenAt (front ++ (host.encode ++ tail)) front.length = host.name.length := by
  have hle := host.length_le
  have h7 : httpsLenOffset = 7 := rfl
  have hbyte : (UInt8.ofNat host.name.length).toNat = host.name.length := Nat.mod_eq_of_lt (by omega)
  rw [nameLenAt, h7, byteAt_append, Nat.add_assoc, byteAt_append, host.encode_eq]
  change 0 * 256 + (UInt8.ofNat host.name.length).toNat = _
  rw [hbyte, Nat.zero_mul, Nat.zero_add]

/-- The extension looks like a server name where the payload goes on behind it. -/
theorem looksLikeName_serverName :
    LooksLikeName (front ++ (host.encode ++ tail)) front.length ↔ tail ≠ [] := by
  have hge := host.length_ge
  have hle := host.length_le
  have h4 : minHostLen = 4 := rfl
  have h64 : maxHostLen = 64 := rfl
  have h9 : httpsUrlOffset = 9 := rfl
  have hname := nameLenAt_serverName host front tail
  have hlength : (front ++ (host.encode ++ tail)).length = front.length + 9 + host.name.length + tail.length := by
    rw [host.encode_eq, List.length_append, List.length_append]
    simp only [List.length_cons]
    omega
  have hdrop : ((front ++ (host.encode ++ tail)).drop (front.length + httpsUrlOffset)).take host.name.length =
      host.name := by
    rw [List.drop_append, h9, host.encode_eq, List.drop_of_length_le (by omega), Nat.add_sub_cancel_left]
    exact List.take_left
  have hthird : byteAt (front ++ (host.encode ++ tail)) (front.length + 3) ≠ 0 := by
    rw [byteAt_append, host.encode_eq]
    intro h
    have hval : (host.name.length + 5) % 256 = 0 := congrArg UInt8.toNat h
    omega
  have hfirst (k : ℕ) (hk : k < 3) : byteAt (front ++ (host.encode ++ tail)) (front.length + k) = 0 := by
    rw [byteAt_append, host.encode_eq]
    rcases k with _ | _ | _ | k
    · rfl
    · rfl
    · rfl
    · omega
  rw [LooksLikeName, hname, hdrop, hlength]
  constructor
  · intro h hnil
    have := h.2.2.2.2.2.2.1
    rw [hnil, List.length_nil] at this
    omega
  · intro h
    have hpos := List.length_pos_iff.2 h
    exact ⟨hfirst 0 (by omega), hfirst 1 (by omega), hfirst 2 (by omega), hthird, by omega, by omega, by omega,
      host.valid⟩

end

/-! ### The payload -/

section
variable (hello : ClientHello) (rest : List UInt8)

theorem ClientHello.payload_eq : hello.record ++ rest = hello.front ++ (hello.serverName.encode ++
    ((hello.after.map Extension.encode).flatten ++ rest)) := by
  rw [hello.record_eq, List.append_assoc, List.append_assoc]

theorem ClientHello.behind_ne_nil : (hello.after.map Extension.encode).flatten ++ rest ≠ [] ↔
    hello.after ≠ [] ∨ rest ≠ [] := by
  rw [ne_eq, List.append_eq_nil_iff, not_and_or]
  refine or_congr (not_congr ⟨fun h => ?_, fun h => by rw [h]; rfl⟩) Iff.rfl
  cases hafter : hello.after with
  | nil => rfl
  | cons e after =>
    rw [hafter, List.map_cons, List.flatten_cons] at h
    exact absurd (List.append_eq_nil_iff.1 h).1 (List.cons_ne_nil _ _)

theorem ClientHello.length_payload : 43 ≤ (hello.record ++ rest).length := by
  have hrandom := hello.random_length
  simp only [ClientHello.record, ClientHello.message, ClientHello.fields, be16, be24, List.length_append,
    List.length_cons, List.length_nil, hrandom]
  omega

/-- The header lets the scan start. -/
theorem dpiHttpsProto_record {flow : DpiFlow} (hflow : flow.l4Data = hello.record ++ rest) :
    dpiHttpsProto flow = httpsLoop flow flow.l4Data.length 0 := by
  have hlength := hello.length_payload rest
  rw [← hflow] at hlength
  have hbyte (i : ℕ) (hi : i < 16) : rd flow.l4Data i = .ok (byteAt flow.l4Data i) := rd_eq_byteAt (by omega)
  have h0 : byteAt flow.l4Data 0 = 0x16 := by rw [hflow]; rfl
  have h1 : byteAt flow.l4Data 1 = 0x03 := by rw [hflow]; rfl
  have h5 : byteAt flow.l4Data 5 = 0x01 := by rw [hflow]; rfl
  rw [dpiHttpsProto, if_neg (by omega), hbyte 0 (by omega), hbyte 1 (by omega), hbyte 5 (by omega), h0, h1, h5]
  simp only [Bind.bind, Except.bind, true_and, true_or, if_true]

end

/-- The scan reports the server name of a ClientHello exactly when nothing before its extension looks like a server name
and the name is not the end of the payload. -/
theorem serverName_found_iff (flow : DpiFlow) (hello : ClientHello) (rest : List UInt8) :
    (∃ r, dpiHttpsProto { flow with l4Data := hello.record ++ rest } = .ok r ∧ r.clientHello = false ∧
      r.https = ⟨true, some (hello.serverNamePos + httpsUrlOffset), hello.serverName.name.length⟩) ↔
    (hello.after ≠ [] ∨ rest ≠ []) ∧ ∀ j < hello.serverNamePos, ¬LooksLikeName (hello.record ++ rest) j := by
  obtain ⟨flow, hflow⟩ : ∃ flow' : DpiFlow, flow' = { flow with l4Data := hello.record ++ rest } := ⟨_, rfl⟩
  rw [← hflow]
  replace hflow : flow.l4Data = hello.record ++ rest := by rw [hflow]
  rw [← hflow]
  have hne : flow.l4Data ≠ [] := by
    have := hello.length_payload rest
    rw [← hflow] at this
    exact List.length_pos_iff.1 (by omega)
  have hname : LooksLikeName flow.l4Data hello.serverNamePos ↔ hello.after ≠ [] ∨ rest ≠ [] := by
    rw [hflow, hello.payload_eq, ClientHello.serverNamePos, looksLikeName_serverName, hello.behind_ne_nil]
  rw [dpiHttpsProto_record hello rest hflow, ← hname, ← httpsLoop_found_iff hne]
  constructor
  · rintro ⟨r, hr, hhello, hhttps⟩
    exact ⟨r, hr, hhello, by rw [hhttps]⟩
  · intro h
    have hlooks := (httpsLoop_found_iff hne _).1 h
    have hfound := @httpsLoop_first flow 0 flow.l4Data.length hello.serverNamePos hlooks.1 (Nat.zero_le _)
      (Nat.le_of_eq (Nat.zero_add _).symm) fun j _ hj => hlooks.2 j hj
    have hlen : nameLenAt flow.l4Data hello.serverNamePos = hello.serverName.name.length := by
      rw [hflow, hello.payload_eq, ClientHello.serverNamePos, nameLenAt_serverName]
    refine ⟨_, hfound, rfl, ?_⟩
    rw [foundAt, hlen]

/-! ### A name that ends the payload -/

def exampleHost : HostName where
  name := str "a.example"
  valid := by decide +kernel
  length_ge := by decide
  length_le := by decide

/-- A ClientHello of which the server name is the only extension. -/
def exampleHello (random : List UInt8) (hrandom : random.length = 32) : ClientHello where
  recordMinor := 0x01
  version := (0x03, 0x03)
  random := random
  sessionId := []
  cipherSuites := [(0x13, 0x01)]
  compressionMethods := [0]
  before := []
  serverName := exampleHost
  after := []
  random_length := hrandom
  sessionId_le := Nat.zero_le _
  cipherSuites_pos := Nat.one_pos
  cipherSuites_lt := by decide
  compressionMethods_pos := Nat.one_pos
  compressionMethods_lt := by decide

/-- A random value that holds the bytes of a server name of five characters. -/
def nameRandom : List UInt8 := [0, 0, 0, 1, 0, 0, 0, 0, 5] ++ str "other" ++ List.replicate 18 1

/-- The name at the end of the payload is not found; behind a random value that looks like a name another one is. -/
theorem serverName_missed :
    (∃ r, dpiHttpsProto ⟨6, 443, (exampleHello (List.replicate 32 1) rfl).record, false, {}, {}⟩ = .ok r ∧
      r.clientHello = true ∧ r.https = {}) ∧
    ∃ r, dpiHttpsProto ⟨6, 443, (exampleHello nameRandom rfl).record ++ [0], false, {}, {}⟩ = .ok r ∧
      r.https = ⟨true, some 20, 5⟩ ∧ (exampleHello nameRandom rfl).serverNamePos + httpsUrlOffset = 61 := by
  have hmissed : dpiHttpsProto ⟨6, 443, (exampleHello (List.replicate 32 1) rfl).record, false, {}, {}⟩ =
      .ok ⟨6, 443, (exampleHello (List.replicate 32 1) rfl).record, true, {}, {}⟩ := by decide +kernel
  have hother : dpiHttpsProto ⟨6, 443, (exampleHello nameRandom rfl).record ++ [0], false, {}, {}⟩ =
      .ok ⟨6, 443, (exampleHello nameRandom rfl).record ++ [0], false, {}, ⟨true, some 20, 5⟩⟩ := by decide +kernel
  exact ⟨⟨_, hmissed, rfl, rfl⟩, _, hother, rfl, by decide +kernel⟩

end Oaf
