import DOpenWrt.Lib.CString
import DOpenWrt.Oaf.FlowProto

/-!
# Payload inspection

What `app_filter.c` reads of the payload of a packet: the HTTP and TLS scanners of `dpi_main`, the QUIC test, and the
matching of a feature by position and by URL. Payload positions count from `l4_data`. A read outside the payload and a
write outside a buffer are faults.
-/

namespace Oaf
open CString (str cstr)

inductive DpiFault
  | read
  | write
  deriving DecidableEq

def minHttpDataLen : ℕ := 16
def httpsUrlOffset : ℕ := 9
def httpsLenOffset : ℕ := 7
def minHostLen : ℕ := 4
def maxHostLen : ℕ := 64
def maxUrlMatchLen : ℕ := 64
def maxPosInfoPerFeature : ℕ := 16
def maxSearchStrLen : ℕ := 32
def minReportUrlLen : ℕ := 4
def maxReportUrlLen : ℕ := 64

inductive HttpMethod
  | get
  | post
  deriving DecidableEq

structure HttpProto where
  matched : Bool := false
  method : Option HttpMethod := none
  urlPos : Option ℕ := none
  urlLen : ℤ := 0
  hostPos : Option ℕ := none
  hostLen : ℤ := 0
  dataPos : Option ℕ := none
  dataLen : ℤ := 0
  deriving DecidableEq

structure HttpsProto where
  matched : Bool := false
  urlPos : Option ℕ := none
  urlLen : ℤ := 0
  deriving DecidableEq

/-- What the inspection reads and fills in of `flow_info_t`; `l4_len` is the length of the payload. -/
structure DpiFlow where
  l4Protocol : ℕ
  dport : ℕ
  l4Data : List UInt8
  clientHello : Bool
  http : HttpProto := {}
  https : HttpsProto := {}
  deriving DecidableEq

structure AfPosInfo where
  pos : ℤ
  value : UInt8

/-- What the matching reads of a feature node. `search_str` is a string in a buffer of its size. -/
structure AfFeatureNode where
  hostUrl : List UInt8
  requestUrl : List UInt8
  posInfo : List AfPosInfo
  searchStr : List UInt8
  searchStr_lt : searchStr.length < maxSearchStrLen

section

variable (d : List UInt8)

/-- `data[i]`. -/
def rd (i : ℕ) : Except DpiFault UInt8 :=
  match d[i]? with
  | some c => .ok c
  | none => .error .read

/-- `memcmp(&data[pos], s, strlen(s)) == 0`, which may read all it compares. -/
def memEq (pos : ℕ) (s : List UInt8) : Except DpiFault Bool :=
  if pos + s.length ≤ d.length then .ok ((d.drop pos).take s.length = s) else .error .read

/-! ### HTTP -/

/-- A line of the header, from `start` to the line end at `i`. -/
def httpLine (i start : ℕ) (http : HttpProto) : Except DpiFault HttpProto := do
  if ← memEq d start (str "POST ") then
    return { http with
      matched := true
      method := some .post
      urlPos := some (start + 5)
      urlLen := i - start - 5 }
  else if ← memEq d start (str "GET ") then
    return { http with
      matched := true
      method := some .get
      urlPos := some (start + 4)
      urlLen := i - start - 4 }
  else if ← memEq d start (str "Host:") then
    return { http with
      hostPos := some (start + 6)
      hostLen := i - start - 6 }
  else return http

/-- The loop of `dpi_http_proto` with `n` bytes to go from `i`. -/
def httpLoop : ℕ → ℕ → ℕ → HttpProto → Except DpiFault HttpProto
  | 0, _, _, http => .ok http
  | n + 1, i, start, http => do
    if (← rd d i) ≠ 0x0d then httpLoop n (i + 1) start http
    else if (← rd d (i + 1)) ≠ 0x0a then httpLoop n (i + 1) start http
    else
      let http ← httpLine d i start http
      if (← rd d (i + 2)) ≠ 0x0d then httpLoop n (i + 1) (i + 2) http
      else if (← rd d (i + 3)) ≠ 0x0a then httpLoop n (i + 1) (i + 2) http
      else return { http with dataPos := some (i + 4), dataLen := d.length - i - 4 }

/-! ### TLS -/

def isDomainChar (c : UInt8) : Bool :=
  'a'.toNat ≤ c.toNat ∧ c.toNat ≤ 'z'.toNat ∨ 'A'.toNat ≤ c.toNat ∧ c.toNat ≤ 'Z'.toNat ∨
    '0'.toNat ≤ c.toNat ∧ c.toNat ≤ '9'.toNat ∨ c.toNat = '.'.toNat ∨ c.toNat = '-'.toNat ∨ c.toNat = ':'.toNat

/-- `check_domain` from a position on. -/
def checkDomain : ℕ → ℕ → Except DpiFault Bool
  | _, 0 => .ok true
  | pos, len + 1 => do
    if isDomainChar (← rd d pos) then checkDomain (pos + 1) len else return false

/-- The bytes `0 0 0 x` with `x` not zero. -/
def atServerName (i : ℕ) : Except DpiFault Bool := do
  if (← rd d i) ≠ 0 then return false
  else if (← rd d (i + 1)) ≠ 0 then return false
  else if (← rd d (i + 2)) ≠ 0 then return false
  else return (← rd d (i + 3)) ≠ 0

/-- The length field of a server name, in network order. -/
def serverNameLen (i : ℕ) : Except DpiFault ℕ := do
  let hi ← rd d (i + httpsLenOffset)
  let lo ← rd d (i + httpsLenOffset + 1)
  return hi.toNat * 256 + lo.toNat

end

/-- The loop of `dpi_https_proto` with `n` bytes to go from `i`. -/
def httpsLoop (flow : DpiFlow) : ℕ → ℕ → Except DpiFault DpiFlow
  | 0, _ => .ok flow
  | n + 1, i =>
    if i + httpsUrlOffset ≥ flow.l4Data.length then .ok { flow with clientHello := true }
    else do
      if ← atServerName flow.l4Data i then
        let urlLen ← serverNameLen flow.l4Data i
        if urlLen ≤ minHostLen ∨ urlLen > flow.l4Data.length ∨ urlLen > maxHostLen then httpsLoop flow n (i + 1)
        else if i + httpsUrlOffset + urlLen < flow.l4Data.length then
          if ← checkDomain flow.l4Data (i + httpsUrlOffset) urlLen then
            return { flow with
              https := { matched := true, urlPos := some (i + httpsUrlOffset), urlLen := urlLen }
              clientHello := false }
          else httpsLoop flow n (i + 1)
        else httpsLoop flow n (i + 1)
      else httpsLoop flow n (i + 1)

section

variable (flow : DpiFlow)

def dpiHttpProto : Except DpiFault DpiFlow :=
  if flow.l4Protocol ≠ ipprotoTcp then .ok flow
  else if flow.l4Data.length < minHttpDataLen then .ok flow
  else do
    let http ← httpLoop flow.l4Data flow.l4Data.length 0 0 flow.http
    return { flow with http := http }

def dpiHttpsProto : Except DpiFault DpiFlow :=
  if flow.l4Data.length < 16 then .ok flow
  else do
    let p0 ← rd flow.l4Data 0
    let p1 ← rd flow.l4Data 1
    let p5 ← rd flow.l4Data 5
    if p0 = 0x16 ∧ p1 = 0x03 ∧ p5 = 0x01 ∨ flow.clientHello then httpsLoop flow flow.l4Data.length 0
    else return flow

def dpiMain : Except DpiFault DpiFlow := do
  let flow ← dpiHttpProto flow
  dpiHttpsProto flow

/-! ### Matching -/

def afMatchQuic : Except DpiFault Bool :=
  if flow.l4Protocol ≠ ipprotoUdp then .ok false
  else if flow.l4Data.length < 8 then .ok false
  else do
    let firstByte ← rd flow.l4Data 0
    if firstByte &&& 0x80 = 0 then return false
    else
      let b1 ← rd flow.l4Data 1
      let b2 ← rd flow.l4Data 2
      let b3 ← rd flow.l4Data 3
      let b4 ← rd flow.l4Data 4
      let version := b1.toNat * 2 ^ 24 + b2.toNat * 2 ^ 16 + b3.toNat * 2 ^ 8 + b4.toNat
      if version = 1 ∨ version = 0 ∨ version = 0x6b3343cf ∨ 0xff000000 ≤ version then return true
      else return flow.dport = 443

/-- `k_memstr` from `pos` on, where `str` may start at the next `n` positions. -/
def kMemstrFrom (d s : List UInt8) : ℕ → ℕ → Except DpiFault (Option ℕ)
  | _, 0 => .ok none
  | pos, n + 1 => do
    if ← memEq d pos s then return some pos else kMemstrFrom d s (pos + 1) n

def kMemstr (d s : List UInt8) : Except DpiFault (Option ℕ) := kMemstrFrom d s 0 (d.length + 1 - s.length)

/-- The conversion of a position to an unsigned int. -/
def posOf (l4Len : ℕ) (info : AfPosInfo) : ℕ := u32 (if info.pos < 0 then l4Len + info.pos else info.pos)

def matchPosInfo : List AfPosInfo → Except DpiFault Bool
  | [] => .ok true
  | info :: rest =>
    let pos := posOf flow.l4Data.length info
    if pos ≥ flow.l4Data.length then .ok false
    else do
      if (← rd flow.l4Data pos) ≠ info.value then return false else matchPosInfo rest

def afMatchByPos (node : AfFeatureNode) : Except DpiFault Bool :=
  if node.posInfo = [] then .ok false
  else do
    if ← matchPosInfo flow (node.posInfo.take maxPosInfoPerFeature) then
      if node.searchStr ≠ [] then return (← kMemstr flow.l4Data node.searchStr).isSome else return true
    else return false

/-- `strncpy(buf, data + pos, n)` into a buffer of `size` bytes, seen as the string it leaves there: `n` bytes are
written, and read up to a NUL. -/
def strncpy (d : List UInt8) (size pos n : ℕ) : Except DpiFault (List UInt8) :=
  if n > size then .error .write
  else if 0 ∈ (d.drop pos).take n ∨ pos + n ≤ d.length then .ok (cstr ((d.drop pos).take n))
  else .error .read

/-- The copy of a span for the match: at most 63 bytes of it. The length is converted to the unsigned type of
`strncpy`. -/
def copyUrl (d : List UInt8) (pos : ℕ) (len : ℤ) : Except DpiFault (List UInt8) :=
  if len ≥ maxUrlMatchLen then strncpy d maxUrlMatchLen pos (maxUrlMatchLen - 1)
  else strncpy d maxUrlMatchLen pos (len % 2 ^ 64).toNat

/-- The first copy of `af_match_by_url`: the server name or the host. -/
def copyHost : Except DpiFault (List UInt8) :=
  match flow.https.matched, flow.https.urlPos, flow.http.matched, flow.http.hostPos with
  | true, some pos, _, _ => copyUrl flow.l4Data pos flow.https.urlLen
  | _, _, true, some pos => copyUrl flow.l4Data pos flow.http.hostLen
  | _, _, _, _ => .ok []

def afMatchByUrl (regexpMatch : List UInt8 → List UInt8 → Bool) (node : AfFeatureNode) : Except DpiFault Bool := do
  let url ← copyHost flow
  if url ≠ [] ∧ node.hostUrl ≠ [] ∧ regexpMatch node.hostUrl url then return true
  else
    match flow.http.matched, flow.http.urlPos with
    | true, some pos => do
      let url ← copyUrl flow.l4Data pos flow.http.urlLen
      return url ≠ [] ∧ node.requestUrl ≠ [] ∧ regexpMatch node.requestUrl url
    | _, _ => return false

/-- `memcpy` out of the payload into a buffer of `size` bytes. -/
def memcpy (d : List UInt8) (size pos n : ℕ) : Except DpiFault (List UInt8) :=
  if n > size then .error .write
  else if pos + n ≤ d.length then .ok ((d.drop pos).take n)
  else .error .read

/-- `update_url_visiting_info`: the new `visiting_url` of the client, none if it is left alone. -/
def updateUrlVisitingInfo : Except DpiFault (Option (List UInt8)) :=
  let span :=
    if flow.https.matched then flow.https.urlPos.map (·, u32 flow.https.urlLen)
    else if flow.http.matched then flow.http.hostPos.map (·, u32 flow.http.hostLen)
    else none
  match span with
  | none => .ok none
  | some (host, len) =>
    if len < minReportUrlLen ∨ len ≥ maxReportUrlLen then .ok none
    else some <$> memcpy flow.l4Data maxReportUrlLen host len

end

end Oaf
