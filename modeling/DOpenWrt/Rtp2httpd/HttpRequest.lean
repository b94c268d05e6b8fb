import DOpenWrt.Lib.Run
import DOpenWrt.Lib.CString

/-!
# Request headers

`http.c`: how the headers of a request are kept for the upstream server, without the access token in the `Cookie`
and `User-Agent` headers.
-/

namespace Rtp2httpd
open CString

def httpCookieBufferSize : Nat := 4096

/-- `sizeof(req->raw_headers)`. -/
def rawHeadersSize : Nat := 4096

/-- A `struct phr_header`: no name for the continuation of a folded header. The parser takes no NUL in a name. -/
structure PhrHeader where
  name : Option (List UInt8)
  value : List UInt8
  name_ne_nul : ∀ n ∈ name, 0 ∉ n

def httpHeaderNameIs (header : PhrHeader) (name : List UInt8) : Bool :=
  match header.name with
  | none => false
  | some n => n.length = name.length ∧ startsWithCase name n

/-- The string `http_headers_copy_token` leaves in a buffer of `destSize` bytes. -/
def httpHeadersCopyToken (destSize : Nat) (src : List UInt8) : List UInt8 := cstr (src.take (destSize - 1))

def httpHeaderValueLong (header : PhrHeader) : Option Int :=
  if header.value = [] ∨ header.value.length ≥ 32 then none
  else match strtol (httpHeadersCopyToken 32 header.value) with
    | some (value, []) => some value
    | _ => none

/-- A line of `raw_headers`. -/
structure RawHeader where
  name : List UInt8
  value : List UInt8
deriving DecidableEq, Repr

/-- The line as `snprintf` writes it. -/
def RawHeader.render (h : RawHeader) : List UInt8 := h.name ++ str ": " ++ h.value ++ str "\r\n"

structure HttpRequest where
  hostname : List UInt8
  userAgent : List UInt8
  accept : List UInt8
  ifNoneMatch : List UInt8
  xForwardedFor : List UInt8
  xForwardedHost : List UInt8
  xForwardedProto : List UInt8
  xRequestSnapshot : Bool
  cookie : List UInt8
  accessControlRequestMethod : List UInt8
  accessControlRequestHeaders : List UInt8
  contentLength : Int
  rawHeaders : List RawHeader
deriving DecidableEq, Repr

def httpRequestInit : HttpRequest := ⟨[], [], [], [], [], [], [], false, [], [], [], 0, []⟩

/-- `raw_headers`, whose length is `raw_headers_len`. -/
def HttpRequest.rawBytes (req : HttpRequest) : List UInt8 := req.rawHeaders.flatMap RawHeader.render

/-! ### Filters -/

/-- The loop of `http_filter_cookie` at `pos`, with the output so far. No result for -1. -/
def filterCookieLoop (excludeName : List UInt8) (outputSize : Nat) :
    Nat → List UInt8 → List UInt8 → Bool → Option (List UInt8)
  | 0, _, output, _ => some output
  | fuel + 1, pos, output, firstCookie =>
    let pos := pos.dropWhile isBlank
    if pos = [] then some output
    else
      let cookie := pos.takeWhile (· ≠ UInt8.ofNat ';'.toNat)
      let next := pos.dropWhile (· ≠ UInt8.ofNat ';'.toNat)
      let shouldExclude := cookie.length > excludeName.length ∧
        pos[excludeName.length]? = some (UInt8.ofNat '='.toNat) ∧ startsWithCase excludeName pos
      if ¬ shouldExclude ∧ cookie.length > 0 then
        if ¬ firstCookie ∧ output.length + 2 ≥ outputSize then none
        else
          let output := if firstCookie then output else output ++ str "; "
          if output.length + cookie.length ≥ outputSize then none
          else match next with
            | [] => some (output ++ cookie)
            | _ :: pos => filterCookieLoop excludeName outputSize fuel pos (output ++ cookie) false
      else match next with
        | [] => some output
        | _ :: pos => filterCookieLoop excludeName outputSize fuel pos output firstCookie

def httpFilterCookie (cookieHeader excludeName : List UInt8) (outputSize : Nat) : Option (List UInt8) :=
  -- a round consumes a byte or ends the loop
  filterCookieLoop excludeName outputSize (cookieHeader.length + 1) cookieHeader [] true

def r2hToken : List UInt8 := str "R2HTOKEN/"

def httpFilterUserAgentToken (userAgent : List UInt8) (outputSize : Nat) : Option (List UInt8) :=
  match strcasestr r2hToken userAgent with
  | none => if userAgent.length ≥ outputSize then none else some userAgent
  | some tokenStart =>
    let before := userAgent.take tokenStart
    let after := (userAgent.drop (tokenStart + 9)).dropWhile fun c => ¬ isBlank c
    let hasLeadingSpace := before.getLast?.any isBlank
    let hasTrailingSpace := after.head?.any isBlank
    let pre := if hasLeadingSpace then before.dropLast else before
    let suffix := if ¬ hasLeadingSpace ∧ hasTrailingSpace then after.tail else after
    if pre.length + suffix.length ≥ outputSize then none else some (pre ++ suffix)

/-! ### Consuming a header -/

def httpRequestAppendRawHeader (req : HttpRequest) (name value : List UInt8) : HttpRequest :=
  let headerLineLen := name.length + 2 + value.length + 2
  if value = [] then req
  else if req.rawBytes.length + headerLineLen ≥ rawHeadersSize - 1 then req
  else { req with rawHeaders := req.rawHeaders ++ [⟨cstr name, cstr value⟩] }

/-- The headers that are not kept. -/
def notForwarded : List (List UInt8) :=
  [str "Host", str "Connection", str "Content-Length", str "Transfer-Encoding", str "Accept-Encoding",
    str "X-Forwarded-For", str "X-Forwarded-Host", str "X-Forwarded-Proto"]

/-- What is kept of a `User-Agent`: what the filter returns if it is not empty, else the header as it came. -/
def keepUserAgent (req : HttpRequest) (header : PhrHeader) (name : List UInt8) : Option (List UInt8) → HttpRequest
  | some (c :: filtered) => httpRequestAppendRawHeader req name (c :: filtered)
  | _ => if header.value.length > 0 then httpRequestAppendRawHeader req name header.value else req

/-- The first half of `http_request_consume_header`; `r2hToken` is the configured token. -/
def keepRawHeader (token : Option (List UInt8)) (req : HttpRequest) (header : PhrHeader) (name : List UInt8) :
    HttpRequest :=
  let configured := token.any (· ≠ [])
  let value := httpHeadersCopyToken httpCookieBufferSize header.value
  if notForwarded.any (httpHeaderNameIs header) then req
  else if httpHeaderNameIs header (str "Cookie") ∧ configured then
    match httpFilterCookie value (str "r2h-token") httpCookieBufferSize with
    | some filtered => if filtered.length > 0 then httpRequestAppendRawHeader req name filtered else req
    | none => req
  else if httpHeaderNameIs header (str "User-Agent") ∧ configured then
    keepUserAgent req header name (httpFilterUserAgentToken value httpCookieBufferSize)
  else if header.value.length > 0 then httpRequestAppendRawHeader req name header.value
  else req

/-- The second half: the fields of the request. -/
def readHeader (req : HttpRequest) (header : PhrHeader) : HttpRequest :=
  let value := header.value
  if httpHeaderNameIs header (str "Host") then { req with hostname := httpHeadersCopyToken 256 value }
  else if httpHeaderNameIs header (str "User-Agent") then { req with userAgent := httpHeadersCopyToken 256 value }
  else if httpHeaderNameIs header (str "Accept") then { req with accept := httpHeadersCopyToken 256 value }
  else if httpHeaderNameIs header (str "If-None-Match") then
    { req with ifNoneMatch := httpHeadersCopyToken 256 value }
  else if httpHeaderNameIs header (str "X-Request-Snapshot") then
    { req with xRequestSnapshot := value.head? = some (UInt8.ofNat '1'.toNat) }
  else if httpHeaderNameIs header (str "X-Forwarded-For") then
    let ip := ((value.takeWhile (· ≠ UInt8.ofNat ','.toNat)).reverse.dropWhile isBlank).reverse
    { req with xForwardedFor := httpHeadersCopyToken 64 ip }
  else if httpHeaderNameIs header (str "X-Forwarded-Host") then
    { req with xForwardedHost := httpHeadersCopyToken 256 value }
  else if httpHeaderNameIs header (str "X-Forwarded-Proto") then
    { req with xForwardedProto := httpHeadersCopyToken 16 value }
  else if httpHeaderNameIs header (str "Content-Length") then
    match httpHeaderValueLong header with
    | some cl => { req with contentLength := if cl < 0 ∨ cl > 2147483647 then 0 else cl }
    | none => { req with contentLength := 0 }
  else if httpHeaderNameIs header (str "Cookie") then
    { req with cookie := httpHeadersCopyToken httpCookieBufferSize value }
  else if httpHeaderNameIs header (str "Access-Control-Request-Method") then
    { req with accessControlRequestMethod := httpHeadersCopyToken 64 value }
  else if httpHeaderNameIs header (str "Access-Control-Request-Headers") then
    { req with accessControlRequestHeaders := httpHeadersCopyToken 512 value }
  else req

def httpRequestConsumeHeader (token : Option (List UInt8)) (req : HttpRequest) (header : PhrHeader) : HttpRequest :=
  match header.name with
  | none => req
  | some name => readHeader (keepRawHeader token req header name) header

end Rtp2httpd
