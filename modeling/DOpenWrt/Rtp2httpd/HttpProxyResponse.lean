import DOpenWrt.Rtp2httpd.HttpChunkedDecoder
import DOpenWrt.Rtp2httpd.HttpParseRequest
import DOpenWrt.Rtp2httpd.Rtp
import DOpenWrt.Rtp2httpd.RewriteM3uLine

/-!
# The response of an HTTP upstream (`http_proxy.c`)

The session parses the head of the response, hands the body on as it comes, and holds a playlist back until it is
complete, to rewrite it. What the upstream server sends and when it can be read is an input; how much of an output the
client's queue takes is a parameter.
-/

namespace Rtp2httpd
open CString

open PrefixParser

/-! ### The head (`picohttpparser.c`, `http_headers.c`) -/

/-- What `phr_parse_response` returns when it succeeds. -/
structure PhrResponse where
  minorVersion : Nat
  status : Nat
  msg : List UInt8
  headers : List PhrHeader

/-- `PARSE_INT`. -/
def parseInt (mul : Nat) : PrefixParser UInt8 Nat := do
  let c ← next
  if isdigit c then return mul * (c.toNat - '0'.toNat) else fail

/-- The text behind the status code, without the spaces before it. -/
def statusMessage : List UInt8 → Option (List UInt8)
  | [] => some []
  | c :: text => if c = space then some (text.dropWhile (· = space)) else none

def phrParseResponse : PrefixParser UInt8 PhrResponse := do
  let minorVersion ← parseHttpVersion
  if (← peek) ≠ space then fail
  else
    advanceSpaces
    atLeast 4
    let status := (← parseInt 100) + (← parseInt 10) + (← parseInt 1)
    match statusMessage (← getTokenToEol) with
    | none => fail
    | some msg => return ⟨minorVersion, status, msg, ← parseHeaders httpHeadersMax []⟩

/-- The last header of that name. -/
def httpHeadersFind (headers : List PhrHeader) (name : List UInt8) : Option PhrHeader :=
  headers.foldl (fun found header => if httpHeaderNameIs header name then some header else found) none

def httpHeadersCopy (headers : List PhrHeader) (name : List UInt8) (destSize : Nat) : Option (List UInt8) :=
  (httpHeadersFind headers name).map fun header => httpHeadersCopyToken destSize header.value

def httpHeadersGetLong (headers : List PhrHeader) (name : List UInt8) : Option Int :=
  (httpHeadersFind headers name).bind httpHeaderValueLong

def httpHeadersWithoutFinalBlankLine (head : List UInt8) : List UInt8 :=
  if head.drop (head.length - 2) = str "\r\n" then head.take (head.length - 2)
  else if head.getLast? = some lineFeed then head.dropLast
  else head

namespace HttpProxy

/-- `HTTP_PROXY_RESPONSE_BUFFER_SIZE`. -/
def responseBufferSize : Nat := 8192

/-- `HTTP_PROXY_CONTENT_TYPE_SIZE`. -/
def contentTypeSize : Nat := 256

/-- `sizeof(transfer_encoding)`. -/
def transferEncodingSize : Nat := 256

/-- `sizeof(temp_buf)`. -/
def tempBufSize : Nat := 8192

/-! ### What the session reads from the head -/

structure TransferEncoding where
  responseIsChunked : Bool
  unsupportedTransferCoding : Bool
deriving DecidableEq, Repr

/-- The loop of `http_proxy_parse_transfer_encoding`, with whether there was a token. -/
def transferEncodingLoop : Nat → List UInt8 → Bool → TransferEncoding → Bool × TransferEncoding
  | 0, _, sawToken, t => (sawToken, t)
  | fuel + 1, cursor, sawToken, t =>
    let cursor := cursor.dropWhile (· ∈ str " \t,")
    if cursor = [] then (sawToken, t)
    else
      let token := cursor.takeWhile (· ∉ str ",; \t")
      let behind := cursor.drop token.length
      let element := behind.takeWhile (· ≠ byte ',')
      let t :=
        if eqIgnoreCase token (str "chunked") ∧ element.all isBlank ∧ ¬ t.responseIsChunked then
          { t with responseIsChunked := true }
        else { t with unsupportedTransferCoding := true }
      match behind.drop element.length with
      | [] => (true, t)
      | _ :: rest =>
        -- a coding over the chunks, even an empty one
        let t := if t.responseIsChunked then { t with unsupportedTransferCoding := true } else t
        transferEncodingLoop fuel rest true t

/-- A round takes a byte at least. -/
def parseTransferEncoding (value : List UInt8) : TransferEncoding :=
  let (sawToken, t) := transferEncodingLoop value.length value false ⟨false, false⟩
  if sawToken then t else { t with unsupportedTransferCoding := true }

/-- The fields that `http_proxy_parse_response_headers` fills from the head. -/
structure ResponseFields where
  statusCode : Nat
  contentLength : Int
  contentType : List UInt8
  /-- None where `transfer_encoding_seen` is 0. -/
  transferEncoding : Option TransferEncoding
  /-- `location_header`, if `has_location`. -/
  location : Option (List UInt8)

/-- `http_proxy_session_init`. -/
def ResponseFields.start : ResponseFields := ⟨0, -1, [], none, none⟩

def ResponseFields.responseIsChunked (fields : ResponseFields) : Bool :=
  fields.transferEncoding.any (·.responseIsChunked)

def readFields (response : PhrResponse) : ResponseFields where
  statusCode := response.status
  contentLength := (httpHeadersGetLong response.headers (str "Content-Length")).getD (-1)
  contentType := (httpHeadersCopy response.headers (str "Content-Type") contentTypeSize).getD []
  transferEncoding :=
    (httpHeadersCopy response.headers (str "Transfer-Encoding") transferEncodingSize).map parseTransferEncoding
  location := httpHeadersCopy response.headers (str "Location") httpProxyPathSize

/-! ### What becomes of the head -/

/-- Why there is no response, or not the rest of it. -/
inductive ProxyError where
  | transferEncoding | headersTooLarge | noBaseUrl | rewrite (e : RewriteError)
  /-- more is queued than the array holds -/
  | outOfBounds
deriving DecidableEq, Repr

/-- What the session takes from the request and the configuration. -/
structure Settings where
  method : List UInt8
  /-- The target of the request, and the token. Its `baseUrl` is not read. -/
  target : RewriteContext
  /-- The result of `build_proxy_base_url`. -/
  proxyBaseUrl : Option (List UInt8)
  appPathPrefix : List UInt8
  shouldSetR2hCookie : Bool

def Settings.isHead (settings : Settings) : Bool := eqIgnoreCase settings.method (str "HEAD")

def endsWithCase (suffix s : List UInt8) : Bool := eqIgnoreCase (s.drop (s.length - suffix.length)) suffix

def rewriteIsM3uUrl (url : List UInt8) : Bool :=
  let path := url.takeWhile (· ∉ str "?#")
  endsWithCase (str ".m3u8") path ∨ endsWithCase (str ".m3u") path

def rewriteIsM3uContentType (contentType : List UInt8) : Bool :=
  let contentType := contentType.dropWhile isspace
  startsWithCase (str "application/vnd.apple.mpegurl") contentType ∨
    startsWithCase (str "application/x-mpegurl") contentType ∨ startsWithCase (str "audio/x-mpegurl") contentType ∨
    startsWithCase (str "audio/mpegurl") contentType

def needsBodyRewrite (settings : Settings) (fields : ResponseFields) : Except ProxyError Bool :=
  if 200 ≤ fields.statusCode ∧ fields.statusCode < 300 ∧
      (rewriteIsM3uUrl settings.target.upstreamPath ∨ rewriteIsM3uContentType fields.contentType) ∧
      ¬ settings.isHead then
    if fields.transferEncoding.any fun t => ¬ t.responseIsChunked ∨ t.unsupportedTransferCoding then
      .error .transferEncoding
    else
      .ok (fields.responseIsChunked ∨ (0 < fields.contentLength ∧ fields.contentLength ≤ rewriteMaxBodySize) ∨
        fields.contentLength = -1)
  else .ok false

def isRedirectStatus (statusCode : Nat) : Bool := statusCode ∈ [301, 302, 303, 307, 308]

/-- `http_proxy_get_app_base_path`. -/
def appBasePath (settings : Settings) : Option (List UInt8) :=
  printed httpUrlBufferSize (settings.appPathPrefix ++ str "/")

/-- The `Location` of a redirect, if it is rewritten. -/
def rewrittenLocation (settings : Settings) (fields : ResponseFields) : Option (List UInt8) :=
  if isRedirectStatus fields.statusCode then
    fields.location.bind fun location => (appBasePath settings).bind fun base =>
      httpProxyBuildUrl { settings.target with baseUrl := base } location httpProxyPathSize
  else none

def statusLine (response : PhrResponse) : List UInt8 :=
  str "HTTP/1." ++ decimal response.minorVersion ++ str " " ++ decimal response.status ++
    (if response.msg = [] then [] else str " " ++ response.msg) ++ str "\r\n"

/-- A line of the rebuilt head: none for what continues a folded header. -/
def rebuiltHeader (location : List UInt8) (header : PhrHeader) : Option (List UInt8) :=
  header.name.map fun name =>
    if httpHeaderNameIs header (str "Location") then str "Location: " ++ location ++ str "\r\n"
    else name ++ str ": " ++ header.value ++ str "\r\n"

/-- The head with another `Location`, printed line by line. -/
def rebuiltHeaders (location : List UInt8) (response : PhrResponse) : Except ProxyError (List UInt8) :=
  (statusLine response :: response.headers.filterMap (rebuiltHeader location)).foldlM
    (fun head line => if line.length < responseBufferSize - head.length then .ok (head ++ line)
      else .error .headersTooLarge) []

/-- The `Set-Cookie` header, if there is one and it fits. -/
def cookieHeader (settings : Settings) (size : Nat) : List UInt8 :=
  if settings.shouldSetR2hCookie ∧ settings.target.r2hToken ≠ [] then
    let (stored, written) := httpBuildR2hTokenCookieHeader size settings.target.r2hToken settings.appPathPrefix
    if 0 < written ∧ written < size then stored.take written.toNat else []
  else []

/-- What `http_proxy_parse_response_headers` queues: the head, and what `http_proxy_queue_cookie_and_end_headers`
adds. -/
def forwardedHead (settings : Settings) (head : List UInt8) (response : PhrResponse) (fields : ResponseFields) :
    Except ProxyError (List (List UInt8)) := do
  let headers ← match rewrittenLocation settings fields with
    | some location => rebuiltHeaders location response
    | none => .ok (httpHeadersWithoutFinalBlankLine head)
  return [headers, cookieHeader settings httpCookieBufferSize, str "\r\n"]

/-- What is decided when the head is there. -/
structure HeadPlan where
  needsBodyRewrite : Bool
  /-- What is queued then. -/
  outputs : List (List UInt8)

def planHead (settings : Settings) (head : List UInt8) (response : PhrResponse) : Except ProxyError HeadPlan := do
  let fields := readFields response
  if ← needsBodyRewrite settings fields then return ⟨true, []⟩
  else return ⟨false, ← forwardedHead settings head response fields⟩

/-! ### The rewritten response -/

/-- The rewritten playlist. -/
def rewrittenBody (allocates : Nat → Bool) (settings : Settings) (text : List UInt8) : Except ProxyError (List UInt8) :=
  if text = [] then .ok []
  else match settings.proxyBaseUrl with
    | none => .error .noBaseUrl
    | some baseUrl =>
      ((rewritePlaylist allocates { settings.target with baseUrl } (cstr text)).output).mapError .rewrite

/-- The headers that a rewritten response gets anew. -/
def isReplacedHeader (line : List UInt8) : Bool :=
  startsWithCase (str "Content-Length:") line ∨ startsWithCase (str "Transfer-Encoding:") line ∨
    startsWithCase (str "Trailer:") line

/-- `snprintf` behind what the array holds; a line that does not fit is left out. -/
def appendHeader (headers line : List UInt8) : List UInt8 :=
  if line.length < responseBufferSize - headers.length then headers ++ line else headers

/-- The head of a rewritten response, from the saved one. -/
def rewrittenHead (settings : Settings) (saved : List UInt8) (bodySize : Nat) : Except ProxyError (List UInt8) :=
  let lines := ((cstr saved).splitOnP isLineEnd).filter fun line => line ≠ [] ∧ ¬ isReplacedHeader line
  let headers := (lines.map (· ++ str "\r\n")).foldl appendHeader []
  let headers := appendHeader headers (str "Content-Length: " ++ decimal bodySize ++ str "\r\n")
  let headers := headers ++ cookieHeader settings (responseBufferSize - headers.length)
  -- the empty line counts in full, also where it is cut off; the code reads one byte too far then and goes on
  match responseBufferSize - headers.length with
  | 0 | 1 => .error .outOfBounds
  | 2 => .ok (headers ++ str "\r\x00")
  | _ => .ok (headers ++ str "\r\n")

/-- What `http_proxy_finalize_rewrite` queues. -/
def rewrittenReply (allocates : Nat → Bool) (settings : Settings) (saved text : List UInt8) :
    Except ProxyError (List (List UInt8)) := do
  let body ← rewrittenBody allocates settings text
  return [← rewrittenHead settings saved body.length, body]

/-! ### The session -/

inductive State where
  | awaitingHeaders | streaming | complete | error
deriving DecidableEq, Repr

/-- The fields of `http_proxy_session_t` that the response uses, and what the client's queue has taken. -/
structure Session where
  state : State
  responseBuffer : List UInt8
  headersReceived : Bool
  fields : ResponseFields
  needsBodyRewrite : Bool
  chunkedDecoder : HttpChunkedDecoder
  savedResponseHeaders : List UInt8
  rewriteBodyBuffer : List UInt8
  bytesReceived : Nat
  output : List UInt8

/-- The request has been sent. -/
def Session.start : Session :=
  ⟨.awaitingHeaders, [], false, .start, false, httpChunkedDecoderInit, [], [], 0, []⟩

def Session.fail (s : Session) : Session := { s with state := .error }

/-- Whether `http_proxy_handle_socket_event` reads. -/
def Session.reading (s : Session) : Bool := s.state = .awaitingHeaders ∨ s.state = .streaming

/-- The room for the next `recv`. -/
def Session.offered (s : Session) : Nat :=
  match s.state with
  | .awaitingHeaders => responseBufferSize - 1 - s.responseBuffer.length
  | .streaming => if s.needsBodyRewrite then tempBufSize else bufferPoolBufferSize
  | _ => 0

/-- `http_proxy_append_rewrite_body`, with whether it succeeds. -/
def appendRewriteBody (buffer data : List UInt8) : List UInt8 × Bool :=
  if rewriteMaxBodySize - buffer.length < data.length then (buffer, false) else (buffer ++ data, true)

/-- What `recv` returns. -/
inductive Received where
  | data (bytes : List UInt8)
  | again
  | closed
  | failed

section
variable (allocates : Nat → Bool) (settings : Settings)
/- How much of `data` the client's queue takes behind the outputs so far. -/
variable (takes : List UInt8 → List UInt8 → Nat)

/-- An output; the session ends where it is not taken whole. -/
def queueOutput (s : Session) (data : List UInt8) : Session :=
  let taken := takes s.output data
  { s with
    output := s.output ++ data.take taken
    state := if taken < data.length then .error else s.state }

def queueOutputs (s : Session) (outputs : List (List UInt8)) : Session :=
  outputs.foldl (fun s data => if s.state = .error then s else queueOutput takes s data) s

/-- `http_proxy_finalize_rewrite`. -/
def finalizeRewrite (s : Session) : Session :=
  match rewrittenReply allocates settings s.savedResponseHeaders s.rewriteBodyBuffer with
  | .error _ => s.fail
  | .ok outputs =>
    let s := queueOutputs takes s outputs
    if s.state = .error then s else { s with state := .complete }

/-- `http_proxy_consume_rewrite_body`. -/
def consumeRewriteBody (s : Session) (data : List UInt8) : Session :=
  if s.fields.responseIsChunked then
    let fed := httpChunkedDecoderFeed appendRewriteBody s.chunkedDecoder s.rewriteBodyBuffer data
    let s := { s with chunkedDecoder := fed.decoder, rewriteBodyBuffer := fed.sink }
    if fed.result = .error ∨ fed.consumed ≠ data.length then s.fail
    else if fed.result = .done then finalizeRewrite allocates settings takes s
    else s
  else
    let (buffer, appended) := appendRewriteBody s.rewriteBodyBuffer data
    let s := { s with rewriteBodyBuffer := buffer }
    if ¬ appended then s.fail
    else if 0 ≤ s.fields.contentLength ∧ s.fields.contentLength ≤ s.bytesReceived then
      finalizeRewrite allocates settings takes s
    else s

/-- `http_proxy_handle_upstream_end`. -/
def handleUpstreamEnd (s : Session) : Session :=
  if s.needsBodyRewrite then
    if s.fields.responseIsChunked ∧ (httpChunkedDecoderFinish s.chunkedDecoder).2 ≠ .done then s.fail
    else finalizeRewrite allocates settings takes s
  else { s with state := .complete }

/-- The bytes before the body. -/
def headOf (buffer body : List UInt8) : List UInt8 := buffer.take (buffer.length - body.length)

/-- The end of `http_proxy_parse_response_headers`, behind the decision about the body. -/
def forwardHeaders (s : Session) (plan : HeadPlan) (head body : List UInt8) : Session :=
  let s := queueOutputs takes
    { s with
      needsBodyRewrite := plan.needsBodyRewrite
      savedResponseHeaders := if plan.needsBodyRewrite then head else [] } plan.outputs
  if s.state = .error then s
  else if settings.isHead then { s with responseBuffer := [], state := .complete }
  else { s with responseBuffer := body, state := .streaming }

/-- `http_proxy_parse_response_headers`. -/
def parseResponseHeaders (s : Session) : Session :=
  match phrParseResponse.parse s.responseBuffer with
  | .short => s
  | .bad => s.fail
  | .done response body =>
    let head := headOf s.responseBuffer body
    let s := { s with fields := readFields response, headersReceived := true }
    match planHead settings head response with
    | .error _ => s.fail
    | .ok plan => forwardHeaders settings takes s plan head body

/-- Body bytes for the client. -/
def forwardBody (s : Session) (data : List UInt8) : Session :=
  let s := queueOutput takes s data
  if s.state = .error then s
  else
    let s := { s with bytesReceived := s.bytesReceived + data.length }
    if 0 ≤ s.fields.contentLength ∧ s.fields.contentLength ≤ s.bytesReceived then { s with state := .complete } else s

/-- Body bytes, as they come. -/
def consumeBody (s : Session) (data : List UInt8) : Session :=
  if s.needsBodyRewrite then
    consumeRewriteBody allocates settings takes { s with bytesReceived := s.bytesReceived + data.length } data
  else forwardBody takes s data

/-- Phase 1 of `http_proxy_try_receive_response`, with the part of the body that comes with the head. -/
def receiveHeaders (s : Session) (bytes : List UInt8) : Session :=
  let s := parseResponseHeaders settings takes { s with responseBuffer := s.responseBuffer ++ bytes }
  if s.state ≠ .error ∧ s.headersReceived ∧ s.responseBuffer ≠ [] then
    consumeBody allocates settings takes { s with responseBuffer := [] } s.responseBuffer
  else s

def tryReceiveResponse (s : Session) (received : Received) : Session :=
  match s.state with
  | .streaming =>
    match received with
    | .data bytes => consumeBody allocates settings takes s bytes
    | .again => s
    | .closed | .failed => handleUpstreamEnd allocates settings takes s
  | .awaitingHeaders =>
    if s.offered = 0 then s.fail
    else match received with
      | .data bytes => receiveHeaders allocates settings takes s bytes
      | .again => s
      | .closed => { s with state := .complete }
      | .failed => s.fail
  | _ => s

/-! ### Runs -/

inductive UpstreamEvent where
  /-- so many bytes can be read -/
  | readable (n : Nat)
  | closed
  | failed
  /-- `POLLER_HUP` without `POLLER_IN` -/
  | hangup
  /-- `POLLER_ERR` -/
  | socketError

/-- The session, with what the upstream server has still to send and what has been read. -/
structure Exchange where
  session : Session
  unread : List UInt8
  received : List UInt8
  /-- The upstream server ended the response. -/
  ended : Bool

/-- What `http_proxy_handle_socket_event` makes of a hangup or of an error. -/
def handleSocketEnd (awaiting : State) (s : Session) : Session :=
  match s.state with
  | .streaming => handleUpstreamEnd allocates settings takes s
  | .awaitingHeaders => { s with state := awaiting }
  | _ => s

def handleSocketEvent (x : Exchange) : UpstreamEvent → Exchange
  | .readable n =>
    let bytes := x.unread.take (min n x.session.offered)
    { x with
      session := tryReceiveResponse allocates settings takes x.session (if bytes = [] then .again else .data bytes)
      unread := x.unread.drop bytes.length
      received := x.received ++ bytes }
  | .closed =>
    { x with
      session := tryReceiveResponse allocates settings takes x.session .closed
      ended := x.ended || x.session.reading }
  | .failed =>
    { x with
      session := tryReceiveResponse allocates settings takes x.session .failed
      ended := x.ended || x.session.reading }
  | .hangup =>
    { x with
      session := handleSocketEnd allocates settings takes .complete x.session
      ended := x.ended || x.session.reading }
  | .socketError =>
    { x with
      session := handleSocketEnd allocates settings takes .error x.session
      ended := x.ended || x.session.reading }

/-- The exchange in which the upstream server sends `response`. -/
def exchange (response : List UInt8) (events : List UpstreamEvent) : Exchange :=
  events.foldl (handleSocketEvent allocates settings takes) ⟨.start, response, [], false⟩

end

end HttpProxy

end Rtp2httpd
