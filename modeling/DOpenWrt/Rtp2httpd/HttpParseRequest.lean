import DOpenWrt.Lib.ReadLoop
import DOpenWrt.Rtp2httpd.PicoHttpParser

/-!
# Parsing a request

`http.c`: `http_parse_request`, which `connection_handle_read` calls after every read. The head is parsed over again
until it is there whole; the body then moves out of the input buffer.
-/

namespace Rtp2httpd
open CString

def inbufSize : Nat := 8192

def httpUrlBufferSize : Nat := 2048

def httpRequestBodyMaxSize : Nat := 4 * 1024 * 1024

inductive HttpParseState where
  | reqLine
  | headers
  | body
  | complete
deriving DecidableEq, Repr

/-- The whole `http_request_t`: `fields` are those the headers fill. No body before it is allocated, and `body_len` is
its length. -/
structure ClientRequest where
  method : List UInt8
  url : List UInt8
  fields : HttpRequest
  parseState : HttpParseState
  body : Option (List UInt8)
deriving DecidableEq, Repr

def clientRequestInit : ClientRequest := ⟨[], [], { httpRequestInit with contentLength := -1 }, .reqLine, none⟩

/-- The results 1 and -1. The call that needs more data, 0, has none. -/
inductive ParseResult where
  | complete
  | error
deriving DecidableEq, Repr

/-- What a call leaves: its result, the request and the input buffer. -/
abbrev ParseCall := Option ParseResult × ClientRequest × List UInt8

/-- The second half of `http_parse_request`. -/
def parseBody (req : ClientRequest) (inbuf : List UInt8) : ParseCall :=
  let bodySize := req.fields.contentLength.toNat
  if bodySize > httpRequestBodyMaxSize then (some .error, req, inbuf)
  else
    let body := req.body.getD []
    let remaining := bodySize - body.length
    let toCopy := min inbuf.length remaining
    let req := { req with body := some (body ++ inbuf.take toCopy) }
    let inbuf := inbuf.drop toCopy
    if body.length + toCopy ≥ bodySize then (some .complete, { req with parseState := .complete }, inbuf)
    else (none, req, inbuf)

/-- What is kept of a head. -/
def takeHead (token : Option (List UInt8)) (req : ClientRequest) (head : PhrRequest) : ClientRequest :=
  { req with
    method := httpHeadersCopyToken 16 head.method
    url := httpHeadersCopyToken httpUrlBufferSize head.path
    fields := head.headers.foldl (httpRequestConsumeHeader token) req.fields }

/-- The first half; `token` is the configured one. `pret` is what the parser takes off the buffer. -/
def parseHead (token : Option (List UInt8)) (req : ClientRequest) (inbuf : List UInt8) : ParseCall :=
  match phrParseRequest.parse inbuf with
  | .short => (if inbuf.length ≥ inbufSize then some .error else none, req, inbuf)
  | .bad => (some .error, req, inbuf)
  | .done head leftover =>
    let req := takeHead token req head
    if req.fields.contentLength > 0 then parseBody { req with parseState := .body } leftover
    else (some .complete, { req with parseState := .complete }, leftover)

def httpParseRequest (token : Option (List UInt8)) (req : ClientRequest) (inbuf : List UInt8) : ParseCall :=
  match req.parseState with
  | .reqLine | .headers => parseHead token req inbuf
  | .body => parseBody req inbuf
  | .complete => (none, req, inbuf)

/-- The calls after the reads of a connection, up to the result. -/
def parseReads (token : Option (List UInt8)) (reads : List (List UInt8)) : ParseCall :=
  ReadLoop.run (httpParseRequest token) clientRequestInit [] reads

/-- A whole request head, with nothing behind it. -/
def IsRequestHead (head : List UInt8) : Prop := ∃ request, phrParseRequest.parse head = .done request []

variable {token : Option (List UInt8)} {req req' : ClientRequest} {x y l : List UInt8} {r : ParseResult}

/-! ### The body -/

def ClientRequest.bodySize (req : ClientRequest) : Nat := req.fields.contentLength.toNat

def ClientRequest.bodyBytes (req : ClientRequest) : List UInt8 := req.body.getD []

theorem parseBody_tooLarge (hsize : httpRequestBodyMaxSize < req.bodySize) (x : List UInt8) :
    parseBody req x = (some .error, req, x) := if_pos hsize

theorem parseBody_part (hsize : req.bodySize ≤ httpRequestBodyMaxSize)
    (hx : req.bodyBytes.length + x.length < req.bodySize) :
    parseBody req x = (none, { req with body := some (req.bodyBytes ++ x) }, []) := by
  have hcopy : min x.length (req.bodySize - req.bodyBytes.length) = x.length := by omega
  refine (if_neg hsize.not_gt).trans ((if_neg ?_).trans ?_)
  · exact (hcopy ▸ hx).not_ge
  · change (none, { req with body := some (req.bodyBytes ++ x.take (min _ (req.bodySize - req.bodyBytes.length))) },
      x.drop (min _ (req.bodySize - req.bodyBytes.length))) = _
    rw [hcopy, List.take_length, List.drop_length]

theorem parseBody_whole (hsize : req.bodySize ≤ httpRequestBodyMaxSize)
    (hx : req.bodySize ≤ req.bodyBytes.length + x.length) :
    parseBody req x = (some .complete,
      { req with
        body := some (req.bodyBytes ++ x.take (req.bodySize - req.bodyBytes.length))
        parseState := .complete },
      x.drop (req.bodySize - req.bodyBytes.length)) := by
  have hcopy : min x.length (req.bodySize - req.bodyBytes.length) = req.bodySize - req.bodyBytes.length := by omega
  refine (if_neg hsize.not_gt).trans ((if_pos ?_).trans ?_)
  · change req.bodyBytes.length + min x.length (req.bodySize - req.bodyBytes.length) ≥ req.bodySize
    omega
  · change (some ParseResult.complete,
      { req with
        body := some (req.bodyBytes ++ x.take (min _ (req.bodySize - req.bodyBytes.length)))
        parseState := .complete },
      x.drop (min _ (req.bodySize - req.bodyBytes.length))) = _
    rw [hcopy]

/-- A call without a result has taken the whole buffer. -/
theorem parseBody_wait (h : parseBody req x = (none, req', l)) :
    req.bodySize ≤ httpRequestBodyMaxSize ∧ req.bodyBytes.length + x.length < req.bodySize ∧
      req' = { req with body := some (req.bodyBytes ++ x) } ∧ l = [] := by
  rcases lt_or_ge httpRequestBodyMaxSize req.bodySize with hsize | hsize
  · rw [parseBody_tooLarge hsize] at h
    cases h
  rcases lt_or_ge (req.bodyBytes.length + x.length) req.bodySize with hx | hx
  · rw [parseBody_part hsize hx] at h
    cases h
    exact ⟨hsize, hx, rfl, rfl⟩
  · rw [parseBody_whole hsize hx] at h
    cases h

/-- What has been taken need not come again. -/
theorem parseBody_append (h : parseBody req x = (none, req', l)) (y : List UInt8) :
    parseBody req (x ++ y) = parseBody req' (l ++ y) := by
  obtain ⟨hsize, hx, rfl, rfl⟩ := parseBody_wait h
  set req' : ClientRequest := { req with body := some (req.bodyBytes ++ x) } with hreq'
  have hbody' : req'.bodyBytes = req.bodyBytes ++ x := rfl
  have hlen : req'.bodyBytes.length = req.bodyBytes.length + x.length := by rw [hbody', List.length_append]
  have hsize' : req'.bodySize ≤ httpRequestBodyMaxSize := hsize
  have heq : req'.bodySize = req.bodySize := rfl
  rw [List.nil_append]
  rcases lt_or_ge (req'.bodyBytes.length + y.length) req'.bodySize with hy | hy
  · rw [parseBody_part hsize' hy, parseBody_part hsize (by rw [List.length_append]; omega), hbody', List.append_assoc]
  · have hrest : req.bodySize - req.bodyBytes.length = x.length + (req'.bodySize - req'.bodyBytes.length) := by omega
    rw [parseBody_whole hsize' hy, parseBody_whole hsize (by rw [List.length_append]; omega), hrest,
      List.take_length_add_append, List.drop_length_add_append, hbody', List.append_assoc]

theorem parseBody_result (h : parseBody req x = (some r, req', l)) (y : List UInt8) :
    parseBody req (x ++ y) = (some r, req', l ++ y) := by
  rcases lt_or_ge httpRequestBodyMaxSize req.bodySize with hsize | hsize
  · rw [parseBody_tooLarge hsize] at h ⊢
    cases h
    rfl
  rcases lt_or_ge (req.bodyBytes.length + x.length) req.bodySize with hx | hx
  · rw [parseBody_part hsize hx] at h
    cases h
  · have hle : req.bodySize - req.bodyBytes.length ≤ x.length := by omega
    rw [parseBody_whole hsize hx] at h
    cases h
    rw [parseBody_whole hsize (by rw [List.length_append]; omega), List.take_append_of_le_length hle,
      List.drop_append_of_le_length hle]

/-! ### The head -/

/-- What is left of the input in a state: a head that has not come whole, with what is behind it, or a piece of the
body. -/
def Unparsed (req : ClientRequest) (input : List UInt8) : Prop :=
  match req.parseState with
  | .reqLine => ∃ head body, input = head ++ body ∧ IsRequestHead head ∧ head.length ≤ inbufSize
  | .body => True
  | _ => False

theorem unparsed_reqLine (hstate : req.parseState = .reqLine) : Unparsed req x ↔
    ∃ head body, x = head ++ body ∧ IsRequestHead head ∧ head.length ≤ inbufSize := by
  rw [Unparsed, hstate]

theorem unparsed_body (hstate : req.parseState = .body) (x : List UInt8) : Unparsed req x := by
  rw [Unparsed, hstate]
  trivial

theorem httpParseRequest_body (hstate : req.parseState = .body) (x : List UInt8) :
    httpParseRequest token req x = parseBody req x := by
  rw [httpParseRequest, hstate]

theorem httpParseRequest_reqLine (hstate : req.parseState = .reqLine) (x : List UInt8) :
    httpParseRequest token req x = parseHead token req x := by
  rw [httpParseRequest, hstate]

/-- The call that sees the end of the head. -/
theorem parseHead_done {head : PhrRequest} (h : phrParseRequest.parse x = .done head l) : parseHead token req x =
    if (takeHead token req head).fields.contentLength > 0 then
      parseBody { takeHead token req head with parseState := .body } l
    else (some .complete, { takeHead token req head with parseState := .complete }, l) := by
  rw [parseHead, h]

theorem parseHead_short (h : phrParseRequest.parse x = .short) (hx : x.length < inbufSize) :
    parseHead token req x = (none, req, x) := by
  rw [parseHead, h]
  dsimp only
  rw [if_neg hx.not_ge]

/-- Of the input that starts with a head, a read either has all of the head or is too little. -/
theorem head_short_or_done {head body : List UInt8} (hhead : IsRequestHead head) (h : x ++ y = head ++ body) :
    phrParseRequest.parse x = .short ∧ x.length < head.length ∨
      ∃ request l, phrParseRequest.parse x = .done request l ∧
        phrParseRequest.parse (x ++ y) = .done request (l ++ y) := by
  obtain ⟨request, hrequest⟩ := hhead
  rcases List.append_eq_append_iff.1 h with ⟨rest, rfl, -⟩ | ⟨rest, rfl, -⟩
  · rcases eq_or_ne rest [] with rfl | hne
    · rw [List.append_nil] at hrequest
      exact .inr ⟨request, [], hrequest, PrefixParser.parse_append_done hrequest y⟩
    · have := List.length_pos_iff.2 hne
      exact .inl ⟨PrefixParser.parse_short hrequest hne, by rw [List.length_append]; omega⟩
  · have hx := PrefixParser.parse_append_done hrequest rest
    exact .inr ⟨request, rest, hx, PrefixParser.parse_append_done hx y⟩

theorem httpParseRequest_steady (token : Option (List UInt8)) : ReadLoop.Steady (httpParseRequest token) Unparsed where
  wait := by
    intro req req' x y l hunparsed h
    cases hstate : req.parseState with
    | headers => rw [Unparsed, hstate] at hunparsed; exact hunparsed.elim
    | complete => rw [Unparsed, hstate] at hunparsed; exact hunparsed.elim
    | body =>
      rw [httpParseRequest_body hstate] at h ⊢
      obtain ⟨-, -, hreq', rfl⟩ := parseBody_wait h
      have hstate' : req'.parseState = .body := by rw [hreq']; exact hstate
      exact ⟨unparsed_body hstate' _, (parseBody_append h y).trans (httpParseRequest_body hstate' _).symm⟩
    | reqLine =>
      obtain ⟨head, body, hinput, hhead, hsize⟩ := (unparsed_reqLine hstate).1 hunparsed
      rw [httpParseRequest_reqLine hstate] at h ⊢
      rcases head_short_or_done hhead hinput with ⟨hshort, hlt⟩ | ⟨request, rest, hx, hxy⟩
      · rw [parseHead_short hshort (hlt.trans_le hsize)] at h
        cases h
        exact ⟨hunparsed, (httpParseRequest_reqLine hstate _).symm⟩
      · rw [parseHead_done hx] at h
        rw [parseHead_done hxy]
        split_ifs at h ⊢ with hbody
        · obtain ⟨-, -, hreq', rfl⟩ := parseBody_wait h
          have hstate' : req'.parseState = .body := by rw [hreq']
          exact ⟨unparsed_body hstate' _, (parseBody_append h y).trans (httpParseRequest_body hstate' _).symm⟩
        · cases h
  answer := by
    intro req req' x y l r hunparsed h
    cases hstate : req.parseState with
    | headers => rw [Unparsed, hstate] at hunparsed; exact hunparsed.elim
    | complete => rw [Unparsed, hstate] at hunparsed; exact hunparsed.elim
    | body =>
      rw [httpParseRequest_body hstate] at h ⊢
      exact parseBody_result h y
    | reqLine =>
      obtain ⟨head, body, hinput, hhead, hsize⟩ := (unparsed_reqLine hstate).1 hunparsed
      rw [httpParseRequest_reqLine hstate] at h ⊢
      rcases head_short_or_done hhead hinput with ⟨hshort, hlt⟩ | ⟨request, rest, hx, hxy⟩
      · rw [parseHead_short hshort (hlt.trans_le hsize)] at h
        cases h
      · rw [parseHead_done hx] at h
        rw [parseHead_done hxy]
        split_ifs at h ⊢ with hbody
        · exact parseBody_result h y
        · cases h
          rfl

instance IsRequestHead.decidable (head : List UInt8) : Decidable (IsRequestHead head) :=
  match h : phrParseRequest.parse head with
  | .done request [] => isTrue ⟨request, h⟩
  | .done _ (_ :: _) => isFalse fun ⟨_, hr⟩ => by rw [h] at hr; cases hr
  | .short => isFalse fun ⟨_, hr⟩ => by rw [h] at hr; cases hr
  | .bad => isFalse fun ⟨_, hr⟩ => by rw [h] at hr; cases hr

theorem IsRequestHead.ne_nil {head : List UInt8} (h : IsRequestHead head) : head ≠ [] := by
  rintro rfl
  obtain ⟨request, h⟩ := h
  cases h

/-- The calls after the reads of a request, however its bytes arrive, end as one call on all of the bytes does: with
the same result, the same request and the same input behind it. -/
theorem parseReads_eq (token : Option (List UInt8)) {head body : List UInt8} {reads : List (List UInt8)}
    (hhead : IsRequestHead head) (hsize : head.length ≤ inbufSize) (hreads : reads.flatten = head ++ body) :
    parseReads token reads = httpParseRequest token clientRequestInit (head ++ body) := by
  cases reads with
  | nil => exact absurd (List.append_eq_nil_iff.1 hreads.symm).1 hhead.ne_nil
  | cons read reads =>
    rw [← hreads]
    refine (httpParseRequest_steady token).run_eq ((unparsed_reqLine rfl).2 ⟨head, body, ?_, hhead, hsize⟩)
    rw [List.nil_append, hreads]

/-- A head that comes in two reads, and a body of which a byte too many comes in the last. -/
theorem parseReads_eq_three :
    let head := str "POST /a HTTP/1.1\r\nContent-Length: 3\r\nAccept: b\r\n\r\n"
    let reads := [head.take 30, head.drop 30 ++ str "xy", str "zP"]
    parseReads none reads = httpParseRequest none clientRequestInit (head ++ str "xyzP") ∧
      (parseReads none reads).1 = some .complete ∧ (parseReads none reads).2.2 = str "P" :=
  ⟨parseReads_eq none (by decide +kernel) (by decide +kernel) (by decide +kernel), by decide +kernel,
    by decide +kernel⟩

end Rtp2httpd
