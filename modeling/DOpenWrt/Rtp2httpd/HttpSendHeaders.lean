import DOpenWrt.Lib.Run
import DOpenWrt.Lib.CString

/-!
# Response headers (`http.c`)

`send_http_headers` prints the headers piece by piece into an array of 2048 bytes. The length counts what `snprintf`
would have printed, and only at the end is it cut to the array; before that the offset and the room of the next piece
are computed from it.
-/

namespace Rtp2httpd
open CString

/-! ### The source -/

def intMax : Nat := 2 ^ 31 - 1

/-- Addition of an `int`. -/
def intAdd (a b : Int) : Int := (a + b).bmod (2 ^ 32)

/-- `sizeof(headers)`. -/
def headersSize : Nat := 2048

/-- `snprintf` into `size` bytes: what it stores, and what it returns. -/
def snprintf (size : Nat) (text : List UInt8) : List UInt8 × Int :=
  (if size = 0 then [] else text.take (size - 1) ++ [0], if text.length ≤ intMax then text.length else -1)

def isalnum (c : UInt8) : Bool :=
  isdigit c ∨ 'A'.toNat ≤ c.toNat ∧ c.toNat ≤ 'Z'.toNat ∨ 'a'.toNat ≤ c.toNat ∧ c.toNat ≤ 'z'.toNat

def hexChars : List UInt8 := str "0123456789ABCDEF"

def httpUrlEncode (s : List UInt8) : List UInt8 :=
  s.flatMap fun c =>
    if isalnum c ∨ c ∈ str "-_.~/" then [c]
    else [UInt8.ofNat '%'.toNat, hexChars.getD (c.toNat / 16) 0, hexChars.getD (c.toNat % 16) 0]

inductive HttpStatus where
  | status200 | status404 | status400 | status501 | status503 | status500 | status401 | status304 | status204
deriving DecidableEq, Repr

/-- `response_codes`. -/
def responseCodes : HttpStatus → List UInt8
  | .status200 => str "HTTP/1.1 200 OK\r\n"
  | .status404 => str "HTTP/1.1 404 Not Found\r\n"
  | .status400 => str "HTTP/1.1 400 Bad Request\r\n"
  | .status501 => str "HTTP/1.1 501 Not Implemented\r\n"
  | .status503 => str "HTTP/1.1 503 Service Unavailable\r\n"
  | .status500 => str "HTTP/1.1 500 Internal Server Error\r\n"
  | .status401 => str "HTTP/1.1 401 Unauthorized\r\n"
  | .status304 => str "HTTP/1.1 304 Not Modified\r\n"
  | .status204 => str "HTTP/1.1 204 No Content\r\n"

/-- What the headers take from the configuration. No string is an empty one: the source asks for both alike. -/
structure HeaderConfig where
  r2hToken : List UInt8
  appPathPrefix : List UInt8
  corsAllowOrigin : List UInt8

def tokenCookie (token path : List UInt8) : List UInt8 :=
  str "Set-Cookie: r2h-token=" ++ httpUrlEncode token ++ str "; Path=" ++ (if path = [] then str "/" else path) ++
    str "; HttpOnly; SameSite=Strict\r\n"

/-- What it stores in a buffer of `bufferSize` bytes, and what it returns. -/
def httpBuildR2hTokenCookieHeader (bufferSize : Nat) (token path : List UInt8) : List UInt8 × Int :=
  if bufferSize = 0 then ([], -1)
  else if token = [] then ([], 0)
  else
    let (stored, written) := snprintf bufferSize (tokenCookie token path)
    (stored, if written < 0 ∨ (bufferSize : Int) ≤ written then -1 else written)

/-- The local variables. `mem` is what has been stored, by offset from `headers`; `buffers` the offset and the size
handed to each call that prints. -/
structure Headers where
  len : Int
  mem : Int → Option UInt8
  buffers : List (Int × Nat)

namespace Headers

def start : Headers := ⟨0, fun _ => none, []⟩

/-- `sizeof(headers) - len`, a `size_t`. -/
def remaining (h : Headers) : Nat := ((headersSize - h.len) % 2 ^ 64).toNat

/-- What a call handed the rest of the array stores, and how it moves `len`. -/
def store (h : Headers) (printed : List UInt8 × Int) : Headers where
  len := intAdd h.len printed.2
  mem i := if h.len ≤ i ∧ i < h.len + printed.1.length then printed.1[(i - h.len).toNat]? else h.mem i
  buffers := h.buffers ++ [(h.len, h.remaining)]

/-- `len += snprintf(headers + len, sizeof(headers) - len, ...)`. -/
def print (h : Headers) (text : List UInt8) : Headers := h.store (snprintf h.remaining text)

def printCookie (h : Headers) (token path : List UInt8) : Headers :=
  let (stored, cookieLen) := httpBuildR2hTokenCookieHeader h.remaining token path
  h.store (stored, if cookieLen > 0 then cookieLen else 0)

end Headers

/-- What `send_http_headers` leaves: the array, and the length it queues. -/
structure SentHeaders where
  headers : Headers
  queued : Nat

def sendHttpHeaders (config : HeaderConfig) (shouldSetR2hCookie : Bool) (status : HttpStatus)
    (contentType extraHeaders : List UInt8) : SentHeaders :=
  let h := Headers.start.print (responseCodes status)
  let h := if status ≠ .status304 ∧ contentType ≠ [] then
    h.print (str "Content-Type: " ++ contentType ++ str "\r\n") else h
  let h := if contentType = str "text/event-stream" then
    h.print (str "Cache-Control: no-cache\r\nConnection: keep-alive\r\n") else h.print (str "Connection: close\r\n")
  let h := if shouldSetR2hCookie ∧ config.r2hToken ≠ [] then
    let cookiePath := if config.appPathPrefix ≠ [] then config.appPathPrefix else str "/"
    h.printCookie config.r2hToken cookiePath else h
  let h := if config.corsAllowOrigin ≠ [] then
    h.print (str "Access-Control-Allow-Origin: " ++ config.corsAllowOrigin ++ str "\r\n") else h
  let h := if extraHeaders ≠ [] then h.print extraHeaders else h
  let h := h.print (str "\r\n")
  let len : Int := if h.len ≥ headersSize then headersSize - 1 else h.len
  ⟨h, (len % 2 ^ 64).toNat⟩

/-- Every call was handed the true rest of the array, nothing was stored outside it, and what is queued was
stored. -/
structure SentHeaders.InBuffer (sent : SentHeaders) : Prop where
  buffers : ∀ b ∈ sent.headers.buffers, 0 ≤ b.1 ∧ b.1 ≤ headersSize ∧ (b.2 : Int) = headersSize - b.1
  mem : ∀ i, sent.headers.mem i ≠ none → 0 ≤ i ∧ i < headersSize
  queued : ∀ i : Nat, i < sent.queued → sent.headers.mem i ≠ none

/-! ### Pieces -/

/-- A piece of the headers. A cookie counts only if it fits. -/
inductive HeaderPiece where
  | text (line : List UInt8)
  | cookie (token path : List UInt8)

/-- The length so far, by a piece further. -/
def HeaderPiece.advance (len : Int) : HeaderPiece → Int
  | .text line => len + if line.length ≤ intMax then (line.length : Int) else -1
  | .cookie token path =>
    if (tokenCookie token path).length ≤ intMax ∧ len + (tokenCookie token path).length < headersSize then
      len + (tokenCookie token path).length
    else len

/-- What is printed before the last line. -/
def headerPieces (config : HeaderConfig) (shouldSetR2hCookie : Bool) (status : HttpStatus)
    (contentType extraHeaders : List UInt8) : List HeaderPiece :=
  .text (responseCodes status) ::
    ((if status ≠ .status304 ∧ contentType ≠ [] then [.text (str "Content-Type: " ++ contentType ++ str "\r\n")]
      else []) ++
    [.text (if contentType = str "text/event-stream" then str "Cache-Control: no-cache\r\nConnection: keep-alive\r\n"
      else str "Connection: close\r\n")] ++
    (if shouldSetR2hCookie ∧ config.r2hToken ≠ [] then
      [.cookie config.r2hToken (if config.appPathPrefix ≠ [] then config.appPathPrefix else str "/")] else []) ++
    (if config.corsAllowOrigin ≠ [] then
      [.text (str "Access-Control-Allow-Origin: " ++ config.corsAllowOrigin ++ str "\r\n")] else []) ++
    (if extraHeaders ≠ [] then [.text extraHeaders] else []))

/-- The length that the pieces would have. -/
def headerLength (pieces : List HeaderPiece) : Int := pieces.foldl HeaderPiece.advance 0

namespace Headers
variable {h : Headers} {printed : List UInt8 × Int} {piece : HeaderPiece} {pieces : List HeaderPiece}

def step (h : Headers) : HeaderPiece → Headers
  | .text line => h.print line
  | .cookie token path => h.printCookie token path

/-- The offset and the room of the next call are right. -/
def InRange (h : Headers) : Prop := 0 ≤ h.len ∧ h.len ≤ headersSize

/-- What holds as long as every call was in range. -/
structure Inv (h : Headers) : Prop where
  buffers : ∀ b ∈ h.buffers, 0 ≤ b.1 ∧ b.1 ≤ headersSize ∧ (b.2 : Int) = headersSize - b.1
  mem : ∀ i, h.mem i ≠ none → 0 ≤ i ∧ i < headersSize
  stored : ∀ i, 0 ≤ i → i < h.len → i < headersSize - 1 → h.mem i ≠ none

/-- What a call does with a buffer of `size` bytes: it stays in it, and stores all that it counts but for the last
byte. -/
structure Prints (size : Nat) (printed : List UInt8 × Int) : Prop where
  length_le : printed.1.length ≤ size
  count_ge : -1 ≤ printed.2
  stored : ∀ i : Nat, (i : Int) < printed.2 → i + 1 < size → i < printed.1.length

theorem prints_snprintf (size : Nat) (text : List UInt8) : Prints size (snprintf size text) := by
  unfold snprintf
  constructor
  · dsimp only
    split
    · exact Nat.zero_le _
    · rw [List.length_append, List.length_take, List.length_singleton]
      omega
  · dsimp only
    split <;> omega
  · intro i hi hsize
    dsimp only at hi ⊢
    rw [if_neg (by omega), List.length_append, List.length_take, List.length_singleton]
    split at hi <;> omega

/-- A call that stores as much and counts nothing. -/
theorem Prints.uncounted {size : Nat} (hp : Prints size printed) : Prints size (printed.1, 0) :=
  ⟨hp.length_le, by simp, fun i hi => by dsimp only at hi; omega⟩

theorem prints_nothing (size : Nat) : Prints size ([], 0) :=
  ⟨Nat.zero_le _, by simp, fun i hi => by dsimp only at hi; omega⟩

/-- The cookie counts where `snprintf` stored all of it. -/
theorem cookie_counts {size : Nat} {token : List UInt8} (htoken : token ≠ []) (path : List UInt8) :
    (if (httpBuildR2hTokenCookieHeader size token path).2 > 0 then (httpBuildR2hTokenCookieHeader size token path).2
      else 0) =
    if (tokenCookie token path).length ≤ intMax ∧ (tokenCookie token path).length < size then
      ((tokenCookie token path).length : Int) else 0 := by
  unfold httpBuildR2hTokenCookieHeader snprintf
  rw [if_neg htoken]
  dsimp only
  split_ifs <;> omega

theorem prints_cookie (size : Nat) {token : List UInt8} (htoken : token ≠ []) (path : List UInt8) :
    Prints size ((httpBuildR2hTokenCookieHeader size token path).1,
      if (httpBuildR2hTokenCookieHeader size token path).2 > 0 then (httpBuildR2hTokenCookieHeader size token path).2
      else 0) := by
  have hp := prints_snprintf size (tokenCookie token path)
  rw [cookie_counts htoken]
  by_cases hsize : size = 0
  · rw [httpBuildR2hTokenCookieHeader, if_pos hsize, if_neg (by omega)]
    exact prints_nothing size
  · have hstored : (httpBuildR2hTokenCookieHeader size token path).1 = (snprintf size (tokenCookie token path)).1 := by
      rw [httpBuildR2hTokenCookieHeader, if_neg hsize, if_neg htoken]
    rw [hstored]
    split
    · next hfits =>
      have hcount : (snprintf size (tokenCookie token path)).2 = (tokenCookie token path).length := if_pos hfits.1
      rw [← hcount]
      exact hp
    · exact hp.uncounted

theorem remaining_eq (hr : h.InRange) : (h.remaining : Int) = headersSize - h.len := by
  obtain ⟨h0, h1⟩ := hr
  unfold remaining headersSize at *
  omega

theorem intAdd_eq {a b : Int} (h0 : -2 ^ 31 ≤ a + b) (h1 : a + b < 2 ^ 31) : intAdd a b = a + b := by
  rw [intAdd, Int.bmod_def]
  split <;> omega

theorem intAdd_le {a b : Int} (h0 : -2 ^ 31 ≤ a + b) : intAdd a b ≤ a + b := by
  rw [intAdd, Int.bmod_def]
  split <;> omega

theorem Inv.store (hi : h.Inv) (hr : h.InRange) (hp : Prints h.remaining printed) : (h.store printed).Inv := by
  have hrem := remaining_eq hr
  obtain ⟨h0, h1⟩ := hr
  have hlen := hp.length_le
  constructor
  · intro b hb
    rcases List.mem_append.1 hb with hb | hb
    · exact hi.buffers b hb
    · rw [List.mem_singleton.1 hb]
      exact ⟨h0, h1, hrem⟩
  · intro i hmem
    unfold Headers.store at hmem
    dsimp only at hmem
    split at hmem
    · omega
    · exact hi.mem i hmem
  · intro i hi0 hilen hisize
    unfold Headers.store at hilen ⊢
    dsimp only at hilen ⊢
    split
    · rw [List.getElem?_eq_getElem (by omega)]
      exact Option.some_ne_none _
    · next hout =>
      have hcount := hp.count_ge
      have hadd : intAdd h.len printed.2 ≤ h.len + printed.2 := intAdd_le (by omega)
      have hstored := hp.stored (i - h.len).toNat
      exact hi.stored i hi0 (by omega) hisize

theorem Inv.step (hi : h.Inv) (hr : h.InRange) (hpiece : ∀ token path, piece = .cookie token path → token ≠ []) :
    (h.step piece).Inv := by
  cases piece with
  | text line => exact hi.store hr (prints_snprintf ..)
  | cookie token path => exact hi.store hr (prints_cookie _ (hpiece token path rfl) path)

theorem store_len {n : Int} (hr : h.InRange) (h0 : 0 ≤ h.len + n) (h1 : n ≤ intMax) :
    (0 ≤ intAdd h.len n ∧ intAdd h.len n ≤ headersSize ↔ h.len + n ≤ headersSize) ∧
      (h.len + n ≤ headersSize → intAdd h.len n = h.len + n) := by
  obtain ⟨hr0, hr1⟩ := hr
  unfold headersSize intMax at *
  rw [intAdd, Int.bmod_def]
  split <;> omega

/-- As long as the calls are in range, `len` is the length so far, or out of range if that is. -/
theorem step_len (hr : h.InRange) (hpiece : ∀ token path, piece = .cookie token path → token ≠ [])
    (hpos : 0 ≤ piece.advance h.len) :
    ((h.step piece).InRange ↔ piece.advance h.len ≤ headersSize) ∧
      (piece.advance h.len ≤ headersSize → (h.step piece).len = piece.advance h.len) := by
  have hrem := remaining_eq hr
  cases piece with
  | text line =>
    have hlen : (h.step (.text line)).len = intAdd h.len (snprintf h.remaining line).2 := rfl
    have hadv : HeaderPiece.advance h.len (.text line) = h.len + (snprintf h.remaining line).2 := rfl
    rw [hadv] at hpos ⊢
    rw [InRange, hlen]
    refine store_len hr hpos ?_
    unfold snprintf
    dsimp only
    split <;> omega
  | cookie token path =>
    have htoken := hpiece token path rfl
    have hlen : (h.step (.cookie token path)).len = intAdd h.len
        (if (tokenCookie token path).length ≤ intMax ∧ (tokenCookie token path).length < h.remaining then
          ((tokenCookie token path).length : Int) else 0) := by
      rw [← cookie_counts htoken]
      rfl
    have hadv : HeaderPiece.advance h.len (.cookie token path) = h.len +
        (if (tokenCookie token path).length ≤ intMax ∧ (tokenCookie token path).length < h.remaining then
          ((tokenCookie token path).length : Int) else 0) := by
      rw [HeaderPiece.advance]
      split_ifs <;> omega
    rw [hadv] at hpos ⊢
    rw [InRange, hlen]
    refine store_len hr hpos ?_
    split <;> omega

theorem advance_ge (len : Int) (piece : HeaderPiece) : len - 1 ≤ piece.advance len := by
  cases piece <;> rw [HeaderPiece.advance] <;> split_ifs <;> omega

/-! ### The whole -/

theorem step_buffers (h : Headers) (piece : HeaderPiece) :
    (h.step piece).buffers = h.buffers ++ [(h.len, h.remaining)] := by
  cases piece <;> rfl

theorem buffers_subset (h : Headers) (pieces : List HeaderPiece) : h.buffers ⊆ (pieces.foldl step h).buffers := by
  induction pieces generalizing h with
  | nil => exact List.Subset.refl _
  | cons piece pieces ih =>
    refine List.Subset.trans ?_ (ih (h.step piece))
    rw [step_buffers]
    exact List.subset_append_left ..

theorem inv_start : Inv start := ⟨nofun, fun i hi => absurd rfl hi, fun i h0 h1 => by simp [start] at h1; omega⟩

/-- Calls that were all in range leave the invariant. -/
theorem inv_run (hpieces : ∀ piece ∈ pieces, ∀ token path, piece = .cookie token path → token ≠ []) (hi : h.Inv)
    (hr : Run.Meets step (fun h _ => h.InRange) h pieces) : (pieces.foldl step h).Inv := by
  induction pieces generalizing h with
  | nil => exact hi
  | cons piece pieces ih =>
    have hpiece := List.forall_mem_cons.1 hpieces
    exact ih hpiece.2 (hi.step hr.1 hpiece.1) hr.2

/-- If the buffers handed out were right, the calls were in range. -/
theorem inRange_run (hb : ∀ b ∈ (pieces.foldl step h).buffers, 0 ≤ b.1 ∧ b.1 ≤ headersSize) :
    Run.Meets step (fun h _ => h.InRange) h pieces := by
  induction pieces generalizing h with
  | nil => trivial
  | cons piece pieces ih =>
    refine ⟨hb (h.len, h.remaining) (buffers_subset _ pieces ?_), ih hb⟩
    rw [step_buffers]
    exact List.mem_append_right _ (List.mem_singleton_self _)

theorem forall_prefix_cons {α : Type*} {p : List α → Prop} {a : α} {as : List α} :
    (∀ before, before <+: a :: as → p before) ↔ p [] ∧ ∀ before, before <+: as → p (a :: before) := by
  simp only [List.prefix_cons_iff]
  constructor
  · intro hall
    exact ⟨hall [] (.inl rfl), fun before hb => hall (a :: before) (.inr ⟨before, rfl, hb⟩)⟩
  · rintro ⟨hnil, hcons⟩ before (rfl | ⟨before, rfl, hb⟩)
    · exact hnil
    · exact hcons before hb

/-- The calls of some pieces and one more are in range exactly when the length so far is, at every piece. -/
theorem meets_inRange_iff (hpieces : ∀ piece ∈ pieces, ∀ token path, piece = .cookie token path → token ≠ [])
    (hnonneg : ∀ before, before <+: pieces → 0 ≤ before.foldl HeaderPiece.advance h.len) (last : HeaderPiece) :
    Run.Meets step (fun h _ => h.InRange) h (pieces ++ [last]) ↔
      ∀ before, before <+: pieces → before.foldl HeaderPiece.advance h.len ≤ headersSize := by
  induction pieces generalizing h with
  | nil =>
    simp only [List.prefix_nil, forall_eq, List.foldl_nil] at hnonneg ⊢
    exact ⟨fun hr => hr.1.2, fun hle => ⟨⟨hnonneg, hle⟩, trivial⟩⟩
  | cons piece pieces ih =>
    have hpiece := List.forall_mem_cons.1 hpieces
    obtain ⟨hlen, hrest⟩ := forall_prefix_cons.1 hnonneg
    have hadv := hrest [] List.nil_prefix
    rw [forall_prefix_cons, List.cons_append, Run.Meets]
    simp only [List.foldl_cons, List.foldl_nil] at hlen hadv hrest ⊢
    constructor
    · rintro ⟨hr, hrun⟩
      obtain ⟨hiff, hnext⟩ := step_len hr hpiece.1 hadv
      have hhead : (h.step piece).InRange := by
        cases pieces with
        | nil => exact hrun.1
        | cons _ _ => exact hrun.1
      have hstep := hnext (hiff.1 hhead)
      rw [← hstep] at hrest ⊢
      exact ⟨hr.2, (ih hpiece.2 hrest).1 hrun⟩
    · rintro ⟨hle, hall⟩
      have hr : h.InRange := ⟨hlen, hle⟩
      have hstep := (step_len hr hpiece.1 hadv).2 (hall [] List.nil_prefix)
      rw [← hstep] at hrest hall
      exact ⟨hr, (ih hpiece.2 hrest).2 hall⟩

end Headers

section
variable (config : HeaderConfig) (shouldSetR2hCookie : Bool) (status : HttpStatus)
  (contentType extraHeaders : List UInt8)

/-- `send_http_headers` prints the pieces and the last line. -/
theorem sendHttpHeaders_headers :
    (sendHttpHeaders config shouldSetR2hCookie status contentType extraHeaders).headers =
      (headerPieces config shouldSetR2hCookie status contentType extraHeaders ++ [HeaderPiece.text (str "\r\n")]).foldl
        Headers.step .start := by
  have hite : ∀ (c : Prop) [Decidable c] (h : Headers) (piece : HeaderPiece),
      (if c then [piece] else []).foldl Headers.step h = if c then h.step piece else h := by
    intro c _ h piece
    split <;> rfl
  unfold sendHttpHeaders headerPieces
  simp only [List.foldl_append, List.foldl_cons, List.foldl_nil, hite, apply_ite HeaderPiece.text,
    apply_ite (Headers.step _)]
  rfl

theorem headerPieces_cookie : ∀ piece ∈ headerPieces config shouldSetR2hCookie status contentType extraHeaders,
    ∀ token path, piece = .cookie token path → token ≠ [] := by
  unfold headerPieces
  intro piece hpiece token path heq
  subst heq
  simp only [List.mem_cons, List.mem_append, reduceCtorEq, List.not_mem_nil, or_false, false_or] at hpiece
  split_ifs at hpiece <;> simp_all

theorem advance_foldl_ge (pieces : List HeaderPiece) (len : Int) :
    len - pieces.length ≤ pieces.foldl HeaderPiece.advance len := by
  induction pieces generalizing len with
  | nil => simp
  | cons piece pieces ih =>
    have hge := Headers.advance_ge len piece
    have hrest := ih (piece.advance len)
    rw [List.foldl_cons, List.length_cons]
    omega

/-- The length never is negative: a piece that is too long takes one off, and the status line is longer than there are
pieces. -/
theorem headerLength_nonneg : ∀ before, before <+: headerPieces config shouldSetR2hCookie status contentType extraHeaders →
    0 ≤ headerLength before := by
  unfold headerPieces
  rw [Headers.forall_prefix_cons]
  refine ⟨Int.le_refl _, fun before hbefore => ?_⟩
  have hcount : before.length ≤ 5 := by
    refine hbefore.length_le.trans ?_
    simp only [List.length_append]
    split_ifs <;> simp
  have hstatus : 5 ≤ HeaderPiece.advance 0 (.text (responseCodes status)) := by cases status <;> decide
  have hge := advance_foldl_ge before (HeaderPiece.advance 0 (.text (responseCodes status)))
  rw [headerLength, List.foldl_cons]
  omega

end

/-- `send_http_headers` hands every call the true rest of its array, stores nothing outside it and queues no more than
was stored, if and only if the length that the pieces before the last line would have is never above 2048. -/
theorem sendHttpHeaders_inBuffer_iff (config : HeaderConfig) (shouldSetR2hCookie : Bool) (status : HttpStatus)
    (contentType extraHeaders : List UInt8) :
    (sendHttpHeaders config shouldSetR2hCookie status contentType extraHeaders).InBuffer ↔
      ∀ before, before <+: headerPieces config shouldSetR2hCookie status contentType extraHeaders →
        headerLength before ≤ headersSize := by
  have hpieces := headerPieces_cookie config shouldSetR2hCookie status contentType extraHeaders
  have hall : ∀ piece ∈ headerPieces config shouldSetR2hCookie status contentType extraHeaders ++
      [HeaderPiece.text (str "\r\n")], ∀ token path, piece = .cookie token path → token ≠ [] :=
    List.forall_mem_append.2 ⟨hpieces, fun piece hp token path heq => by
      rw [List.mem_singleton.1 hp] at heq
      cases heq⟩
  have hiff := @Headers.meets_inRange_iff .start _ hpieces
    (headerLength_nonneg config shouldSetR2hCookie status contentType extraHeaders) (.text (str "\r\n"))
  refine Iff.trans ?_ hiff
  have hheaders := sendHttpHeaders_headers config shouldSetR2hCookie status contentType extraHeaders
  constructor
  · intro h
    have hb := h.buffers
    rw [hheaders] at hb
    exact Headers.inRange_run fun b hmem => ⟨(hb b hmem).1, (hb b hmem).2.1⟩
  · intro h
    have hinv := Headers.inv_run hall Headers.inv_start h
    have hlast := (Run.meets_concat.1 h).2
    rw [← hheaders] at hinv
    refine ⟨hinv.buffers, hinv.mem, fun i hi => ?_⟩
    have hlen : 0 ≤ (sendHttpHeaders config shouldSetR2hCookie status contentType extraHeaders).headers.len := by
      rw [hheaders, List.foldl_append]
      generalize (headerPieces config shouldSetR2hCookie status contentType extraHeaders).foldl Headers.step .start = l
        at hlast
      have hlen : (l.step (.text (str "\r\n"))).len = intAdd l.len 2 := rfl
      obtain ⟨hge, hlt⟩ := hlast
      unfold headersSize at hlt
      rw [List.foldl_cons, List.foldl_nil, hlen, Headers.intAdd_eq (by omega) (by omega)]
      exact Int.add_nonneg hge (by decide)
    -- what is queued was counted and is not the last byte
    have hqueued : (i : Int) < (sendHttpHeaders config shouldSetR2hCookie status contentType extraHeaders).headers.len ∧
        (i : Int) < headersSize - 1 := by
      have hq : (sendHttpHeaders config shouldSetR2hCookie status contentType extraHeaders).queued =
          ((if (sendHttpHeaders config shouldSetR2hCookie status contentType extraHeaders).headers.len ≥ headersSize then
            (headersSize : Int) - 1
          else (sendHttpHeaders config shouldSetR2hCookie status contentType extraHeaders).headers.len) % 2 ^ 64).toNat :=
        rfl
      rw [hq] at hi
      unfold headersSize at *
      split at hi <;> omega
    exact hinv.stored i (Int.natCast_nonneg i) hqueued.1 hqueued.2

/-- An origin of 3000 bytes: the last call gets an offset behind the array and room without end. -/
theorem sendHttpHeaders_overflow :
    ¬ (sendHttpHeaders ⟨[], [], List.replicate 3000 97⟩ false .status200 (str "video/mp2t") []).InBuffer := by
  intro h
  have hlast : (3093, 2 ^ 64 - 1045) ∈
      (sendHttpHeaders ⟨[], [], List.replicate 3000 97⟩ false .status200 (str "video/mp2t") []).headers.buffers := by
    decide +kernel
  exact absurd (h.buffers _ hlast).2.1 (by decide)

end Rtp2httpd
