import DOpenWrt.Rtp2httpd.HttpSendHeaders
import DOpenWrt.Rtp2httpd.M3u
import DOpenWrt.Rtp2httpd.RewriteM3u

/-!
# Rewriting a line (`http_proxy_rewrite.c`)

The proxy form of a URL, and what `rewrite_m3u_line` makes of a line: of a comment its `URI=` attributes are rewritten, of
another line the whole. The sizes for which `malloc` succeeds are a parameter.
-/

namespace Rtp2httpd
open CString

/-- `HTTP_PROXY_HOST_SIZE`. -/
def httpProxyHostSize : Nat := 256

/-- `HTTP_PROXY_PATH_SIZE`. -/
def httpProxyPathSize : Nat := 2048

structure RewriteContext where
  upstreamHost : List UInt8
  upstreamPort : Int
  upstreamPath : List UInt8
  baseUrl : List UInt8
  /-- `config.r2h_token`, empty if there is none. -/
  r2hToken : List UInt8

/-- `%d`. -/
def decimalInt (n : Int) : List UInt8 := (if n < 0 then str "-" else []) ++ decimal n.natAbs

/-- What `snprintf` prints if it fits. -/
def printed (size : Nat) (text : List UInt8) : Option (List UInt8) := if text.length < size then some text else none

def byte (c : Char) : UInt8 := UInt8.ofNat c.toNat

def formatHostForUrl (host : List UInt8) (outSize : Nat) : Option (List UInt8) :=
  printed outSize (if host.head? ≠ some (byte '[') ∧ byte ':' ∈ host then str "[" ++ host ++ str "]" else host)

def formatHostPortForUrl (host : List UInt8) (port defaultPort : Int) (outSize : Nat) : Option (List UInt8) :=
  (formatHostForUrl host 512).bind fun bracketed =>
    printed outSize (if 0 < defaultPort ∧ port = defaultPort then bracketed else bracketed ++ str ":" ++ decimalInt port)

/-- The path up to its last slash. -/
def dirPath (basePath : List UInt8) : List UInt8 :=
  if byte '/' ∈ basePath then (basePath.rdropWhile (· ≠ byte '/')).take (httpProxyPathSize - 1) else str "/"

def rewriteResolveRelativeUrl (ctx : RewriteContext) (relativeUrl : List UInt8) (outputSize : Nat) : Option (List UInt8) :=
  (formatHostPortForUrl ctx.upstreamHost ctx.upstreamPort 80 (httpProxyHostSize + 16)).bind fun authority =>
    printed outputSize
      (if relativeUrl.head? = some (byte '/') then str "http://" ++ authority ++ relativeUrl
      else str "http://" ++ authority ++ dirPath ctx.upstreamPath ++ relativeUrl)

def httpProxyBuildUrl (ctx : RewriteContext) (httpUrl : List UInt8) (outputSize : Nat) : Option (List UInt8) :=
  if ¬ startsWithCase (str "http://") httpUrl then none
  else
    let hostStart := httpUrl.drop 7
    let url := ctx.baseUrl ++ str "http/" ++ hostStart
    printed outputSize
      (if ctx.r2hToken = [] then url
      else url ++ (if byte '?' ∈ hostStart then str "&r2h-token=" else str "?r2h-token=") ++ httpUrlEncode ctx.r2hToken)

def rewriteUrlToProxyFormat (ctx : RewriteContext) (url : List UInt8) (outputSize : Nat) : Option (List UInt8) :=
  if url = [] then some []
  else if startsWithCase (str "https://") url then none
  else
    (if startsWithCase (str "http://") url then printed (httpProxyPathSize * 2) url
      else rewriteResolveRelativeUrl ctx url (httpProxyPathSize * 2)).bind fun absoluteUrl =>
        httpProxyBuildUrl ctx absoluteUrl outputSize

/-! ### Lines -/

def isCommentLine (line : List UInt8) : Bool := (line.dropWhile isspace).head? = some (byte '#')

def shouldRewriteUrl (url : List UInt8) : Bool := url ≠ [] ∧ ¬ startsWithCase (str "https://") url

/-- The value of an attribute: how many bytes of the line stand before it, and its length. -/
structure UriAttribute where
  offset : Nat
  length : Nat
  hasQuotes : Bool
deriving DecidableEq, Repr

/-- The value behind a `URI=` at the end of the first `valueStart` bytes, if it has one. -/
def uriValueAt (line : List UInt8) (valueStart : Nat) : Option UriAttribute :=
  let text := line.drop valueStart
  if text.head? = some (byte '"') then
    let value := text.tail
    if byte '"' ∈ value then some ⟨valueStart + 1, (value.takeWhile (· ≠ byte '"')).length, true⟩ else none
  else
    let value := text.takeWhile (· ∉ str ", \t\r\n")
    if value = [] then none else some ⟨valueStart, value.length, false⟩

/-- The byte before a `URI=` that is an attribute. -/
def isAttributeBoundary (c : UInt8) : Bool := c ∈ str ",: \t"

/-- The loop of `find_uri_attribute` from `uriPos` on. -/
def findUriAttributeLoop (line : List UInt8) : Nat → Nat → Except RewriteError (Option UriAttribute)
  | 0, _ => .error .runsOn
  | fuel + 1, uriPos =>
    match strcasestr (str "URI=") (line.drop uriPos) with
    | none => .ok none
    | some k =>
      let uriPos := uriPos + k
      if 0 < uriPos ∧ ¬ isAttributeBoundary (line.getD (uriPos - 1) 0) then findUriAttributeLoop line fuel (uriPos + 1)
      else match uriValueAt line (uriPos + 4) with
        | some attr => .ok (some attr)
        | none => findUriAttributeLoop line fuel (uriPos + 1)

/-- A round goes one byte on at least. -/
def findUriAttribute (line : List UInt8) : Except RewriteError (Option UriAttribute) :=
  findUriAttributeLoop line (line.length + 1) 0

section
variable (allocates : Nat → Bool) (ctx : RewriteContext)

/-- The loop of `rewrite_uri_attributes`: the line so far, where the search goes on, and whether the line is modified. -/
def rewriteUriLoop : Nat → List UInt8 → Nat → Bool → Except RewriteError (Option (List UInt8))
  | 0, _, _, _ => .error .runsOn
  | fuel + 1, current, searchOffset, modified => do
    match ← findUriAttribute (current.drop searchOffset) with
    | none => return if modified then some current else none
    | some attr =>
      let valueOffset := searchOffset + attr.offset
      let valueEndOffset := valueOffset + attr.length
      let quotes := if attr.hasQuotes then str "\"" else []
      if ¬ allocates (attr.length + 1) then return none
      let originalUri := (current.drop valueOffset).take attr.length
      match (if shouldRewriteUrl originalUri then rewriteUrlToProxyFormat ctx originalUri (httpProxyPathSize * 2)
        else none) with
      | none => rewriteUriLoop fuel current (valueEndOffset + quotes.length) modified
      | some rewrittenUri =>
        let before := current.take (valueOffset - quotes.length)
        let suffix := current.drop (valueEndOffset + quotes.length)
        let rewritten := before ++ quotes ++ rewrittenUri ++ quotes
        if ¬ allocates (rewritten.length + suffix.length + 1) then return none
        rewriteUriLoop fuel (rewritten ++ suffix) rewritten.length true

/-- A round takes a byte at least from the rest of the line. -/
def rewriteUriAttributes (line : List UInt8) : Except RewriteError (Option (List UInt8)) :=
  if ¬ allocates (line.length + 1) then .ok none else rewriteUriLoop allocates ctx (line.length + 1) line 0 false

def isLineEnd (c : UInt8) : Bool := c = byte '\r' ∨ c = newline

/-- The line without the carriage returns and newlines at its end. -/
def lineBody (line : List UInt8) : List UInt8 := line.rdropWhile isLineEnd

def rewriteM3uLine (line : List UInt8) : Except RewriteError (Option (List UInt8)) :=
  if line = [] ∨ ¬ allocates (line.length + 1) then .ok none
  else
    let body := lineBody line
    if isCommentLine body then rewriteUriAttributes allocates ctx body
    else
      let url := body.dropWhile isspace
      .ok ((if shouldRewriteUrl url then rewriteUrlToProxyFormat ctx url (httpProxyPathSize * 2) else none).filter
        fun rewritten => allocates (rewritten.length + 1))

/-- `rewrite_m3u_content`, with the lines as they are rewritten. -/
def rewritePlaylist (input : List UInt8) : RewriteRun :=
  rewriteM3uContent (fun line => ((rewriteM3uLine allocates ctx line).toOption).join) allocates input

end

end Rtp2httpd
