import DOpenWrt.Lib.PrefixParser
import DOpenWrt.Rtp2httpd.HttpRequest

/-!
# The request head

`vendor/picohttpparser/picohttpparser.c`: `phr_parse_request`. It is built from parsers that ask for more input at the
end of the buffer, -2 of the source, and never look behind what they take.
-/

namespace Rtp2httpd
open CString

open PrefixParser

def httpHeadersMax : Nat := 128

/-- Where `token_char_map` is 1. -/
def tokenCharMap (c : UInt8) : Bool :=
  isdigit c ∨ 'A'.toNat ≤ c.toNat ∧ c.toNat ≤ 'Z'.toNat ∨ 'a'.toNat ≤ c.toNat ∧ c.toNat ≤ 'z'.toNat ∨
    c ∈ str "!#$%&'*+-.^_\x60|~"

/-- What ends the value of a header: the control characters but the tab. -/
def isEolControl (c : UInt8) : Bool := c.toNat < 32 ∧ c ≠ 9 ∨ c = 127

def space : UInt8 := 32

def carriageReturn : UInt8 := 13

def lineFeed : UInt8 := 10

/-- What `phr_parse_request` returns when it succeeds. -/
structure PhrRequest where
  method : List UInt8
  path : List UInt8
  minorVersion : Nat
  headers : List PhrHeader

def parseToken (nextChar : UInt8) : PrefixParser UInt8 {t : List UInt8 // ∀ c ∈ t, tokenCharMap c} :=
  untilStop (· = nextChar) tokenCharMap

/-- `ADVANCE_TOKEN`: up to a space, without control characters. -/
def advanceToken : PrefixParser UInt8 (List UInt8) := do
  let token ← untilStop (· = space) fun c => ¬ (c.toNat < 32 ∨ c = 127)
  return token.1

/-- `do { ++buf; CHECK_EOF(); } while (*buf == ' ')`. -/
def advanceSpaces : PrefixParser UInt8 Unit := do
  let _ ← next
  skipWhile (· = space)

/-- The end of a line that begins with `c`. -/
def parseEol (c : UInt8) : PrefixParser UInt8 Unit :=
  if c = carriageReturn then expect lineFeed else if c = lineFeed then PrefixParser.pure () else fail

def getTokenToEol : PrefixParser UInt8 (List UInt8) := do
  let token ← untilStop isEolControl fun _ => true
  parseEol (← next)
  return token.1

def parseHttpVersion : PrefixParser UInt8 Nat := do
  atLeast 9
  (str "HTTP/1.").forM expect
  let c ← next
  if isdigit c then return c.toNat - '0'.toNat else fail

theorem nul_not_token {t : List UInt8} (h : ∀ c ∈ t, tokenCharMap c) : 0 ∉ t := fun h0 => by
  have := h 0 h0
  revert this
  decide

/-- The name of a header with the colon and the blanks behind it. -/
def parseHeaderName : PrefixParser UInt8 {name : Option (List UInt8) // ∀ n ∈ name, 0 ∉ n} := do
  let name ← parseToken (UInt8.ofNat ':'.toNat)
  if name.1 = [] then fail
  else
    let _ ← next
    skipWhile isBlank
    return ⟨some name.1, fun n hn => by cases hn; exact nul_not_token name.2⟩

/-- `parse_headers`, with room for `room` more headers. -/
def parseHeaders : Nat → List PhrHeader → PrefixParser UInt8 (List PhrHeader)
  | room, headers => do
    let c ← peek
    if c = carriageReturn ∨ c = lineFeed then
      parseEol (← next)
      return headers
    else match room with
      | 0 => fail
      | room + 1 =>
        -- a line that begins with a blank continues the header before it
        let name ←
          if headers ≠ [] ∧ isBlank c then PrefixParser.pure ⟨none, fun _ h => nomatch h⟩ else parseHeaderName
        let value ← getTokenToEol
        parseHeaders room (headers ++ [⟨name.1, (value.reverse.dropWhile isBlank).reverse, name.2⟩])

def phrParseRequest : PrefixParser UInt8 PhrRequest := do
  -- an empty line before the request
  let c ← peek
  if c = carriageReturn ∨ c = lineFeed then parseEol (← next)
  let method ← parseToken space
  advanceSpaces
  let path ← advanceToken
  advanceSpaces
  if method.1 = [] ∨ path = [] then fail
  else
    let minorVersion ← parseHttpVersion
    parseEol (← next)
    return ⟨method.1, path, minorVersion, ← parseHeaders httpHeadersMax []⟩

end Rtp2httpd
