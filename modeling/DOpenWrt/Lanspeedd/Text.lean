import DOpenWrt.Lanspeedd.FlowSample

/-!
# Texts

What the procfs collector uses of the standard library for texts: UTF-8, `split_ascii_whitespace`, and `parse` for
unsigned integers and addresses. A text is the list of its characters.
-/

namespace Lanspeedd

/-- `std::str::from_utf8` -/
def fromUtf8 (bytes : List UInt8) : Option (List Char) := (String.fromUTF8? bytes.toByteArray).map String.toList

def isAsciiWhitespace (c : Char) : Bool := c ∈ [' ', '\t', '\n', '\x0c', '\r']

/-- The loop of `split_ascii_whitespace`, with the token it is in. -/
def splitLoop : List Char → List Char → List (List Char)
  | token, [] => if token = [] then [] else [token]
  | token, c :: s =>
    if isAsciiWhitespace c then (if token = [] then splitLoop [] s else token :: splitLoop [] s)
    else splitLoop (token ++ [c]) s

def splitAsciiWhitespace (s : List Char) : List (List Char) := splitLoop [] s

def stripPrefix (pre s : List Char) : Option (List Char) := pre.isPrefixOf? s

/-- `parse` for an unsigned integer of `bits` bits: a plus sign is allowed. -/
def parseUnsigned (bits : Nat) (s : List Char) : Option (BitVec bits) :=
  let digits := match s with
    | '+' :: digits => digits
    | _ => s
  if digits ≠ [] ∧ digits.all Char.isDigit ∧ Nat.ofDigitChars 10 digits 0 < 2 ^ bits then
    some (.ofNat bits (Nat.ofDigitChars 10 digits 0))
  else none

/-! ### Addresses

The parser of `IpAddr` with its state, the text that is left. -/

/-- `char::to_digit(16)` -/
def hexDigit (c : Char) : Option Nat :=
  if c.isDigit then some (c.toNat - '0'.toNat)
  else if 'a' ≤ c ∧ c ≤ 'f' then some (c.toNat - 'a'.toNat + 10)
  else if 'A' ≤ c ∧ c ≤ 'F' then some (c.toNat - 'A'.toNat + 10)
  else none

def hexDigits : List Char → List Nat × List Char
  | [] => ([], [])
  | c :: s => match hexDigit c with
    | some d => (d :: (hexDigits s).1, (hexDigits s).2)
    | none => ([], c :: s)

/-- `read_number(10, Some(3), false)` for a `u8`. -/
def readOctet (s : List Char) : Option (Nat × List Char) :=
  let digits := s.takeWhile Char.isDigit
  if digits = [] ∨ 3 < digits.length ∨ digits.head? = some '0' ∧ 1 < digits.length ∨
      256 ≤ Nat.ofDigitChars 10 digits 0 then none
  else some (Nat.ofDigitChars 10 digits 0, s.dropWhile Char.isDigit)

/-- `read_number(16, Some(4), true)` for a `u16`. -/
def readGroup (s : List Char) : Option (Nat × List Char) :=
  let (digits, rest) := hexDigits s
  if digits = [] ∨ 4 < digits.length then none else some (digits.foldl (fun n d => 16 * n + d) 0, rest)

/-- `read_separator` -/
def readSeparator {α : Type} (separator : Char) (index : Nat) (inner : List Char → Option (α × List Char))
    (s : List Char) : Option (α × List Char) :=
  if index = 0 then inner s
  else match s with
    | c :: s => if c = separator then inner s else none
    | [] => none

def readIpv4 (s : List Char) : Option (BitVec 32 × List Char) := do
  let (a, s) ← readSeparator '.' 0 readOctet s
  let (b, s) ← readSeparator '.' 1 readOctet s
  let (c, s) ← readSeparator '.' 2 readOctet s
  let (d, s) ← readSeparator '.' 3 readOctet s
  return (.ofNat 32 ([a, b, c, d].foldl (fun n o => 256 * n + o) 0), s)

/-- `read_groups` from the group `index` on, with room for `room` groups: the groups, and whether an IPv4 address ends
them. -/
def readGroups : Nat → Nat → List Char → List Nat × Bool × List Char
  | 0, _, s => ([], false, s)
  | room + 1, index, s =>
    match (if 0 < room then readSeparator ':' index readIpv4 s else none) with
    | some (addr, s) => ([addr.toNat / 65536, addr.toNat % 65536], true, s)
    | none => match readSeparator ':' index readGroup s with
      | some (group, s) =>
        let (groups, ipv4, s) := readGroups room (index + 1) s
        (group :: groups, ipv4, s)
      | none => ([], false, s)

def ofGroups (groups : List Nat) : BitVec 128 := .ofNat 128 (groups.foldl (fun n g => 65536 * n + g) 0)

def readIpv6 (s : List Char) : Option (BitVec 128 × List Char) :=
  let (head, headIpv4, s) := readGroups 8 0 s
  if head.length = 8 then some (ofGroups head, s)
  else if headIpv4 then none
  else match s with
    | ':' :: ':' :: s =>
      let (tail, _, s) := readGroups (8 - (head.length + 1)) 0 s
      some (ofGroups (head ++ List.replicate (8 - head.length - tail.length) 0 ++ tail), s)
    | _ => none

/-- `parse` for an `IpAddr` -/
def parseIpAddr (s : List Char) : Option IpAddr :=
  match ((readIpv4 s).map fun r => (IpAddr.v4 r.1, r.2)).or ((readIpv6 s).map fun r => (IpAddr.v6 r.1, r.2)) with
  | some (addr, []) => some addr
  | _ => none

end Lanspeedd
