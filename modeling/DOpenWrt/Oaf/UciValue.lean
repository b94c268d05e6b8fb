import DOpenWrt.Lib.CFormat

/-!
# Values of the configuration

The readers of UCI values of `appfilter_config.c`, and what the loaders use of the C library for numbers and tokens. A
list of bytes is a C string without its NUL; a write outside an array is a fault. What the library makes of a number
that does not fit an `int` is its own business: `unfit` stands for it.
-/

namespace Oaf
open CString (str scanInt scanLit)

inductive OutOfBounds
  | write
  deriving DecidableEq

/-! ### Numbers and tokens -/

section
variable (unfit : ℤ → ℤ)

def toInt (n : ℤ) : ℤ := if -2 ^ 31 ≤ n ∧ n < 2 ^ 31 then n else unfit n

/-- `%d` of `sscanf`: the number and the rest. -/
def scanNumber (s : List UInt8) : Option (ℤ × List UInt8) :=
  (scanInt s.length s).map fun (n, rest) => (toInt unfit n, rest)

/-- `sscanf` with a pattern of numbers and what stands between them: the numbers it has read. -/
def scanNumbers : List Char → List UInt8 → List ℤ
  | [], s => ((scanNumber unfit s).map Prod.fst).toList
  | separator :: separators, s =>
    match scanNumber unfit s with
    | none => []
    | some (n, s) =>
      match scanLit separator s with
      | none => [n]
      | some s => n :: scanNumbers separators s

def atoi (s : List UInt8) : ℤ := ((scanNumber unfit s).map Prod.fst).getD 0

end

/-- The tokens that `strtok_r` gives one after the other. -/
def tokens (delim : Char) (s : List UInt8) : List (List UInt8) := (s.splitOn (UInt8.ofNat delim.toNat)).filter (· ≠ [])

/-! ### UCI -/

/-- What `uci_lookup_ptr` finds. The values of a list share a union with the string; `raw` is what is read there as a
string. -/
inductive UciLookup
  | notFound
  | sectionType (type : List UInt8)
  | optionString (value : List UInt8)
  | optionList (values : List (List UInt8)) (raw : List UInt8)

abbrev Uci := String → UciLookup

def afUciGetIntValue (unfit : ℤ → ℤ) : UciLookup → ℤ
  | .notFound => -1
  | .sectionType _ => -1
  | .optionString value => atoi unfit value
  | .optionList _ raw => atoi unfit raw

/-- `af_uci_get_value`: the result, and what is in `output` then. -/
def afUciGetValue (lookup : UciLookup) (output : List UInt8) (outLen : ℕ) : ℤ × List UInt8 :=
  match lookup with
  | .notFound => (1, output)
  | .sectionType type => (0, type.take (outLen - 1))
  | .optionString value => (0, value.take (outLen - 1))
  | .optionList _ raw => (0, raw.take (outLen - 1))

/-- A string and its NUL behind the string in a buffer. -/
def appendString (size : ℕ) (output s : List UInt8) : Except OutOfBounds (List UInt8) :=
  if output.length + s.length < size then .ok (output ++ s) else .error .write

/-- `strncat(output + len, delimt, out_len)`, if there is a value before. -/
def appendSeparator (outLen : ℕ) (delimt : List UInt8) (state : Bool × List UInt8) : Except OutOfBounds (List UInt8) :=
  if state.1 then appendString outLen state.2 (delimt.take outLen) else .ok state.2

/-- One value of the list: whether there is one before it, and `output`. -/
def appendValue (outLen : ℕ) (delimt : List UInt8) (state : Bool × List UInt8) (name : List UInt8) :
    Except OutOfBounds (Bool × List UInt8) := do
  let output ← appendSeparator outLen delimt state
  let output ← appendString outLen output name
  return (true, output)

def afUciGetListValue (lookup : UciLookup) (output : List UInt8) (outLen : ℕ) (delimt : List UInt8) :
    Except OutOfBounds (ℤ × List UInt8) :=
  match lookup with
  | .optionList values _ => do
    let (_, output) ← values.foldlM (appendValue outLen delimt) (false, [])
    return (0, output)
  | _ => .ok (-1, output)

end Oaf
