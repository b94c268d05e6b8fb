import Mathlib.Data.List.DropRight
import DOpenWrt.Oaf.Dpi

/-!
# Port lists

`parse_port_info` and `af_match_port` of `app_filter.c`, with `k_trim` and the `sscanf` of the kernel. A write outside
`range_list` or a buffer is a fault.
-/

namespace Oaf
open CString (str isspace isdigit digitsVal)

def maxPortRangeNum : ℕ := 5
def onePortBufLen : ℕ := 128

structure RangeValue where
  not : Bool
  start : ℤ
  stop : ℤ
  deriving DecidableEq

/-- `range_list` up to `num`. -/
abbrev PortInfo := List RangeValue

/-- `isspace` of the kernel, which counts the no-break space of Latin-1. -/
def kIsSpace (c : UInt8) : Bool := isspace c || c.toNat = 0xa0

def kTrim (s : List UInt8) : List UInt8 := (s.dropWhile kIsSpace).rdropWhile kIsSpace

/-- One `%d` of the kernel's `sscanf`: the value, in an `int`, and the rest. -/
def sscanfInt (s : List UInt8) : Option (ℤ × List UInt8) :=
  let s := s.dropWhile kIsSpace
  let negative : Bool := s.head? = some '-'.toUInt8
  let s := if negative then s.drop 1 else s
  let digits := s.takeWhile isdigit
  let value : ℤ := if negative then -(digitsVal digits : ℤ) else digitsVal digits
  if digits = [] then none else some ((BitVec.ofInt 32 value).toInt, s.drop digits.length)

/-- `sscanf(s, "%d-%d", &start, &end) == 2`. -/
def sscanfRange (s : List UInt8) : Option (ℤ × ℤ) := do
  let (start, s) ← sscanfInt s
  if s.head? ≠ some '-'.toUInt8 then none
  else
    let (stop, _) ← sscanfInt (s.drop 1)
    some (start, stop)

/-- `validate_range_value`. -/
def validateRangeValue (rangeStr : List UInt8) : Bool :=
  rangeStr.all fun c => c = ' '.toUInt8 || c = '!'.toUInt8 || c = '-'.toUInt8 || isdigit c

def parseRangeValue (rangeStr : List UInt8) : Option RangeValue :=
  if !validateRangeValue rangeStr then none
  else
    let rangeStr := kTrim rangeStr
    let not : Bool := rangeStr.head? = some '!'.toUInt8
    let pureRange := kTrim (if not then rangeStr.drop 1 else rangeStr)
    if '-'.toUInt8 ∈ pureRange then (sscanfRange pureRange).map fun (start, stop) => ⟨not, start, stop⟩
    else (sscanfInt pureRange).map fun (start, _) => ⟨not, start, start⟩

/-- One item of the list, from `one_port_buf`. -/
def addPortRange (info : PortInfo) (onePort : List UInt8) : Except DpiFault PortInfo :=
  if onePortBufLen ≤ onePort.length then .error .write
  else if validateRangeValue onePort ∧ maxPortRangeNum ≤ info.length then .error .write
  else .ok (info ++ (parseRangeValue onePort).toList)

/-- The loop of `parse_port_info`: `item` is what lies between `begin` and `p`. -/
def portLoop (item : List UInt8) : List UInt8 → PortInfo → Except DpiFault PortInfo
  | [], info => addPortRange info item
  | c :: rest, info =>
    if c ≠ '|'.toUInt8 then portLoop (item ++ [c]) rest info
    else do
      let info ← addPortRange info item
      portLoop [] rest info

/-- The first byte is never compared with the separator. -/
def parsePortInfo (portStr : List UInt8) : Except DpiFault PortInfo :=
  match kTrim portStr with
  | [] => .ok []
  | c :: rest => portLoop [c] rest []

def afMatchPort (info : PortInfo) (port : ℤ) : Bool :=
  if info = [] then true
  else if info.any fun range => range.not then
    !info.any fun range => range.not && range.start ≤ port && port ≤ range.stop
  else info.any fun range => range.start ≤ port && port ≤ range.stop

end Oaf
