import Mathlib.Data.List.DropRight
import DOpenWrt.Lib.LineStream
import DOpenWrt.Lanspeedd.Procfs
import DOpenWrt.Lanspeedd.RateWindow
import DOpenWrt.Lanspeedd.Text

/-!
# The ECM node parser

`parse`, `unique_mac_owners` and `finish_node` of `platform/nss/ecm_node.rs`, with what `identity/mod.rs` has of MAC
addresses. Of an identity table there are its keys; a `BTreeMap` is a `TreeMap` or, where it is only looked up, a
function.
-/

namespace Lanspeedd.EcmNode

open Std LineStream
open RateWindow (TrafficCounters)

attribute [local instance] lexOrd

def maxLineBytes : ℕ := 256
def maxLines : ℕ := 65536
def maxNodes : ℕ := 16384

/-! ### Texts -/

/-- `char::is_whitespace`. -/
def isWhitespace (c : Char) : Bool :=
  (9 ≤ c.toNat && c.toNat ≤ 13) || (0x2000 ≤ c.toNat && c.toNat ≤ 0x200a) ||
    c.toNat ∈ [0x20, 0x85, 0xa0, 0x1680, 0x2028, 0x2029, 0x202f, 0x205f, 0x3000]

def trim (s : List Char) : List Char := (s.dropWhile isWhitespace).rdropWhile isWhitespace

/-- `split_once`. -/
def splitOnce (separator : Char) (s : List Char) : Option (List Char × List Char) :=
  if separator ∈ s then some (s.takeWhile (· ≠ separator), (s.dropWhile (· ≠ separator)).drop 1) else none

/-! ### Identities -/

abbrev MacAddress := Vector UInt8 6

def octet (mac : MacAddress) (index : ℕ) : UInt8 := mac.toList.getD index 0

def parseHexPair (bytes : List UInt8) : Option UInt8 := do
  let high ← bytes.head? >>= fun byte => hexDigit (Char.ofUInt8 byte)
  let low ← bytes[1]? >>= fun byte => hexDigit (Char.ofUInt8 byte)
  return UInt8.ofNat (high * 16 + low)

/-- `MacAddress::from_str`. -/
def macFromStr (value : List Char) : Option MacAddress :=
  let bytes := (String.ofList value).toUTF8.data.toList
  if bytes.length ≠ 17 then none
  else do
    let octets ← Vector.ofFnM fun index : Fin 6 =>
      let offset := index.val * 3
      if index.val ≠ 5 ∧ bytes[offset + 2]? ≠ some ':'.toUInt8 then none else parseHexPair ((bytes.drop offset).take 2)
    if octets = Vector.replicate 6 0 ∨ octets = Vector.replicate 6 0xff ∨ octet octets 0 &&& 1 ≠ 0 then none
    else some octets

def hexText (octet : UInt8) : List Char := [Nat.digitChar (octet.toNat / 16), Nat.digitChar (octet.toNat % 16)]

def macText (mac : MacAddress) : List Char :=
  hexText (octet mac 0) ++ ':' :: hexText (octet mac 1) ++ ':' :: hexText (octet mac 2) ++ ':' :: hexText (octet mac 3) ++
    ':' :: hexText (octet mac 4) ++ ':' :: hexText (octet mac 5)

structure IdentityKey where
  mac : MacAddress
  zone : String
  deriving DecidableEq

/-- `to_string`. -/
def IdentityKey.text (key : IdentityKey) : String := String.ofList (macText key.mac ++ '@' :: key.zone.toList)

/-- `unique_mac_owners`: the text of the identity, none if the address has several. -/
def uniqueMacOwners (identities : List IdentityKey) : MacAddress → Option (Option String) :=
  identities.foldl (fun owners identity => Function.update owners identity.mac
    (match owners identity.mac with | some _ => some none | none => some (some identity.text))) fun _ => none

/-! ### Nodes -/

/-- The fields of a node that are counted. -/
inductive NodeField
  | generation | txBytes | rxBytes | txPackets | rxPackets
  deriving DecidableEq

/-- The slot of a key. -/
def slotOf (key : List Char) : Option NodeField :=
  if key = "nodes.node.time_added".toList then some .generation
  else if key = "nodes.node.adv_stats.from_data_total".toList then some .txBytes
  else if key = "nodes.node.adv_stats.to_data_total".toList then some .rxBytes
  else if key = "nodes.node.adv_stats.from_packet_total".toList then some .txPackets
  else if key = "nodes.node.adv_stats.to_packet_total".toList then some .rxPackets
  else none

structure PendingNode where
  mac : Option MacAddress := none
  slots : NodeField → Option UInt64 := fun _ => none
  malformed : Bool := false

/-- The generation and the counters, if all slots are filled. -/
def complete (slots : NodeField → Option UInt64) : Option (UInt64 × TrafficCounters) := do
  let generation ← slots .generation
  let txBytes ← slots .txBytes
  let rxBytes ← slots .rxBytes
  let txPackets ← slots .txPackets
  let rxPackets ← slots .rxPackets
  return (generation, { txBytes, rxBytes, txPackets, rxPackets })

structure NodeCounters where
  identityKey : String
  generation : UInt64
  counters : TrafficCounters
  deriving DecidableEq

structure ParseStats where
  nodesSeen : ℕ := 0
  nodesMatched : ℕ := 0
  malformedLines : ℕ := 0
  ambiguousMacs : ℕ := 0

structure NodeSnapshot where
  sampleMs : UInt64
  nodes : List NodeCounters
  stats : ParseStats

abbrev Aggregate := TreeMap (String × UInt64) TrafficCounters

structure ParseState where
  pending : PendingNode := {}
  aggregate : Aggregate := ∅
  stats : ParseStats := {}

def ParseState.countMalformed (s : ParseState) : ParseState :=
  { s with stats := { s.stats with malformedLines := saturatingAdd s.stats.malformedLines 1 } }

/-- `TrafficCounters::default`. -/
def noTraffic : TrafficCounters := ⟨0, 0, 0, 0⟩

def finishNode (owners : MacAddress → Option (Option String)) (s : ParseState) : ParseState :=
  let current := s.pending
  let s := { s with pending := {} }
  match current.mac with
  | none => s
  | some mac =>
    let s := { s with stats := { s.stats with nodesSeen := saturatingAdd s.stats.nodesSeen 1 } }
    if current.malformed then s
    else
      match owners mac with
      | none => s
      | some none => { s with stats := { s.stats with ambiguousMacs := saturatingAdd s.stats.ambiguousMacs 1 } }
      | some (some identityKey) =>
        match complete current.slots with
        | none => s.countMalformed
        | some (generation, counters) =>
          let totals := (s.aggregate[(identityKey, generation)]?).getD noTraffic
          { s with
            aggregate := s.aggregate.insert (identityKey, generation) {
              txBytes := RateWindow.saturatingAdd64 totals.txBytes counters.txBytes
              rxBytes := RateWindow.saturatingAdd64 totals.rxBytes counters.rxBytes
              txPackets := RateWindow.saturatingAdd64 totals.txPackets counters.txPackets
              rxPackets := RateWindow.saturatingAdd64 totals.rxPackets counters.rxPackets }
            stats := { s.stats with nodesMatched := saturatingAdd s.stats.nodesMatched 1 } }

/-- What `parse` does with a line. -/
def parseNodeLine (owners : MacAddress → Option (Option String)) (s : ParseState) (line : List UInt8) : ParseState :=
  let malformed (s : ParseState) : ParseState := { s.countMalformed with pending := { s.pending with malformed := true } }
  if maxLineBytes < line.length then malformed s
  else
    match fromUtf8 line with
    | none => malformed s
    | some text =>
      match splitOnce '=' (trim text) with
      | none => if trim text ≠ [] then malformed s else s
      | some (key, value) =>
        if key = "nodes.node.address".toList then
          let s := finishNode owners s
          let mac := macFromStr value
          { s with pending := { s.pending with mac, malformed := s.pending.malformed || mac.isNone } }
        else
          match slotOf key with
          | none => s
          | some slot =>
            match parseUnsigned 64 value with
            | none => malformed s
            | some parsed =>
              let old := s.pending.slots slot
              let s := { s with pending := { s.pending with
                slots := Function.update s.pending.slots slot (some (UInt64.ofBitVec parsed)) } }
              if old.isNone then s else malformed s

inductive EcmError
  | lineLimitExceeded | nodeLimitExceeded
  deriving DecidableEq

def EcmError.message : EcmError → String
  | lineLimitExceeded => "ECM node snapshot line limit exceeded"
  | nodeLimitExceeded => "ECM node snapshot node limit exceeded"

/-- The loop of `parse`. -/
def parseLoop (owners : MacAddress → Option (Option String)) :
    ℕ → Reader → ℕ → ParseState → Except EcmError ParseState
  | 0, _, _, s => .ok s
  | fuel + 1, reader, lines, s =>
    let (line, reader) := readUntil 10 reader
    if line.length = 0 then .ok (finishNode owners s)
    else
      let lines := saturatingAdd lines 1
      if maxLines < lines then .error .lineLimitExceeded
      else parseLoop owners fuel reader lines (parseNodeLine owners s line)

def parse (reader : Reader) (identities : List IdentityKey) (sampleMs : UInt64) : Except EcmError NodeSnapshot := do
  -- a line has a byte at least
  let s ← parseLoop (uniqueMacOwners identities) (reader.flatten.length + 1) reader 0 {}
  if maxNodes < s.aggregate.size then .error .nodeLimitExceeded
  else
    return {
      sampleMs
      nodes := s.aggregate.toList.map fun ((identityKey, generation), counters) => { identityKey, generation, counters }
      stats := s.stats }

end Lanspeedd.EcmNode
