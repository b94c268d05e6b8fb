import DOpenWrt.Lib.BucketTable
import DOpenWrt.Lib.CString

/-!
# Filter rules

The configuration side of the kernel module: `af_config.c` hands a parsed command to one of the handlers of
`af_rule_config.c`, `af_user_config.c` and `af_whitelist_config.c`; `match_app_filter_user` and
`match_app_filter_rule` of `app_filter.c` read what they leave. An access outside the status table and a read
through a null pointer are faults.
-/

namespace Oaf
open CString (str eqIgnoreCase)

inductive Fault
  | outOfTable
  | nullPointer
  deriving DecidableEq

/-! ### JSON values -/

/-- `cJSON`: `string` is the name of a member, absent in an array; `valuestring` is absent unless the value is a
string. -/
inductive CJson
  | node (string valuestring : Option (List UInt8)) (valueint : ℤ) (child : List CJson)

namespace CJson

def string : CJson → Option (List UInt8)
  | node s _ _ _ => s

def valuestring : CJson → Option (List UInt8)
  | node _ s _ _ => s

def valueint : CJson → ℤ
  | node _ _ v _ => v

def child : CJson → List CJson
  | node _ _ _ c => c

end CJson

/-- The loop of `cJSON_GetObjectItem`. -/
def findItem (name : List UInt8) : List CJson → Except Fault (Option CJson)
  | [] => .ok none
  | c :: cs =>
    match c.string with
    | none => .error .nullPointer
    | some s => if eqIgnoreCase s name then .ok (some c) else findItem name cs

def cJsonGetObjectItem (object : CJson) (name : List UInt8) : Except Fault (Option CJson) := findItem name object.child

/-! ### Application status -/

def afMaxAppNum : ℕ := 512

def afAppType (a : ℤ) : ℤ := a.tdiv 1000
def afAppId (a : ℤ) : ℤ := a.tmod 1000

abbrev Cell := Fin (32 * 512)

/-- The cell of the table that `g_app_id_array[type][id]` names, if it lies in the table. Rows follow one another
without a gap. -/
def appCell (appid : ℤ) : Option Cell :=
  let i := afAppType appid * afMaxAppNum + afAppId appid
  if h : 0 ≤ i ∧ i < 32 * 512 then some ⟨i.toNat, by omega⟩ else none

def appCellM (appid : ℤ) : Except Fault Cell :=
  match appCell appid with
  | some c => .ok c
  | none => .error .outOfTable

structure Mac where
  b0 : UInt8
  b1 : UInt8
  b2 : UInt8
  b3 : UInt8
  b4 : UInt8
  b5 : UInt8
  deriving DecidableEq

def maxAfMacHashSize : ℕ := 64

def hashMac (mac : Mac) : Fin 64 :=
  ⟨((mac.b0 ^^^ mac.b1).toNat + (mac.b2 ^^^ mac.b3).toNat + (mac.b4 ^^^ mac.b5).toNat) % maxAfMacHashSize,
    Nat.mod_lt _ (by decide)⟩

/-- The tables that the commands change. -/
structure AfRules where
  gAppIdArray : Cell → ℤ
  afMacHtable : Fin 64 → List Mac
  afWhitelistMacHtable : Fin 64 → List Mac

namespace AfRules

variable (s : AfRules)

/-- The tables after the module is loaded. -/
def init : AfRules := ⟨fun _ => 0, fun _ => [], fun _ => []⟩

/-- The loop of `af_change_app_status`. -/
def setStatus (status : ℤ) : AfRules → List CJson → Except Fault AfRules
  | s, [] => .ok s
  | s, appid :: rest => do
    let cell ← appCellM appid.valueint
    setStatus status { s with gAppIdArray := Function.update s.gAppIdArray cell status } rest

/-- The new tables and the return value. -/
def afChangeAppStatus (dataObj : Option CJson) (status : ℤ) : Except Fault (AfRules × ℤ) :=
  match dataObj with
  | none => .ok (s, -1)
  | some data => do
    match ← cJsonGetObjectItem data (str "apps") with
    | none => .ok (s, -1)
    | some appidArr => do
      let s ← setStatus status s appidArr.child
      return (s, 0)

def afConfigAddAppid (data : Option CJson) : Except Fault (AfRules × ℤ) := s.afChangeAppStatus data 1

def afConfigDelAppid (data : Option CJson) : Except Fault (AfRules × ℤ) := s.afChangeAppStatus data 0

def afInitAppStatus : AfRules := { s with gAppIdArray := fun _ => 0 }

def afConfigCleanAppid (_data : Option CJson) : Except Fault (AfRules × ℤ) := .ok (s.afInitAppStatus, 0)

def afGetAppStatus (appid : ℤ) : Except Fault ℤ := do
  let cell ← appCellM appid
  return s.gAppIdArray cell

/-! ### Clients -/

def afMacListFlush : AfRules := { s with afMacHtable := fun _ => [] }

def afMacFind (mac : Mac) : Option Mac := BucketTable.find hashMac s.afMacHtable mac

def afMacAdd (mac : Mac) : AfRules := { s with afMacHtable := BucketTable.add hashMac s.afMacHtable mac }

def afWhitelistMacFlush : AfRules := { s with afWhitelistMacHtable := fun _ => [] }

def afWhitelistMacFind (mac : Mac) : Option Mac := BucketTable.find hashMac s.afWhitelistMacHtable mac

def afWhitelistMacAdd (mac : Mac) : AfRules :=
  { s with afWhitelistMacHtable := BucketTable.add hashMac s.afWhitelistMacHtable mac }

/-- The loop of the two commands that set a list. An entry that `mac_to_hex` does not take is passed over; `scan` is
the kernel's `sscanf` with the format of six bytes in hex. -/
def addMacs (scan : List UInt8 → Option Mac) (add : AfRules → Mac → AfRules) :
    AfRules → List CJson → Except Fault AfRules
  | s, [] => .ok s
  | s, macObj :: rest =>
    match macObj.valuestring with
    | none => .error .nullPointer
    | some text =>
      match scan text with
      | none => addMacs scan add s rest
      | some mac => addMacs scan add (add s mac) rest

/-- `af_config_set_mac_list` and `af_config_set_whitelist_mac_list` for their own flush and add. -/
def setMacs (scan : List UInt8 → Option Mac) (flush : AfRules → AfRules) (add : AfRules → Mac → AfRules)
    (dataObj : Option CJson) : Except Fault (AfRules × ℤ) :=
  match dataObj with
  | none => .ok (s, -1)
  | some data => do
    match ← cJsonGetObjectItem data (str "mac_list") with
    | none => .ok (s, -1)
    | some macArr => do
      let s ← addMacs scan add (flush s) macArr.child
      return (s, 0)

def afConfigSetMacList (scan : List UInt8 → Option Mac) (data : Option CJson) : Except Fault (AfRules × ℤ) :=
  s.setMacs scan afMacListFlush afMacAdd data

def afConfigSetWhitelistMacList (scan : List UInt8 → Option Mac) (data : Option CJson) : Except Fault (AfRules × ℤ) :=
  s.setMacs scan afWhitelistMacFlush afWhitelistMacAdd data

/-! ### Commands -/

inductive AfConfigCmd
  | addAppid
  | delAppid
  | cleanAppid
  | setMacList
  | setWhitelistMacList
  deriving DecidableEq

/-- `enum AF_CONFIG_CMD` and the search of `af_find_handler`. -/
def afFindHandler : ℤ → Option AfConfigCmd
  | 1 => some .addAppid
  | 2 => some .delAppid
  | 3 => some .cleanAppid
  | 4 => some .setMacList
  | 5 => some .setWhitelistMacList
  | _ => none

def handler (scan : List UInt8 → Option Mac) : AfConfigCmd → Option CJson → Except Fault (AfRules × ℤ)
  | .addAppid => s.afConfigAddAppid
  | .delAppid => s.afConfigDelAppid
  | .cleanAppid => s.afConfigCleanAppid
  | .setMacList => s.afConfigSetMacList scan
  | .setWhitelistMacList => s.afConfigSetWhitelistMacList scan

/-- `af_config_handle` from the parsed command on. -/
def afConfigHandle (scan : List UInt8 → Option Mac) (configObj : CJson) : Except Fault (AfRules × ℤ) := do
  match ← cJsonGetObjectItem configObj (str "op") with
  | none => .ok (s, -1)
  | some cmdObj => do
    let dataObj ← cJsonGetObjectItem configObj (str "data")
    match afFindHandler cmdObj.valueint with
    | some cmd => s.handler scan cmd dataObj
    | none => .ok (s, -1)

/-! ### Matching -/

/-- `match_app_filter_user`; the user mode is 0 for automatic. -/
def matchAppFilterUser (gUserMode : ℤ) (client : Mac) : Bool :=
  if gUserMode = 0 then
    if (s.afWhitelistMacFind client).isSome then false else true
  else if (s.afMacFind client).isNone then false
  else true

def matchAppFilterRule (gUserMode gAppFilterMode appid : ℤ) (client : Mac) : Except Fault Bool :=
  if !s.matchAppFilterUser gUserMode client then .ok false
  else if gAppFilterMode = 1 then .ok true
  else do
    let status ← s.afGetAppStatus appid
    return status ≠ 0

end AfRules
end Oaf
