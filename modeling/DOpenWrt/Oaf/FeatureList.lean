import DOpenWrt.Oaf.PortInfo

/-!
# The feature list

`af_init_feature`, `add_app_feature` and `__add_app_feature` of `app_filter.c`: a line of the feature file becomes nodes
of `af_feature_head`. A list of bytes is a C string without its NUL. A write outside a buffer is a fault, and so is the
use of a string that fills its buffer, which has no end.
-/

namespace Oaf
open CString (str isspace isdigit digitsVal)

def maxAppNameLen : ℕ := 64
def minFeatureStrLen : ℕ := 8
def maxFeatureStrLen : ℕ := 128

/-- The size of `feature_buf`. -/
def featureBufLen : ℕ := 600

def maxHostUrlLen : ℕ := 128
def maxRequestUrlLen : ℕ := 128

deriving instance DecidableEq for AfPosInfo

/-- `af_feature_node_t`. The id is none if it was never set. -/
structure FeatureListNode extends AfFeatureNode where
  appId : Option ℤ
  appName : List UInt8
  feature : List UInt8
  proto : ℕ
  sport : ℤ
  dportInfo : PortInfo
  ignore : ℤ

/-! ### Numbers -/

/-- `%d` of `k_sscanf`, which does not skip the no-break space. -/
def kSscanfInt (s : List UInt8) : Option (ℤ × List UInt8) :=
  let s := s.dropWhile isspace
  if s.head? = some 0xa0 then none else sscanfInt s

def isxdigit (c : UInt8) : Bool :=
  isdigit c || 'a'.toNat ≤ c.toNat ∧ c.toNat ≤ 'f'.toNat || 'A'.toNat ≤ c.toNat ∧ c.toNat ≤ 'F'.toNat

def xdigitVal (c : UInt8) : ℕ :=
  if isdigit c then c.toNat - '0'.toNat
  else if 'a'.toNat ≤ c.toNat then c.toNat - 'a'.toNat + 10
  else c.toNat - 'A'.toNat + 10

def xdigitsVal (digits : List UInt8) : ℕ := digits.foldl (fun n c => n * 16 + xdigitVal c) 0

/-- `%x` of `k_sscanf`: the kernel passes over `0x`. -/
def kSscanfHex (s : List UInt8) : Option ℕ :=
  let s := s.dropWhile isspace
  if !(s.head?.any isxdigit) then none
  else
    let s := if s.take 2 = str "0x" ∨ s.take 2 = str "0X" then s.drop 2 else s
    some (xdigitsVal (s.takeWhile isxdigit) % 2 ^ 32)

/-- `k_sscanf(pos, "%d:%x", &index, &value)`: the result and what `index` and `value` hold afterwards. -/
def kSscanfPos (s : List UInt8) (index : ℤ) (value : ℕ) : ℕ × ℤ × ℕ :=
  match kSscanfInt s with
  | none => (0, index, value)
  | some (index, s) =>
    if s.head? ≠ some ':'.toUInt8 then (1, index, value)
    else
      match kSscanfHex (s.drop 1) with
      | none => (1, index, value)
      | some value => (2, index, value)

def kAtoi (s : List UInt8) : ℤ :=
  let s := s.dropWhile fun c => c = ' '.toUInt8 || c = '\t'.toUInt8
  (BitVec.ofInt 32 (digitsVal (s.takeWhile isdigit) : ℤ)).toInt

/-! ### Buffers -/

/-- `strncpy` of the first `n` bytes of a text and its NUL into an empty buffer. -/
def copyField (size n : ℕ) (item : List UInt8) : Except DpiFault (List UInt8) :=
  if size < n then .error .write else .ok item

/-- What is in the buffer, as a string. -/
def readField (size : ℕ) (item : List UInt8) : Except DpiFault (List UInt8) :=
  if item.length < size then .ok item else .error .read

/-- `strcpy`. -/
def copyString (size : ℕ) (s : List UInt8) : Except DpiFault (List UInt8) :=
  if s.length < size then .ok s else .error .write

/-! ### `__add_app_feature` -/

def posBufLen : ℕ := 64

/-- The loop over `dict`: `item` is what lies between `begin` and `p`. -/
def posLoop (item : List UInt8) : List UInt8 → ℤ → ℕ → List AfPosInfo → Except DpiFault (List AfPosInfo)
  | [], index, value, posInfo => do
    let pos ← copyString posBufLen item
    let (ret, index, value) := kSscanfPos pos index value
    if ret = 2 then return posInfo ++ [⟨index, UInt8.ofNat value⟩] else return posInfo
  | c :: rest, index, value, posInfo =>
    if c ≠ '|'.toUInt8 then posLoop (item ++ [c]) rest index value posInfo
    else do
      let pos ← copyField posBufLen item.length item
      let pos ← readField posBufLen pos
      let (_, index, value) := kSscanfPos pos index value
      let posInfo := posInfo ++ [⟨index, UInt8.ofNat value⟩]
      -- after the break `p - begin` is negative
      if maxPosInfoPerFeature - 1 ≤ posInfo.length then .error .write
      else posLoop [] rest index value posInfo

/-- The first byte is never compared with the separator. -/
def parseDict (dict : List UInt8) : Except DpiFault (List AfPosInfo) :=
  match dict with
  | [] => .ok []
  | c :: rest => posLoop [c] rest 0 0 []

/-- `__add_app_feature`: the new node is the first of the list. -/
def addAppFeatureNode (features : List FeatureListNode) (feature : List UInt8) (appId : Option ℤ) (name : List UInt8)
    (proto : ℕ) (sport : ℤ) (dportInfo : PortInfo) (hostUrl requestUrl dict searchStr : List UInt8) (ignore : ℤ) :
    Except DpiFault (List FeatureListNode) := do
  let name ← copyString maxAppNameLen name
  let hostUrl ← copyString maxHostUrlLen hostUrl
  let requestUrl ← copyString maxRequestUrlLen requestUrl
  if h : searchStr.length < maxSearchStrLen then
    let feature ← copyString maxFeatureStrLen feature
    let posInfo ← parseDict dict
    return {
      hostUrl := hostUrl, requestUrl := requestUrl, posInfo := posInfo, searchStr := searchStr, searchStr_lt := h
      appId := appId, appName := name, feature := feature, proto := proto, sport := sport, dportInfo := dportInfo
      ignore := ignore } :: features
  else .error .write

/-! ### `add_app_feature` -/

/-- The buffers of `add_app_feature`. -/
structure FeatureFields where
  protoStr : List UInt8 := []
  srcPortStr : List UInt8 := []
  dstPortStr : List UInt8 := []
  hostUrl : List UInt8 := []
  requestUrl : List UInt8 := []
  dict : List UInt8 := []
  searchStr : List UInt8 := []
  ignore : ℤ := 0
  deriving DecidableEq

def protoStrLen : ℕ := 16
def srcPortStrLen : ℕ := 16
def dstPortStrLen : ℕ := 16
def hostUrlLen : ℕ := 32
def requestUrlLen : ℕ := 128
def dictLen : ℕ := 128
def searchStrLen : ℕ := 128
def tmpBufLen : ℕ := 128

section
variable (n : ℕ) (item : List UInt8) (f : FeatureFields)

def setIgnore : Except DpiFault FeatureFields := do
  let tmpBuf ← copyField tmpBufLen n item
  let tmpBuf ← readField tmpBufLen tmpBuf
  return { f with ignore := kAtoi tmpBuf }

/-- The `switch` on the number of a parameter. -/
def setParam : ℕ → Except DpiFault FeatureFields
  | 0 => do return { f with protoStr := ← copyField protoStrLen n item }
  | 1 => do return { f with srcPortStr := ← copyField srcPortStrLen n item }
  | 2 => do return { f with dstPortStr := ← copyField dstPortStrLen n item }
  | 3 => do return { f with hostUrl := ← copyField hostUrlLen n item }
  | 4 => do return { f with requestUrl := ← copyField requestUrlLen n item }
  | 5 => do return { f with dict := ← copyField dictLen n item }
  | 6 => do return { f with searchStr := ← copyField searchStrLen n item }
  | 7 => setIgnore n item f
  | _ => .ok f

/-- What is done with the text behind the last separator. `p` is one past the NUL there. -/
def setLastParam (paramNum : ℕ) : Except DpiFault FeatureFields :=
  if paramNum = 5 ∨ paramNum = 7 then setParam (item.length + 1) item f paramNum else .ok f

end

/-- The loop over the parameters: `item` is what lies between `begin` and `p`. -/
def featureLoop (item : List UInt8) : List UInt8 → ℕ → FeatureFields → Except DpiFault FeatureFields
  | [], paramNum, f => setLastParam item f paramNum
  | c :: rest, paramNum, f =>
    if c ≠ ';'.toUInt8 then featureLoop (item ++ [c]) rest paramNum f
    else do
      let f ← setParam item.length item f paramNum
      featureLoop [] rest (paramNum + 1) f

/-- The first byte is never compared with the separator. -/
def featureFields (feature : List UInt8) : Except DpiFault FeatureFields :=
  match feature with
  | [] => .ok {}
  | c :: rest => featureLoop [c] rest 0 {}

def featureProto (protoStr : List UInt8) : Option ℕ :=
  if protoStr = str "tcp" then some ipprotoTcp
  else if protoStr = str "udp" then some ipprotoUdp
  else none

def addAppFeature (features : List FeatureListNode) (appId : Option ℤ) (name feature : List UInt8) :
    Except DpiFault (List FeatureListNode) :=
  if feature.length < minFeatureStrLen then .ok features
  else do
    let f ← featureFields feature
    match featureProto f.protoStr with
    | none => .ok features
    | some proto => do
      let srcPortStr ← readField srcPortStrLen f.srcPortStr
      let dstPortStr ← readField dstPortStrLen f.dstPortStr
      let dportInfo ← parsePortInfo dstPortStr
      let hostUrl ← readField hostUrlLen f.hostUrl
      let requestUrl ← readField requestUrlLen f.requestUrl
      let searchStr ← readField searchStrLen f.searchStr
      let dict ← readField dictLen f.dict
      addAppFeatureNode features feature appId name proto ((sscanfInt srcPortStr).elim 0 Prod.fst) dportInfo hostUrl
        requestUrl dict searchStr f.ignore

/-! ### `af_init_feature` -/

/-- The loop over the brackets: `pos` is behind the last opening one, `len` the length up to the last closing one after
an opening one. -/
def bracketLoop : List UInt8 → ℕ → Option ℕ → ℤ → Option ℕ × ℤ
  | [], _, pos, len => (pos, len)
  | c :: rest, p, pos, len =>
    if c = '['.toUInt8 then bracketLoop rest (p + 1) (some (p + 1)) len
    else
      match pos with
      | some pos => bracketLoop rest (p + 1) (some pos) (if c = ']'.toUInt8 then (p : ℤ) - pos else len)
      | none => bracketLoop rest (p + 1) none len

/-- `feature_buf`. The first byte of the line is not looked at. -/
def featureBuf (line : List UInt8) : Except DpiFault (List UInt8) :=
  match bracketLoop (line.drop 1) 1 none 0 with
  | (some pos, len) =>
    if len = 0 then .ok []
    else do
      let buf ← copyField featureBufLen len.toNat ((line.drop pos).take len.toNat)
      readField featureBufLen buf
  | (none, _) => .ok []

/-- The loop over the features: `item` is what lies between `begin` and `p`. The copy is closed with a NUL. -/
def commaLoop (appId : Option ℤ) (item : List UInt8) : List UInt8 → List FeatureListNode →
    Except DpiFault (List FeatureListNode)
  | [], features =>
    -- `p` is one past the NUL
    if item.length + 1 > maxFeatureStrLen then .ok features
    else if item.length + 1 = maxFeatureStrLen then .error .write
    else addAppFeature features appId [] item
  | c :: rest, features =>
    if c ≠ ','.toUInt8 then commaLoop appId (item ++ [c]) rest features
    else if item.length > maxFeatureStrLen then .ok features
    else if item.length = maxFeatureStrLen then .error .write
    else do
      let features ← addAppFeature features appId [] item
      commaLoop appId [] rest features

/-- `app_name` stays empty: `k_sscanf` does not know `%[`. -/
def afInitFeature (features : List FeatureListNode) (line : List UInt8) : Except DpiFault (List FeatureListNode) :=
  if '#'.toUInt8 ∈ line then .ok features
  else do
    let appId := (kSscanfInt line).map Prod.fst
    match ← featureBuf line with
    | [] => commaLoop appId [] [] features
    | c :: rest => commaLoop appId [c] rest features

end Oaf
