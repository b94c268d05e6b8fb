import Mathlib.Data.List.DropRight
import DOpenWrt.Lib.CFormat

/-!
# Playlists

`m3u.c`, as far as it creates services: the lines of a playlist, the names taken from them and the services added to
the global list. The rewritten playlist and the EPG address are left out.
-/

namespace Rtp2httpd
open CString

def MAX_M3U_LINE : Nat := 4096
def MAX_SERVICE_NAME : Nat := 256
def MAX_URL_LENGTH : Nat := 2048

/-- What `snprintf` or `strncpy` leave of a string in a buffer of this size. -/
def fit (size : Nat) (s : List UInt8) : List UInt8 := s.take (size - 1)

/-- `strncmp(s, prefix, strlen(prefix)) == 0`. -/
def startsWith (p s : List UInt8) : Bool := p.isPrefixOf s

/-- What follows the first occurrence of the needle (`strstr`). -/
def afterFirst (needle : List UInt8) : List UInt8 → Option (List UInt8)
  | [] => if needle = [] then some [] else none
  | c :: s => if startsWith needle (c :: s) then some ((c :: s).drop needle.length) else afterFirst needle s

inductive ServiceSource where
  | inline
  | external
deriving DecidableEq, Repr

/-- A service: its name in the list, where it comes from and what its address was parsed into. -/
structure Service (σ : Type*) where
  url : Option (List UInt8)
  source : ServiceSource
  address : σ

/-- What a playlist needs of addresses: unwrapping, appending a catch-up template, and what each kind of service is
parsed into. -/
structure AddressParser (σ : Type*) where
  extractWrappedUrl : List UInt8 → Option (List UInt8)
  buildAppendedCatchupUrl : List UInt8 → List UInt8 → Option (List UInt8)
  serviceCreateFromRtpUrl : List UInt8 → Option σ
  serviceCreateFromRtspUrl : List UInt8 → Option σ
  serviceCreateFromHttpUrl : List UInt8 → Option σ

/-- The number of a numbered variant of the name: a slash after it, then a number below 1000 to the end. -/
def suffixOf (serviceName url : List UInt8) : Option Nat :=
  match url.drop serviceName.length with
  | c :: suffix =>
    if startsWith serviceName url ∧ c.toNat = '/'.toNat then
      match strtol suffix with
      | some (n, []) => if 0 < n ∧ n < 1000 then some n.toNat else none
      | _ => none
    else none
  | [] => none

/-- The loop over the existing services: is the name taken, and the largest numbered variant. -/
def scanServices (serviceName : List UInt8) (urls : List (List UInt8)) : Bool × Nat :=
  urls.foldl (fun (baseExists, maxSuffix) url =>
    (baseExists || url = serviceName, max maxSuffix ((suffixOf serviceName url).getD 0))) (false, 0)

def findUniqueServiceName (urls : List (List UInt8)) (serviceName : List UInt8) : List UInt8 :=
  let (baseExists, maxSuffix) := scanServices serviceName urls
  if ¬ baseExists ∧ maxSuffix = 0 then serviceName
  else
    let nextSuffix := if 0 < maxSuffix then maxSuffix + 1 else 2
    fit MAX_SERVICE_NAME (serviceName ++ str "/" ++ decimal nextSuffix)

/-! ### Names and labels in a line -/

def isHeader (line : List UInt8) : Bool := startsWith (str "#EXTM3U") line

def extractAttribute (line attrName : List UInt8) (valueSize : Nat) : Option (List UInt8) :=
  match afterFirst (fit 128 (attrName ++ str "=")) line with
  | none => none
  | some rest =>
    let rest := rest.dropWhile isspace
    let value :=
      if startsWith (str "\"") rest then
        if '"'.toNat ∈ (rest.drop 1).map UInt8.toNat then some ((rest.drop 1).takeWhile (·.toNat ≠ '"'.toNat)) else none
      else some (rest.takeWhile (¬ isspace ·))
    value.filter (·.length < valueSize)

def extractServiceName (line : List UInt8) (nameSize : Nat) : Option (List UInt8) :=
  if ','.toNat ∈ line.map UInt8.toNat then
    let name := (line.rtakeWhile (·.toNat ≠ ','.toNat)).dropWhile isspace
    if name = [] then none else some ((fit nameSize name).rdropWhile isspace)
  else none

/-- The last `$` that is neither at the end nor followed by a brace, with what follows. -/
def httpFindUrlLabel : List UInt8 → Option (List UInt8)
  | [] => none
  | c :: s =>
    match httpFindUrlLabel s with
    | some label => some label
    | none => if c.toNat = '$'.toNat ∧ s ≠ [] ∧ ¬ startsWith (str "\x7b") s then some (c :: s) else none

def httpStripUrlLabel (url : List UInt8) : List UInt8 :=
  url.take (url.length - ((httpFindUrlLabel url).getD []).length)

structure M3uExtinf where
  name : List UInt8
  catchupSource : Option (List UInt8)
deriving DecidableEq, Repr

/-- The name of an entry: its group, cut to what the buffer leaves, a slash and the base name. -/
def entryName (groupTitle : Option (List UInt8)) (baseName : List UInt8) : List UInt8 :=
  match groupTitle with
  | none | some [] => fit MAX_SERVICE_NAME baseName
  | some group =>
    -- for a base name that fills the buffer the index of the cut wraps around, and the group stays
    let group :=
      if MAX_SERVICE_NAME ≤ group.length + 1 + baseName.length ∧ baseName.length + 2 ≤ MAX_SERVICE_NAME then
        group.take (MAX_SERVICE_NAME - baseName.length - 2)
      else group
    let name := group ++ str "/" ++ baseName
    if MAX_SERVICE_NAME ≤ name.length then fit MAX_SERVICE_NAME baseName else name

/-- An `#EXTINF` line. -/
def parseExtinf (line : List UInt8) : Option M3uExtinf :=
  (extractServiceName line MAX_SERVICE_NAME).map fun baseName =>
    { name := entryName (extractAttribute line (str "group-title") MAX_SERVICE_NAME) baseName
      catchupSource := extractAttribute line (str "catchup-source") MAX_URL_LENGTH }

/-- `name_with_label`: the label of the address, with a slash for its dollar. -/
def nameWithLabel (name : List UInt8) (urlLabel : Option (List UInt8)) : List UInt8 :=
  match (urlLabel.map (fit MAX_SERVICE_NAME)).getD [] with
  | _ :: c :: label => fit MAX_SERVICE_NAME (name ++ str "/" ++ c :: label)
  | _ => fit MAX_SERVICE_NAME name

/-! ### Creating services -/

/-- A call of `find_unique_service_name`: the names in the list, the name requested and the name returned. -/
structure NameRequest where
  existing : List (List UInt8)
  serviceName : List UInt8
  result : List UInt8

/-- The global service list, with the calls of `find_unique_service_name` so far. -/
structure Services (σ : Type*) where
  list : List (Service σ)
  requests : List NameRequest

/-- Services without a name are passed over. -/
def Services.urls {σ : Type*} (s : Services σ) : List (List UInt8) := s.list.filterMap Service.url

section Create

variable {σ : Type*} (address : AddressParser σ)

def isUrlRecognizable (url : List UInt8) : Bool :=
  let testUrl := fit MAX_URL_LENGTH url
  (address.extractWrappedUrl testUrl).isSome || startsWith (str "rtp://") testUrl || startsWith (str "udp://") testUrl ||
    startsWith (str "rtsp://") testUrl || startsWith (str "http://") testUrl

/-- The address a service is created from. -/
def normalizedUrl (url : List UInt8) (stripUrlLabel : Bool) : List UInt8 :=
  let url := fit MAX_URL_LENGTH url
  let url := (address.extractWrappedUrl url).elim url (fit MAX_URL_LENGTH)
  if stripUrlLabel then httpStripUrlLabel url else url

def serviceCreate (url : List UInt8) : Option σ :=
  if startsWith (str "rtp://") url ∨ startsWith (str "udp://") url then address.serviceCreateFromRtpUrl url
  else if startsWith (str "rtsp://") url then address.serviceCreateFromRtspUrl url
  else if startsWith (str "http://") url then address.serviceCreateFromHttpUrl url
  else none

def createServiceFromUrl (services : Services σ) (serviceName url : List UInt8) (source : ServiceSource)
    (stripUrlLabel : Bool) : Services σ × Option (List UInt8) :=
  let uniqueName := findUniqueServiceName services.urls serviceName
  let requests := services.requests ++ [⟨services.urls, serviceName, uniqueName⟩]
  match serviceCreate address (normalizedUrl address url stripUrlLabel) with
  | none => ({ services with requests }, none)
  | some parsed => (⟨services.list ++ [⟨some uniqueName, source, parsed⟩], requests⟩, some uniqueName)

/-- The address of the catch-up service of an entry, if it is to have one. -/
def catchupServiceUrl (line : List UInt8) (catchupSource : Option (List UInt8)) : Option (List UInt8) :=
  match catchupSource with
  | none | some [] => none
  | some catchup =>
    let lineWithoutLabel := httpStripUrlLabel line
    if isUrlRecognizable address catchup then some catchup
    else if isUrlRecognizable address lineWithoutLabel then address.buildAppendedCatchupUrl lineWithoutLabel catchup
    else none

/-- The address line of an entry: its service, and its catch-up service under the name of the first. -/
def processUrlLine (services : Services σ) (extinf : M3uExtinf) (line : List UInt8) (source : ServiceSource) :
    Services σ :=
  if isUrlRecognizable address line then
    match createServiceFromUrl address services (nameWithLabel extinf.name (httpFindUrlLabel line)) line source true with
    | (services, none) => services
    | (services, some uniqueName) =>
      match catchupServiceUrl address line extinf.catchupSource with
      | none => services
      | some catchup =>
        (createServiceFromUrl address services (fit (MAX_SERVICE_NAME + 20) (uniqueName ++ str "/catchup")) catchup source
          false).1
  else services

/-- Where the line loop stands: the services, and the entry an `#EXTINF` line has begun. -/
structure M3uState (σ : Type*) where
  services : Services σ
  entry : Option M3uExtinf

def processLine (source : ServiceSource) (state : M3uState σ) (line : List UInt8) : M3uState σ :=
  if line = [] ∨ isHeader line then state
  else if startsWith (str "#EXTINF:") line then { state with entry := parseExtinf line }
  else if startsWith (str "#") line then state
  else
    match state.entry with
    | none => state
    | some extinf => ⟨processUrlLine address state.services extinf line source, none⟩

/-- The lines of a playlist without its byte order mark, cut to the buffer and trimmed. -/
def m3uLines (content : List UInt8) : List (List UInt8) :=
  let content := cstr content
  let content := if startsWith [0xEF, 0xBB, 0xBF] content then content.drop 3 else content
  (content.splitOn 10).map fun line => (fit MAX_M3U_LINE line).rdropWhile isspace

def serviceSource (sourceUrl : Option (List UInt8)) : ServiceSource :=
  match sourceUrl with
  | none => .inline
  | some url => if startsWith (str "inline") url then .inline else .external

/-- `m3u_parse_and_create_services`. -/
def m3uParseAndCreateServices (services : Services σ) (content : List UInt8) (sourceUrl : Option (List UInt8)) :
    Services σ :=
  ((m3uLines content).foldl (processLine address (serviceSource sourceUrl)) ⟨services, none⟩).services

end Create

end Rtp2httpd
