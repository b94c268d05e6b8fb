import DOpenWrt.Oaf.UciValue

/-!
# The tables of names

`init_app_name_table` and `init_app_class_name_table` of `appfilter_config.c`. The file is none if it cannot be opened.
-/

namespace Oaf
open CString (isspace cstr)

def maxSupportAppNum : ℕ := 1024
def maxAppType : ℕ := 32
def maxClassNameLen : ℕ := 32

/-- The sizes of `line_buf`, `app_info_buf`, and `app_name` or `class_name`. -/
def lineBufLen : ℕ := 2048
def appInfoBufLen : ℕ := 128
def nameBufLen : ℕ := 64

/-- `app_name_info_t`. The id is none if it was never set. -/
structure AppNameInfo where
  id : Option ℤ
  name : List UInt8

/-! ### Text -/

/-- What `fgets` reads: up to the end of a line, or until the buffer is full. -/
def fgets (size : ℕ) (stream : List UInt8) : List UInt8 × List UInt8 :=
  match (stream.take (size - 1)).findIdx? (· = 10) with
  | some i => (stream.take (i + 1), stream.drop (i + 1))
  | none => (stream.take (size - 1), stream.drop (size - 1))

def fgetsLoop (size : ℕ) : ℕ → List UInt8 → List (List UInt8)
  | 0, _ => []
  | fuel + 1, stream =>
    if stream = [] then []
    else
      let (lineBuf, stream) := fgets size stream
      cstr lineBuf :: fgetsLoop size fuel stream

/-- The strings that `line_buf` holds one after the other. -/
def fileLines (file : List UInt8) : List (List UInt8) := fgetsLoop lineBufLen file.length file

/-- `%s` of `sscanf`: the word and the rest. -/
def scanWord (s : List UInt8) : Option (List UInt8 × List UInt8) :=
  let s := s.dropWhile isspace
  if s = [] then none else some (s.takeWhile (! isspace ·), s.dropWhile (! isspace ·))

/-- A word and its NUL into a buffer. -/
def storeWord (size : ℕ) (word : List UInt8) : Except OutOfBounds (List UInt8) :=
  if word.length < size then .ok word else .error .write

/-! ### `init_app_name_table` -/

section
variable (unfit : ℤ → ℤ)

/-- A line that is taken, and where its colon is. -/
def appLineColon (line : List UInt8) : Option ℕ :=
  if '#'.toUInt8 ∈ line then none else if line.length < 10 then none else line.findIdx? (· = ':'.toUInt8)

/-- `app_info_buf` as a string. If the text fills it, the string goes on with `behind`, what lies behind it in memory. -/
def appInfo (behind line : List UInt8) (colon : ℕ) : List UInt8 :=
  if colon < appInfoBufLen then line.take colon else line.take colon ++ behind

/-- `sscanf(app_info_buf, "%d %s", &app_id, app_name)`. -/
def scanApp (info : List UInt8) : Except OutOfBounds (Option ℤ × List UInt8) :=
  match scanNumber unfit info with
  | none => .ok (none, [])
  | some (appId, rest) =>
    match scanWord rest with
    | none => .ok (some appId, [])
    | some (word, _) => do
      let appName ← storeWord nameBufLen word
      return (some appId, appName)

def addAppName (behind : List UInt8) (table : List AppNameInfo) (line : List UInt8) :
    Except OutOfBounds (List AppNameInfo) :=
  match appLineColon line with
  | none => .ok table
  | some colon => do
    if appInfoBufLen < colon then .error .write
    else
      let (id, appName) ← scanApp unfit (appInfo behind line colon)
      if maxSupportAppNum ≤ table.length then .error .write
      else
        let name ← storeWord nameBufLen appName
        return table ++ [{ id, name }]

/-- `app_name_table` up to `g_app_count`. -/
def initAppNameTable (behind : List UInt8) (file : Option (List UInt8)) (table : List AppNameInfo) :
    Except OutOfBounds (List AppNameInfo) :=
  match file with
  | none => .ok table
  | some file => (fileLines file).foldlM (addAppName unfit behind) []

/-! ### `init_app_class_name_table` -/

structure ClassTable where
  classId : ℤ
  className : List UInt8 := []
  curClassNum : ℕ := 0
  classNameTable : Fin maxAppType → List UInt8

/-- `sscanf(line_buf, "%d %*s %s", &class_id, class_name)`. -/
def scanClass (state : ClassTable) (line : List UInt8) : Except OutOfBounds ClassTable :=
  match scanNumber unfit line with
  | none => .ok state
  | some (classId, rest) =>
    match scanWord rest >>= fun word => scanWord word.2 with
    | none => .ok { state with classId }
    | some (word, _) => do
      let className ← storeWord nameBufLen word
      return { state with classId, className }

def addClassName (state : ClassTable) (line : List UInt8) : Except OutOfBounds ClassTable := do
  let state ← scanClass unfit state line
  if h : 0 ≤ state.classId - 1 ∧ (state.classId - 1).toNat < maxAppType then
    let name ← storeWord maxClassNameLen state.className
    return { state with
      classNameTable := Function.update state.classNameTable ⟨(state.classId - 1).toNat, h.2⟩ name
      curClassNum := state.curClassNum + 1 }
  else .error .write

/-- `init_app_class_name_table`, with what `class_id` happens to be before it is set. -/
def initAppClassNameTable (classId : ℤ) (file : Option (List UInt8)) (table : Fin maxAppType → List UInt8) :
    Except OutOfBounds (Fin maxAppType → List UInt8) :=
  match file with
  | none => .ok table
  | some file => do
    let state ← (fileLines file).foldlM (addClassName unfit) { classId, classNameTable := table }
    return state.classNameTable

end

end Oaf
