import DOpenWrt.Rtp2httpd.HttpQuery
import DOpenWrt.Rtp2httpd.M3u
import DOpenWrt.Rtp2httpd.Timezone

/-!
# URL templates (`url_template.c`)

A URL may hold placeholders for the time that is asked for. `url_template_analyze` says of a URL whether it has
placeholders and which times they need; it scans the path and the values of the parameters. `render_template_url`
replaces the placeholders, wherever they stand.
-/

namespace Rtp2httpd
open CString

def dollar : UInt8 := UInt8.ofNat '$'.toNat
def colon : UInt8 := UInt8.ofNat ':'.toNat

/-! ### Finding placeholders -/

/-- Where a placeholder may begin: `${`, or a brace that is not behind a dollar. Its syntax, short without the dollar,
and what follows the brace. -/
def opening (prev : Option UInt8) : List UInt8 → Option (Bool × List UInt8)
  | [] => none
  | c :: rest =>
    if c = dollar ∧ rest.head? = some openBrace then some (false, rest.tail)
    else if c = openBrace ∧ prev ≠ some dollar then some (true, rest)
    else none

/-- `strchr(s, '}')`: what stands before the brace and what behind it. -/
def splitClosing (s : List UInt8) : Option (List UInt8 × List UInt8) :=
  match s.dropWhile (· ≠ closeBrace) with
  | [] => none
  | _ :: after => some (s.takeWhile (· ≠ closeBrace), after)

/-- `sizeof(inner)`, `sizeof(fmt)` and `sizeof(val)`. -/
def innerSize : Nat := 128

/-- A placeholder: its syntax and what stands between its braces. -/
structure Placeholder where
  isShortSyntax : Bool
  inner : List UInt8
deriving DecidableEq, Repr

def Placeholder.text (x : Placeholder) : List UInt8 :=
  (if x.isShortSyntax then [openBrace] else [dollar, openBrace]) ++ x.inner ++ [closeBrace]

/-- The placeholders that the loops of `template_substring_requirements` and `template_path_requirements` come to.
One that is not closed in the string is none, one that is too long is passed over. -/
def placeholdersLoop : Nat → Option UInt8 → List UInt8 → List Placeholder
  | 0, _, _ => []
  | _ + 1, _, [] => []
  | fuel + 1, prev, c :: rest =>
    match opening prev (c :: rest) with
    | none => placeholdersLoop fuel (some c) rest
    | some (isShortSyntax, innerStart) =>
      match splitClosing innerStart with
      | none => placeholdersLoop fuel (some c) rest
      | some (inner, after) =>
        if inner.length ≥ innerSize then placeholdersLoop fuel (some closeBrace) after
        else ⟨isShortSyntax, inner⟩ :: placeholdersLoop fuel (some closeBrace) after

def placeholdersIn (input : List UInt8) : List Placeholder := placeholdersLoop (input.length + 1) none input

/-! ### Analysis -/

structure TemplateFlags where
  hasTemplate : Bool := false
  hasBegin : Bool := false
  hasEnd : Bool := false
  needsBegin : Bool := false
  needsEnd : Bool := false
deriving DecidableEq, Repr

def TemplateFlags.or (a b : TemplateFlags) : TemplateFlags :=
  ⟨a.hasTemplate || b.hasTemplate, a.hasBegin || b.hasBegin, a.hasEnd || b.hasEnd, a.needsBegin || b.needsBegin,
    a.needsEnd || b.needsEnd⟩

/-- `(b)` or `(e)` at the beginning, and whether it is `(b)`. -/
def beginEnd : List UInt8 → Option Bool
  | c :: which :: d :: _ =>
    if c.toNat = '('.toNat ∧ d.toNat = ')'.toNat ∧ (which.toNat = 'b'.toNat ∨ which.toNat = 'e'.toNat) then
      some (which.toNat = 'b'.toNat)
    else none
  | _ => none

def longNames : List (List UInt8) := [str "yyyy", str "MM", str "dd", str "HH", str "mm", str "ss"]

def shortNames : List (List UInt8) := [str "Y", str "m", str "d", str "H", str "M", str "S"]

/-- What `classify_template_placeholder` says of a keyword, without the format behind its colon. -/
def keywordFlags (isShortSyntax : Bool) (normalized : List UInt8) : TemplateFlags :=
  if normalized = str "utc" ∨ normalized = str "start" ∨ longNames.contains normalized then
    { hasTemplate := true, hasBegin := true, needsBegin := true }
  else if normalized = str "utcend" ∨ normalized = str "end" then
    { hasTemplate := true, hasEnd := true, needsEnd := true }
  else if normalized = str "duration" then { hasTemplate := true, needsBegin := true, needsEnd := true }
  else if normalized = str "offset" then { hasTemplate := true, needsBegin := true }
  else if normalized = str "lutc" ∨ normalized = str "now" ∨ normalized = str "timestamp" then
    { hasTemplate := true }
  else if isShortSyntax ∧ shortNames.contains normalized then
    { hasTemplate := true, hasBegin := true, needsBegin := true }
  else {}

/-- `classify_template_placeholder`. -/
def classifyTemplatePlaceholder (x : Placeholder) : TemplateFlags :=
  match beginEnd x.inner with
  | some true => { hasTemplate := true, hasBegin := true, needsBegin := true }
  | some false => { hasTemplate := true, hasEnd := true, needsEnd := true }
  | none => keywordFlags x.isShortSyntax (x.inner.takeWhile (· ≠ colon))

def templateSubstringRequirements (input : List UInt8) : TemplateFlags :=
  (placeholdersIn input).foldl (fun flags x => flags.or (classifyTemplatePlaceholder x)) {}

/-- `URL_TEMPLATE_FRAGMENT_SIZE`. -/
def urlTemplateFragmentSize : Nat := 2048

/-- `sizeof(seek_param_name)`, and of the other buffers for names. -/
def paramNameSize : Nat := 128

/-- No result for -1, here and below. -/
def appendTemplateFragment (bufferSize : Nat) (buffer fragment : List UInt8) : Option (List UInt8) :=
  if buffer.length + fragment.length ≥ bufferSize then none else some (buffer ++ fragment)

def copyTemplateValue (bufferSize : Nat) (value : List UInt8) : Option (List UInt8) :=
  if value.length ≥ bufferSize then none else some value

/-- What `template_path_requirements` puts out. -/
structure PathRequirements where
  hasTemplate : Bool := false
  needsBegin : Bool := false
  needsEnd : Bool := false
  beginTemplate : List UInt8 := []
  endTemplate : List UInt8 := []
deriving DecidableEq, Repr

/-- A placeholder of the path. -/
def pathPlaceholder (r : PathRequirements) (x : Placeholder) : Option PathRequirements :=
  let flags := classifyTemplatePlaceholder x
  let r := { r with
    hasTemplate := r.hasTemplate || flags.hasTemplate
    needsBegin := r.needsBegin || flags.needsBegin
    needsEnd := r.needsEnd || flags.needsEnd }
  if flags.hasBegin then
    (appendTemplateFragment urlTemplateFragmentSize r.beginTemplate x.text).map fun t => { r with beginTemplate := t }
  else if flags.hasEnd then
    (appendTemplateFragment urlTemplateFragmentSize r.endTemplate x.text).map fun t => { r with endTemplate := t }
  else some r

def templatePathRequirements (url : List UInt8) : Option PathRequirements :=
  (placeholdersIn (url.takeWhile (· ≠ questionMark))).foldlM pathPlaceholder {}

/-- The loop of `find_template_range_separator`: what stands before the separator and what behind it. -/
def findTemplateRangeSeparator (left : List UInt8) : List UInt8 → Option (List UInt8 × List UInt8)
  | [] => none
  | c :: right =>
    if c = dash ∧ (templateSubstringRequirements left).hasBegin ∧ ¬ (templateSubstringRequirements left).hasEnd ∧
        (templateSubstringRequirements right).hasEnd then some (left, right)
    else findTemplateRangeSeparator (left ++ [c]) right

/-- What `template_query_requirements` puts out. -/
structure QueryRequirements where
  hasTemplate : Bool := false
  needsBegin : Bool := false
  needsEnd : Bool := false
  beginTemplate : List UInt8 := []
  endTemplate : List UInt8 := []
  queryParamName : List UInt8 := []
  queryParamHasRange : Bool := false
  explicitSeekName : List UInt8 := []
deriving DecidableEq, Repr

/-- `if (!buffer[0] && copy_template_value(buffer, ...) != 0) return -1;`. -/
def copyOnce (buffer value : List UInt8) : Option (List UInt8) :=
  if buffer = [] then copyTemplateValue urlTemplateFragmentSize value else some buffer

/-- A parameter of the query, by its name and its value. -/
def templateQueryParam (r : QueryRequirements) (name value : List UInt8) : Option QueryRequirements := do
  let explicitSeekName ←
    (if r.explicitSeekName = [] ∧ eqIgnoreCase name (str "r2h-seek-name") then copyTemplateValue paramNameSize value
    else some r.explicitSeekName)
  let flags := templateSubstringRequirements value
  let r := { r with
    explicitSeekName
    hasTemplate := r.hasTemplate || flags.hasTemplate
    needsBegin := r.needsBegin || flags.needsBegin
    needsEnd := r.needsEnd || flags.needsEnd }
  if flags.hasBegin ∧ flags.hasEnd then
    match findTemplateRangeSeparator [] value with
    | none => some r
    | some (left, right) =>
      let beginTemplate ← copyOnce r.beginTemplate left
      let endTemplate ← copyOnce r.endTemplate right
      let r := { r with beginTemplate, endTemplate }
      if r.queryParamName = [] then
        match copyTemplateValue paramNameSize name with
        | some queryParamName => some { r with queryParamName, queryParamHasRange := true }
        | none => some r
      else some r
  else if flags.hasBegin then do
    let beginTemplate ← copyOnce r.beginTemplate value
    some { r with beginTemplate }
  else if flags.hasEnd then do
    let endTemplate ← copyOnce r.endTemplate value
    some { r with endTemplate }
  else some r

/-- The loop of `template_query_requirements`. -/
def templateQueryLoop : Nat → List UInt8 → QueryRequirements → Option QueryRequirements
  | 0, _, r => some r
  | fuel + 1, paramStart, r =>
    if paramStart = [] then some r
    else
      let param := paramStart.takeWhile (· ≠ ampersand)
      let next := paramStart.dropWhile (· ≠ ampersand)
      let r := if equalSign ∉ param then some r
        else templateQueryParam r (param.takeWhile (· ≠ equalSign)) (param.dropWhile (· ≠ equalSign)).tail
      match next with
      | [] => r
      | _ :: paramStart => r.bind (templateQueryLoop fuel paramStart)

def templateQueryRequirements (url : List UInt8) : Option QueryRequirements :=
  match url.dropWhile (· ≠ questionMark) with
  | [] => some {}
  | _ :: query => templateQueryLoop (query.length + 1) query {}

def isSeekParamNameBuiltin (name : List UInt8) : Bool :=
  eqIgnoreCase name (str "playseek") || eqIgnoreCase name (str "tvdr")

/-- `copy_selected_seek_param_name`. -/
def selectedSeekParamName (queryParamName : List UInt8) (queryParamHasRange : Bool) (explicitSeekName : List UInt8) :
    Option (List UInt8) :=
  if ¬ queryParamHasRange ∨ queryParamName = [] then some []
  else if explicitSeekName ≠ [] then
    if ¬ eqIgnoreCase queryParamName explicitSeekName then some [] else copyTemplateValue paramNameSize queryParamName
  else if ¬ isSeekParamNameBuiltin queryParamName then some []
  else copyTemplateValue paramNameSize queryParamName

/-- `url_template_analysis_t`. -/
structure UrlTemplateAnalysis where
  hasTemplate : Bool
  needsBegin : Bool
  needsEnd : Bool
  beginTemplate : List UInt8
  endTemplate : List UInt8
  seekParamName : List UInt8
deriving DecidableEq, Repr

def urlTemplateAnalyze (url : List UInt8) : Option UrlTemplateAnalysis := do
  let path ← templatePathRequirements url
  let query ← templateQueryRequirements url
  let seekParamName ← selectedSeekParamName query.queryParamName query.queryParamHasRange query.explicitSeekName
  some {
    hasTemplate := path.hasTemplate || query.hasTemplate
    needsBegin := path.needsBegin || query.needsBegin
    needsEnd := path.needsEnd || query.needsEnd
    beginTemplate := if query.beginTemplate ≠ [] then query.beginTemplate else path.beginTemplate
    endTemplate := if query.endTemplate ≠ [] then query.endTemplate else path.endTemplate
    seekParamName }

end Rtp2httpd
