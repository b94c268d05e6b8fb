import DOpenWrt.Rtp2httpd.UrlTemplate

/-!
# Rendering URL templates (`url_template.c`)

`render_template_url` writes out the URL with its placeholders replaced by the times of a seek. A time that the seek
does not provide, or a text that does not fit its buffer, fails the rendering.
-/

namespace Rtp2httpd
open CString

/-- The times of a `seek_parse_result_t`; none for one that was not parsed. -/
structure SeekTimes where
  nowUtc : Int
  tzOffsetSeconds : Int
  beginUtc : Option Int
  endUtc : Option Int
deriving DecidableEq, Repr

/-- Why rendering fails; -1 for all of them. -/
inductive RenderError where
  | noBegin | noEnd | tooLong
deriving DecidableEq, Repr

/-! ### Numbers and times -/

def timezoneFormatTimeIso8601 (tm : Tm) (milliseconds : Int) (timezoneSuffix : List UInt8) (outputSize : Nat) :
    Option (List UInt8) :=
  if outputSize < 30 ∨ milliseconds < -1 ∨ milliseconds > 999 then none
  else
    let base := printPadded 4 (tm.year + 1900) ++ str "-" ++ printPadded 2 (tm.mon + 1) ++ str "-" ++
      printPadded 2 tm.mday ++ str "T" ++ printPadded 2 tm.hour ++ str ":" ++ printPadded 2 tm.min ++ str ":" ++
      printPadded 2 tm.sec
    let written := base ++ (if milliseconds ≥ 0 then str "." ++ printPadded 3 milliseconds else []) ++ timezoneSuffix
    if written.length ≥ outputSize then none else some written

def getTmComponent (t : Tm) : Nat → Int
  | 0 => t.year + 1900
  | 1 => t.mon + 1
  | 2 => t.mday
  | 3 => t.hour
  | 4 => t.min
  | 5 => t.sec
  | _ => -1

/-- `time_components`, of which one column is used. -/
def componentNames (useShort : Bool) : List (List UInt8) := if useShort then shortNames else longNames

def printComponent (t : Tm) (i : Nat) : List UInt8 := printPadded (if i = 0 then 4 else 2) (getTmComponent t i)

/-- The component whose name the pattern goes on with, and the rest of the pattern. -/
def matchComponent (useShort : Bool) (p : List UInt8) : Option (Nat × List UInt8) :=
  (componentNames useShort).zipIdx.findSome? fun (name, i) =>
    if startsWith name p then some (i, p.drop name.length) else none

/-- The loop of `format_time_by_pattern` at `p`. No result for -1. -/
def formatTimeLoop (t : Tm) (useShort : Bool) (outputSize : Nat) : Nat → List UInt8 → List UInt8 → Option (List UInt8)
  | 0, _, output => some output
  | _ + 1, [], output => some output
  | fuel + 1, c :: p, output =>
    if output.length ≥ outputSize - 1 then some output
    else match matchComponent useShort (c :: p) with
      | some (i, rest) =>
        if (printComponent t i).length ≥ outputSize - output.length then none
        else formatTimeLoop t useShort outputSize fuel rest (output ++ printComponent t i)
      | none => formatTimeLoop t useShort outputSize fuel p (output ++ [c])

def formatTimeByPattern (t : Tm) (fmt : List UInt8) (useShort : Bool) (outputSize : Nat) : Option (List UInt8) :=
  match formatTimeLoop t useShort outputSize (fmt.length + 1) fmt [] with
  | none => none
  | some output => if output.length ≥ outputSize then none else some output

/-- The value, or that it does not fit. -/
def fitsValue (value : Option (List UInt8)) : Except RenderError (List UInt8) :=
  match value with
  | some value => .ok value
  | none => .error .tooLong

/-- `snprintf(val, val_size, "%lld", n)`. -/
def printValue (n : Int) : Option (List UInt8) := if (printInt n).length ≥ innerSize then none else some (printInt n)

/-! ### Placeholders -/

def renderBeFormat (fmt : List UInt8) (isBegin useShort : Bool) (ctx : SeekTimes) : Except RenderError (List UInt8) :=
  match if isBegin then ctx.beginUtc else ctx.endUtc with
  | none => .error (if isBegin then .noBegin else .noEnd)
  | some epoch =>
    if fmt = [] then fitsValue (timezoneFormatTimeIso8601 (gmtime epoch) 0 (str "Z") innerSize)
    else if fmt = str "timestamp" then fitsValue (printValue epoch)
    else if 4 ≤ fmt.length ∧ fmt.drop (fmt.length - 4) = str "|UTC" then
      fitsValue (formatTimeByPattern (gmtime epoch) (fmt.take (fmt.length - 4)) useShort innerSize)
    else fitsValue (formatTimeByPattern (gmtime (epoch + ctx.tzOffsetSeconds)) fmt useShort innerSize)

/-- `if (!ctx->begin_parsed) return -1;` and what is done with the time. -/
def withBegin (ctx : SeekTimes) (render : Int → Option (List UInt8)) : Except RenderError (Option (List UInt8)) :=
  match ctx.beginUtc with
  | none => .error .noBegin
  | some beginUtc => (fitsValue (render beginUtc)).map some

def withEnd (ctx : SeekTimes) (render : Int → Option (List UInt8)) : Except RenderError (Option (List UInt8)) :=
  match ctx.endUtc with
  | none => .error .noEnd
  | some endUtc => (fitsValue (render endUtc)).map some

/-- No value where the keyword is not known. -/
def renderKeyword (inner : List UInt8) (useShort : Bool) (ctx : SeekTimes) :
    Except RenderError (Option (List UInt8)) :=
  if colon ∈ inner then
    let buf := inner.takeWhile (· ≠ colon)
    let fmt := (inner.dropWhile (· ≠ colon)).tail
    let format := fun timestamp => formatTimeByPattern (gmtime timestamp) fmt useShort innerSize
    if buf = str "utc" ∨ buf = str "start" then withBegin ctx format
    else if buf = str "utcend" ∨ buf = str "end" then withEnd ctx format
    else if buf = str "lutc" ∨ buf = str "now" ∨ buf = str "timestamp" then
      (fitsValue (format ctx.nowUtc)).map some
    else .ok none
  else
    let iso := fun timestamp => timezoneFormatTimeIso8601 (gmtime timestamp) 0 (str "Z") innerSize
    if inner = str "utc" ∨ inner = str "start" then withBegin ctx iso
    else if inner = str "utcend" ∨ inner = str "end" then withEnd ctx iso
    else if inner = str "lutc" ∨ inner = str "now" then (fitsValue (iso ctx.nowUtc)).map some
    else if inner = str "timestamp" then (fitsValue (printValue ctx.nowUtc)).map some
    else if inner = str "duration" then
      match ctx.beginUtc with
      | none => .error .noBegin
      | some beginUtc => withEnd ctx fun endUtc => printValue (endUtc - beginUtc)
    else if inner = str "offset" then withBegin ctx fun beginUtc => printValue (ctx.nowUtc - beginUtc)
    else match (componentNames useShort).findIdx? (· = inner) with
      | some i => withBegin ctx fun beginUtc =>
        let value := printComponent (gmtime beginUtc) i
        if value.length ≥ innerSize then none else some value
      | none => .ok none

/-- `render_placeholder`, from behind the opening brace: the value and what follows the placeholder, none where the
text is not one. -/
def renderPlaceholder (innerStart : List UInt8) (useShort : Bool) (ctx : SeekTimes) :
    Except RenderError (Option (List UInt8 × List UInt8)) :=
  match beginEnd innerStart, splitClosing (innerStart.drop 3) with
  | some isBegin, some (fmt, after) =>
    if fmt.length ≥ innerSize then .error .tooLong
    else (renderBeFormat fmt isBegin useShort ctx).map fun value => some (value, after)
  | _, _ =>
    match splitClosing innerStart with
    | none => .ok none
    | some (inner, after) =>
      if inner.length ≥ innerSize then .error .tooLong
      else (renderKeyword inner useShort ctx).map fun value => value.map (·, after)

/-- The loop of `render_template_url` at `p`, which follows `prev`, with the output so far. -/
def renderTemplateLoop (ctx : SeekTimes) :
    Nat → Option UInt8 → List UInt8 → List UInt8 → Except RenderError (List UInt8)
  | 0, _, _, output => .ok output
  | _ + 1, _, [], output => .ok output
  | fuel + 1, prev, c :: rest, output =>
    match opening prev (c :: rest) with
    | none => renderTemplateLoop ctx fuel (some c) rest (output ++ [c])
    | some (useShort, innerStart) =>
      match renderPlaceholder innerStart useShort ctx with
      | .error e => .error e
      | .ok (some (value, after)) => renderTemplateLoop ctx fuel (some closeBrace) after (output ++ value)
      | .ok none => renderTemplateLoop ctx fuel (some c) rest (output ++ [c])

/-- `render_template_url` into a buffer that is large enough. -/
def renderTemplateUrl (url : List UInt8) (ctx : SeekTimes) : Except RenderError (List UInt8) :=
  renderTemplateLoop ctx (url.length + 1) none url []

example : renderTemplateUrl (str "/live/$\x7b(b)yyyyMMdd|UTC\x7d?t=\x7bduration\x7d")
    ⟨0, 0, some 1704110400, some 1704110460⟩ = .ok (str "/live/20240101?t=60") := by decide +kernel

end Rtp2httpd
