import DOpenWrt.Lib.CFormat

/-!
# Time strings (`timezone.c`)

`timezone_parse_to_utc` reads a time as seconds since the epoch: digits alone, the basic form of ISO 8601, or the
extended one. The parsers of the two ISO forms scan the fields with `sscanf` and then go on at a fixed offset of the
string.
-/

namespace Rtp2httpd
open CString

/-! ### `sscanf` and `timegm` -/

/-- The fields of a `struct tm` that are set. -/
structure Tm where
  year : Int
  mon : Int
  mday : Int
  hour : Int
  min : Int
  sec : Int
deriving DecidableEq, Repr

/-- The days of the year before a month, leap day not counted. -/
def daysBeforeMon : List Int := [0, 31, 59, 90, 120, 151, 181, 212, 243, 273, 304, 334]

/-- `timegm`: seconds since the epoch, months beyond the year carried into it. -/
def timegm (tm : Tm) : Int :=
  let year := tm.year + tm.mon / 12
  let mon := (tm.mon % 12).toNat
  let leap := (year + 1900) % 4 = 0 ∧ ((year + 1900) % 100 ≠ 0 ∨ (year + 1900) % 400 = 0)
  let yday := daysBeforeMon.getD mon 0 + (if 2 ≤ mon ∧ leap then 1 else 0) + tm.mday - 1
  let days := (year - 70) * 365 + (year - 69) / 4 - (year - 1) / 100 + (year + 299) / 400 + yday
  days * 86400 + tm.hour * 3600 + tm.min * 60 + tm.sec

/-- `gmtime`: the calendar is counted from the first of March of the year 0, in eras of 400 years. -/
def gmtime (timestamp : Int) : Tm :=
  let z := timestamp / 86400 + 719468
  let era := z / 146097
  let dayOfEra := z % 146097
  let yearOfEra := (dayOfEra - dayOfEra / 1460 + dayOfEra / 36524 - dayOfEra / 146096) / 365
  let dayOfYear := dayOfEra - (365 * yearOfEra + yearOfEra / 4 - yearOfEra / 100)
  let fromMarch := (5 * dayOfYear + 2) / 153
  let mon := if fromMarch < 10 then fromMarch + 2 else fromMarch - 10
  let secOfDay := timestamp % 86400
  { year := yearOfEra + era * 400 + (if mon ≤ 1 then 1 else 0) - 1900
    mon := mon
    mday := dayOfYear - (153 * fromMarch + 2) / 5 + 1
    hour := secOfDay / 3600
    min := secOfDay / 60 % 60
    sec := secOfDay % 60 }

/-! ### Reading a string -/

/-- A read behind the terminator. -/
inductive StringFault where
  | pastTerminator
deriving DecidableEq, Repr

/-- `s[i]`, for a string with its terminator. -/
def charAt (s : List UInt8) (i : Nat) : Except StringFault UInt8 :=
  if i ≤ s.length then .ok (s.getD i 0) else .error .pastTerminator

/-- The string `s + i`, for a function that reads it up to its terminator. -/
def strAt (s : List UInt8) (i : Nat) : Except StringFault (List UInt8) :=
  if i ≤ s.length then .ok (s.drop i) else .error .pastTerminator

/-! ### The two ISO forms -/

/-- What the parsers put out. The basic form has no milliseconds. -/
structure IsoTime where
  tm : Tm
  milliseconds : Int
  hasTimezone : Bool
  timezoneOffset : Int
  timezoneSuffix : List UInt8
deriving DecidableEq, Repr

/-- The fields as they are scanned. -/
structure DateTime where
  year : Int
  month : Int
  day : Int
  hour : Int
  min : Int
  sec : Int
deriving DecidableEq, Repr

/-- The checks on the fields. -/
def DateTime.Valid (t : DateTime) : Prop :=
  (1900 ≤ t.year ∧ t.year ≤ 9999) ∧ (1 ≤ t.month ∧ t.month ≤ 12) ∧ (1 ≤ t.day ∧ t.day ≤ 31) ∧
    (0 ≤ t.hour ∧ t.hour ≤ 23) ∧ (0 ≤ t.min ∧ t.min ≤ 59) ∧ (0 ≤ t.sec ∧ t.sec ≤ 60)

instance DateTime.decidableValid (t : DateTime) : Decidable t.Valid := inferInstanceAs (Decidable (_ ∧ _))

def DateTime.tm (t : DateTime) : Tm := ⟨t.year - 1900, t.month - 1, t.day, t.hour, t.min, t.sec⟩

def twoDigits (n : Nat) : List UInt8 := [UInt8.ofNat (48 + n / 10), UInt8.ofNat (48 + n % 10)]

/-- `"%02d"` of a number of at most two characters. -/
def printTwo (n : Int) : List UInt8 := if n < 0 then [UInt8.ofNat '-'.toNat, UInt8.ofNat (48 + n.natAbs)] else
  twoDigits n.toNat

/-- `"%c%02d:%02d"`. -/
def offsetSuffix (sign : UInt8) (hours minutes : Int) : List UInt8 :=
  sign :: printTwo hours ++ str ":" ++ printTwo minutes

def signOf (c : UInt8) : Int := if c.toNat = '+'.toNat then 1 else -1

/-- `"%4d-%2d-%2dT%2d:%2d:%2d"`. -/
def scanIso8601 (s : List UInt8) : Option DateTime := do
  let (year, s) ← scanInt 4 s
  let s ← scanLit '-' s
  let (month, s) ← scanInt 2 s
  let s ← scanLit '-' s
  let (day, s) ← scanInt 2 s
  let s ← scanLit 'T' s
  let (hour, s) ← scanInt 2 s
  let s ← scanLit ':' s
  let (min, s) ← scanInt 2 s
  let s ← scanLit ':' s
  let (sec, _) ← scanInt 2 s
  some ⟨year, month, day, hour, min, sec⟩

/-- `"%4d%2d%2dT%2d%2d%2d"`. -/
def scanBasicIso8601 (s : List UInt8) : Option DateTime := do
  let (year, s) ← scanInt 4 s
  let (month, s) ← scanInt 2 s
  let (day, s) ← scanInt 2 s
  let s ← scanLit 'T' s
  let (hour, s) ← scanInt 2 s
  let (min, s) ← scanInt 2 s
  let (sec, _) ← scanInt 2 s
  some ⟨year, month, day, hour, min, sec⟩

/-- `"%<width>d:%2d"`. -/
def scanColonOffset (width : Nat) (s : List UInt8) : Option (Int × Int) := do
  let (tzHours, s) ← scanInt width s
  let s ← scanLit ':' s
  let (tzMinutes, _) ← scanInt 2 s
  some (tzHours, tzMinutes)

/-- `"%3d%c%2d"`. -/
def scanCharOffset (s : List UInt8) : Option (Int × Int) := do
  let (tzHours, s) ← scanInt 3 s
  let (_, s) ← scanChar s
  let (tzMinutes, _) ← scanInt 2 s
  some (tzHours, tzMinutes)

/-- The fraction of the seconds, if `c`, the character at 19, begins one: the milliseconds, and where it ends. -/
def isoFraction (isoStr : List UInt8) (c : UInt8) : Except StringFault (Int × Nat) :=
  if c.toNat = '.'.toNat then
    (strAt isoStr 20).map fun s =>
      match scanInt 3 s with
      | none => (-1, 20)
      | some (msValue, rest) =>
        let msDigits := s.length - rest.length
        (if msDigits = 1 then msValue * 100 else if msDigits = 2 then msValue * 10 else msValue, 20 + msDigits)
  else .ok (-1, 19)

/-- The time zone at `p`, where `c` stands: whether there is one, its offset and its suffix. No result for -1. -/
def isoTimezone (isoStr : List UInt8) (p : Nat) (c : UInt8) :
    Except StringFault (Option (Bool × Int × List UInt8)) :=
  if c.toNat = 'Z'.toNat then .ok (some (true, 0, str "Z"))
  else if isSign c then
    (strAt isoStr p).map fun s =>
      match (scanColonOffset 3 s).or (scanCharOffset s) with
      | none => none
      | some (tzHours, tzMinutes) =>
        if tzHours.natAbs > 14 ∨ tzMinutes < 0 ∨ tzMinutes > 59 then none
        else some (true, signOf c * (tzHours.natAbs * 3600 + tzMinutes * 60),
          offsetSuffix c tzHours.natAbs tzMinutes)
  else .ok (if c = 0 then some (false, 0, []) else none)

/-- No result for -1. -/
def timezoneParseIso8601 (isoStr : List UInt8) (suffixSize : Nat) : Except StringFault (Option IsoTime) :=
  if suffixSize < 7 then .ok none
  else if UInt8.ofNat 'T'.toNat ∉ isoStr then .ok none
  else match scanIso8601 isoStr with
    | none => .ok none
    | some t =>
      if ¬ t.Valid then .ok none
      else do
        -- the fields are taken to be 19 characters
        let c ← charAt isoStr 19
        let (milliseconds, p) ← isoFraction isoStr c
        let c ← charAt isoStr p
        let timezone ← isoTimezone isoStr p c
        .ok (timezone.map fun (hasTimezone, timezoneOffset, tzSuffix) =>
          ⟨t.tm, milliseconds, hasTimezone, timezoneOffset, tzSuffix.take (suffixSize - 1)⟩)

/-- `is_basic_iso8601_format`. -/
def isBasicIso8601Format (s : List UInt8) : Bool :=
  15 ≤ s.length ∧ s[8]? = some (UInt8.ofNat 'T'.toNat) ∧ (s.take 8).all isdigit ∧ ((s.drop 9).take 6).all isdigit

/-- The time zone at 15, where `c` stands. -/
def basicTimezone (isoStr : List UInt8) (c : UInt8) : Except StringFault (Option (Bool × Int × List UInt8)) :=
  if c.toNat = 'Z'.toNat then .ok (some (true, 0, str "Z"))
  else if isSign c then
    (strAt isoStr 16).map fun s =>
      match scanColonOffset 2 s with
      | none => none
      | some (tzHours, tzMinutes) =>
        if tzHours > 14 ∨ tzMinutes < 0 ∨ tzMinutes > 59 then none
        else some (true, signOf c * (tzHours * 3600 + tzMinutes * 60), offsetSuffix c tzHours tzMinutes)
  else .ok (if c = 0 then some (false, 0, []) else none)

/-- No result for -1. -/
def timezoneParseBasicIso8601 (isoStr : List UInt8) (suffixSize : Nat) : Except StringFault (Option IsoTime) :=
  if suffixSize < 7 then .ok none
  else match scanBasicIso8601 isoStr with
    | none => .ok none
    | some t =>
      if ¬ t.Valid then .ok none
      else do
        let c ← charAt isoStr 15
        let timezone ← basicTimezone isoStr c
        .ok (timezone.map fun (hasTimezone, timezoneOffset, tzSuffix) =>
          ⟨t.tm, -1, hasTimezone, timezoneOffset, tzSuffix.take (suffixSize - 1)⟩)

/-! ### Seconds since the epoch -/

def scanDigits14 (s : List UInt8) : Option DateTime := do
  let (year, s) ← scanInt 4 s
  let (month, s) ← scanInt 2 s
  let (day, s) ← scanInt 2 s
  let (hour, s) ← scanInt 2 s
  let (min, s) ← scanInt 2 s
  let (sec, _) ← scanInt 2 s
  some ⟨year, month, day, hour, min, sec⟩

/-- `timegm`, whose -1 is taken for a failure, and the two shifts; `offset` is what the string or the caller says of
the time zone. -/
def toUtc (tm : Tm) (offset additionalOffsetSeconds : Int) : Option Int :=
  if timegm tm = -1 then none else some (timegm tm - offset + additionalOffsetSeconds)

/-- The size of `timezone_suffix` in `timezone_parse_to_utc`. -/
def timezoneSuffixSize : Nat := 16

def IsoTime.toUtc (t : IsoTime) (tzOffsetSeconds additionalOffsetSeconds : Int) : Option Int :=
  Rtp2httpd.toUtc t.tm (if t.hasTimezone then t.timezoneOffset else tzOffsetSeconds) additionalOffsetSeconds

/-- No result for -1. -/
def timezoneParseToUtc (inputTime : List UInt8) (tzOffsetSeconds additionalOffsetSeconds : Int) :
    Except StringFault (Option Int) :=
  let inputLen := inputTime.length
  let digitCount := (inputTime.takeWhile isdigit).length
  if inputLen ≤ 10 ∧ digitCount = inputLen then .ok (some (digitsVal inputTime + additionalOffsetSeconds))
  else if (inputLen = 14 ∧ digitCount = 14) ∨ (inputLen = 17 ∧ digitCount = 14 ∧ inputTime.drop 14 = str "GMT") then
    .ok ((scanDigits14 inputTime).bind fun t =>
      toUtc t.tm (if inputLen = 17 then 0 else tzOffsetSeconds) additionalOffsetSeconds)
  else if isBasicIso8601Format inputTime then
    (timezoneParseBasicIso8601 inputTime timezoneSuffixSize).map
      (·.bind (·.toUtc tzOffsetSeconds additionalOffsetSeconds))
  else if UInt8.ofNat 'T'.toNat ∈ inputTime then
    (timezoneParseIso8601 inputTime timezoneSuffixSize).map (·.bind (·.toUtc tzOffsetSeconds additionalOffsetSeconds))
  else .ok none

example : timezoneParseToUtc (str "2024-01-01T12:00:00Z") 3600 0 = .ok (some 1704110400) := by decide +kernel

end Rtp2httpd
