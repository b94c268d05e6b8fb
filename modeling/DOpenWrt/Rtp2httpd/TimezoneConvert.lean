import DOpenWrt.Rtp2httpd.Gmtime
import DOpenWrt.Rtp2httpd.M3uNames
import DOpenWrt.Rtp2httpd.TimezoneScan
import DOpenWrt.Rtp2httpd.UrlTemplateRender

/-!
# Converting time strings (`timezone.c`)

`timezone_convert_time_with_offset` moves a time and writes it out in its own form. What it writes need not be read
back by `timezone_parse_to_utc`: the second before the epoch looks like a failure of `timegm`, and the moved time may
be of a year that the form does not have.
-/

namespace Rtp2httpd
open CString

/-! ### The source -/

/-- `timezone_format_time_yyyyMMddHHmmss`. -/
def timezoneFormatTimeYyyyMMddHHmmss (utcTime : Tm) (outputSize : Nat) : Option (List UInt8) :=
  if outputSize < 15 then none
  else
    let written := printPadded 4 (utcTime.year + 1900) ++ printPadded 2 (utcTime.mon + 1) ++
      printPadded 2 utcTime.mday ++ printPadded 2 utcTime.hour ++ printPadded 2 utcTime.min ++ printPadded 2 utcTime.sec
    if written.length ≥ outputSize then none else some written

/-- The size of `temp_time` and `basic_time`. -/
def tempTimeSize : Nat := 32

/-- No result for -1. -/
def timezoneConvertIso8601WithOffset (isoStr : List UInt8) (externalTzOffset offsetSeconds : Int) (outputSize : Nat) :
    Except StringFault (Option (List UInt8)) :=
  if outputSize < 30 then .ok none
  else (timezoneParseIso8601 isoStr timezoneSuffixSize).map (·.bind fun t =>
    -- an embedded time zone is kept, and not applied
    (toUtc t.tm (if t.hasTimezone then 0 else externalTzOffset) offsetSeconds).bind fun timestamp =>
      timezoneFormatTimeIso8601 (gmtime timestamp) t.milliseconds t.timezoneSuffix outputSize)

/-- `strncpy` or `snprintf` to a buffer. -/
def copyTo (outputSize : Nat) (s : List UInt8) : List UInt8 := s.take (outputSize - 1)

/-- No result for -1. -/
def timezoneConvertTimeWithOffset (inputTime : List UInt8) (tzOffsetSeconds additionalOffsetSeconds : Int)
    (outputSize : Nat) : Except StringFault (Option (List UInt8)) :=
  let inputLen := inputTime.length
  let digitCount := (inputTime.takeWhile isdigit).length
  if outputSize < 64 then .ok none
  else if tzOffsetSeconds < -12 * 3600 ∨ tzOffsetSeconds > 14 * 3600 then .ok none
  else if inputLen ≤ 10 ∧ digitCount = inputLen then
    .ok (some (copyTo outputSize (printInt (digitsVal inputTime + additionalOffsetSeconds))))
  else if (inputLen = 14 ∧ digitCount = 14) ∨ (inputLen = 17 ∧ digitCount = 14 ∧ inputTime.drop 14 = str "GMT") then
    .ok ((scanDigits14 inputTime).bind fun t =>
      if ¬ t.Valid then none
      else (toUtc t.tm (if inputLen = 17 then 0 else tzOffsetSeconds) additionalOffsetSeconds).bind fun timestamp =>
        (timezoneFormatTimeYyyyMMddHHmmss (gmtime timestamp) tempTimeSize).map fun tempTime =>
          copyTo outputSize (if inputLen = 17 then tempTime ++ str "GMT" else tempTime))
  else if isBasicIso8601Format inputTime then
    (timezoneParseBasicIso8601 inputTime timezoneSuffixSize).map (·.bind fun t =>
      (toUtc t.tm (if t.hasTimezone then 0 else tzOffsetSeconds) additionalOffsetSeconds).bind fun timestamp =>
        (timezoneFormatTimeYyyyMMddHHmmss (gmtime timestamp) tempTimeSize).bind fun basicTime =>
          let written := basicTime.take 8 ++ str "T" ++ basicTime.drop 8 ++ t.timezoneSuffix
          if written.length ≥ outputSize then none else some written)
  else if UInt8.ofNat 'T'.toNat ∈ inputTime then
    timezoneConvertIso8601WithOffset inputTime tzOffsetSeconds additionalOffsetSeconds outputSize
  else .ok (some (copyTo outputSize inputTime))

example : timezoneConvertTimeWithOffset (str "2024-01-01T20:00:00.5+08:00") 3600 60 64 =
    .ok (some (str "2024-01-01T20:01:00.500+08:00")) := by decide +kernel

/-! ### Printed numbers -/

section
variable {n w : Nat}

theorem printPadded_two (h : n < 100) : printPadded 2 (n : Int) = twoDigits n :=
  digits_ext isdigit_printPadded (twoDigits_isdigit h) (length_printPadded (by decide) h)
    ((digitsVal_printPadded 2 n).trans (digitsVal_twoDigits h).symm)

theorem printPadded_four (h : n < 10000) : printPadded 4 (n : Int) = fourDigits n :=
  digits_ext isdigit_printPadded (fourDigits_isdigit h) (length_printPadded (by decide) h)
    ((digitsVal_printPadded 4 n).trans (digitsVal_fourDigits h).symm)

/-- A year of five digits begins with four that are no year. -/
theorem printPadded_five (h : 10000 ≤ n) (hn : n < 19000) : ∃ ds d, printPadded 4 (n : Int) = ds ++ [d] ∧ ds.length = 4 ∧
    (∀ c ∈ ds, isdigit c = true) ∧ isdigit d = true ∧ digitsVal ds < 1900 := by
  have hlong : ¬ (decimal n).length ≤ 4 := fun hle => by
    have := (length_decimal_le_iff (by decide)).1 hle
    omega
  have hlen : (decimal (n / 10)).length ≤ 4 := (length_decimal_le_iff (by decide)).2 (by omega)
  have hstep := decimal_step (show 10 ≤ n by omega)
  refine ⟨decimal (n / 10), UInt8.ofNat (48 + n % 10), ?_, ?_, fun c hc => mem_decimal hc, isdigit_ofNat (by omega), ?_⟩
  · rw [printPadded_nat, show 4 - (decimal n).length = 0 by omega, List.replicate_zero, List.nil_append, hstep]
  · have := congrArg List.length hstep
    rw [List.length_append, List.length_singleton] at this
    omega
  · rw [digitsVal_decimal]
    omega

end

/-! ### Written time zones -/

/-- What is written of a time zone: whether there is one, its offset and its suffix, with hours from `low` on. -/
inductive WrittenZone (low : Int) : Bool → Int → List UInt8 → Prop
  | none : WrittenZone low false 0 []
  | utc : WrittenZone low true 0 (str "Z")
  | offset {c : UInt8} {hours minutes : Int} : isSign c = true → low ≤ hours ∧ hours ≤ 14 → 0 ≤ minutes ∧ minutes ≤ 59 →
    WrittenZone low true (signOf c * (hours * 3600 + minutes * 60)) (offsetSuffix c hours minutes)

section
variable {isoStr sfx : List UInt8} {p : Nat} {c : UInt8} {has : Bool} {offset low : Int}

theorem length_printTwo {n : Int} : (printTwo n).length = 2 := by
  unfold printTwo
  split <;> rfl

theorem length_offsetSuffix {hours minutes : Int} : (offsetSuffix c hours minutes).length = 6 := by
  simp [offsetSuffix, length_printTwo, str]

theorem WrittenZone.length_le (h : WrittenZone low has offset sfx) : sfx.length ≤ 6 := by
  cases h with
  | none => exact Nat.zero_le 6
  | utc => exact Nat.le_of_ble_eq_true rfl
  | offset => exact length_offsetSuffix.le

theorem isoTimezone_written (h : isoTimezone isoStr p c = .ok (some (has, offset, sfx))) :
    WrittenZone 0 has offset sfx := by
  unfold isoTimezone at h
  split_ifs at h with hZ hsign hnul
  · cases h
    exact .utc
  · unfold strAt at h
    split_ifs at h
    · dsimp only [Except.map] at h
      split at h
      · cases h
      · split_ifs at h
        · cases h
        · simp only [Except.ok.injEq, Option.some.injEq, Prod.mk.injEq] at h
          obtain ⟨rfl, rfl, rfl⟩ := h
          refine .offset hsign ?_ ?_ <;> omega
    · cases h
  · cases h
    exact .none
  · cases h

theorem basicTimezone_written (h : basicTimezone isoStr c = .ok (some (has, offset, sfx))) :
    WrittenZone (-9) has offset sfx := by
  unfold basicTimezone at h
  split_ifs at h with hZ hsign hnul
  · cases h
    exact .utc
  · unfold strAt at h
    split_ifs at h
    · dsimp only [Except.map] at h
      split at h
      · cases h
      · next tzHours tzMinutes hscan =>
        rw [scanColonOffset] at hscan
        simp only [Option.bind_eq_bind, Option.bind_eq_some_iff] at hscan
        obtain ⟨⟨hours, rest⟩, hhours, s, -, ⟨minutes, rest'⟩, -, heq⟩ := hscan
        obtain ⟨rfl, rfl⟩ := Prod.mk.inj (Option.some.inj heq)
        have hbounds := scanInt_two_bounds hhours
        split_ifs at h
        · cases h
        · simp only [Except.ok.injEq, Option.some.injEq, Prod.mk.injEq] at h
          obtain ⟨rfl, rfl, rfl⟩ := h
          refine .offset hsign ?_ ?_ <;> omega
    · cases h
  · cases h
    exact .none
  · cases h

theorem scanInt_printTwo {n : Int} (h0 : -9 ≤ n) (h1 : n ≤ 99) (rest : List UInt8) :
    scanInt 2 (printTwo n ++ rest) = some (n, rest) := by
  unfold printTwo
  split_ifs with hneg
  · obtain ⟨k, hk⟩ := Int.eq_ofNat_of_zero_le (show 0 ≤ -n by omega)
    have habs : n.natAbs = k := by omega
    have hdigit : isdigit (UInt8.ofNat (48 + k)) = true := isdigit_ofNat (by omega)
    have htake : ((UInt8.ofNat (48 + k) :: rest).take 1).takeWhile isdigit = [UInt8.ofNat (48 + k)] := by
      rw [List.take_succ_cons, List.take_zero, List.takeWhile_cons_of_pos hdigit]
      rfl
    have hval : digitsVal [UInt8.ofNat (48 + k)] = k := by
      rw [digitsVal, List.foldl_cons, List.foldl_nil, toNat_ofNat_digit (by omega), Nat.zero_mul, Nat.zero_add]
      exact Nat.add_sub_cancel_left ..
    rw [habs]
    unfold scanInt
    rw [show scanSign 2 (([UInt8.ofNat '-'.toNat, UInt8.ofNat (48 + k)] ++ rest).dropWhile isspace) =
      (true, 1, UInt8.ofNat (48 + k) :: rest) from rfl]
    dsimp only
    rw [htake, if_neg (List.cons_ne_nil _ _), hval, if_pos rfl, ← hk, Int.neg_neg]
    rfl
  · obtain ⟨k, rfl⟩ := Int.eq_ofNat_of_zero_le (show 0 ≤ n by omega)
    exact scanInt_two (by omega) rest

theorem signText_of_isSign (h : isSign c = true) : ∃ negative, [c] = signText negative ∧
    signOf c = if negative then -1 else 1 := by
  rcases of_decide_eq_true h with hplus | hminus
  · obtain rfl : c = UInt8.ofNat '+'.toNat := UInt8.toNat_inj.1 hplus
    exact ⟨false, rfl, rfl⟩
  · obtain rfl : c = UInt8.ofNat '-'.toNat := UInt8.toNat_inj.1 hminus
    exact ⟨true, rfl, rfl⟩

theorem not_Z_of_isSign (h : isSign c = true) : c.toNat ≠ 'Z'.toNat := by
  have hZ : 'Z'.toNat = 90 := rfl
  have hplus : '+'.toNat = 43 := rfl
  have hminus : '-'.toNat = 45 := rfl
  have := of_decide_eq_true h
  omega

theorem getD_of_drop_nil (hs : isoStr.drop p = []) : isoStr.getD p 0 = 0 := by
  rw [List.getD_eq_getElem?_getD, List.getElem?_eq_none (by simpa using hs)]
  rfl

/-- What the extended parser wrote it reads back. -/
theorem isoTimezone_reads (h : WrittenZone 0 has offset sfx) (hp : p ≤ isoStr.length) (hs : isoStr.drop p = sfx) :
    isoTimezone isoStr p (isoStr.getD p 0) = .ok (some (has, offset, sfx)) := by
  cases h with
  | none =>
    rw [getD_of_drop_nil hs]
    rfl
  | utc =>
    rw [getD_of_drop hs]
    rfl
  | @offset c hours minutes hsign hhours hminutes =>
    obtain ⟨h, rfl⟩ := Int.eq_ofNat_of_zero_le hhours.1
    obtain ⟨m, rfl⟩ := Int.eq_ofNat_of_zero_le hminutes.1
    obtain ⟨negative, hc, hval⟩ := signText_of_isSign hsign
    have htext : offsetSuffix c (h : Int) (m : Int) = signText negative ++ (twoDigits h ++ (str ":" ++ twoDigits m)) := by
      rw [← hc, offsetSuffix, printTwo, printTwo, if_neg (by omega), if_neg (by omega), Int.toNat_natCast,
        Int.toNat_natCast]
      simp only [List.cons_append, List.append_assoc]
      rfl
    rw [getD_of_drop hs]
    unfold isoTimezone
    rw [if_neg (not_Z_of_isSign hsign), if_pos hsign, strAt_ok hp, hs, Except.map, htext,
      scanColonOffset_colon negative (by omega) (by omega), ← htext]
    dsimp only [Option.or]
    have habs : ((if negative then -(h : Int) else h).natAbs) = h := by cases negative <;> simp
    rw [habs, if_neg (by omega)]

/-- What the basic parser wrote it reads back. -/
theorem basicTimezone_reads (h : WrittenZone (-9) has offset sfx) (hs : isoStr.drop 15 = sfx) :
    basicTimezone isoStr (isoStr.getD 15 0) = .ok (some (has, offset, sfx)) := by
  cases h with
  | none =>
    rw [getD_of_drop_nil hs]
    rfl
  | utc =>
    rw [getD_of_drop hs]
    rfl
  | @offset c hours minutes hsign hhours hminutes =>
    have hrest : isoStr.drop 16 = printTwo hours ++ (str ":" ++ printTwo minutes) := by
      rw [← List.drop_drop (i := 1) (j := 15), hs, offsetSuffix]
      simp only [List.cons_append, List.append_assoc]
      rfl
    have hlen : 16 ≤ isoStr.length := by
      have := congrArg List.length hs
      rw [List.length_drop, length_offsetSuffix] at this
      omega
    have hmin := scanInt_printTwo (by omega) (show minutes ≤ 99 by omega) []
    rw [List.append_nil] at hmin
    rw [getD_of_drop hs]
    unfold basicTimezone scanColonOffset
    rw [if_neg (not_Z_of_isSign hsign), if_pos hsign, strAt_ok hlen, hrest, Except.map]
    simp only [scanInt_printTwo hhours.1 (show hours ≤ 99 by omega), scanLit_colon, hmin, Option.bind_eq_bind,
      Option.bind_some]
    rw [if_neg (by omega)]

end

end Rtp2httpd
