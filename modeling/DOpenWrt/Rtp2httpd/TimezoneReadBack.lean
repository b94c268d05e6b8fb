import DOpenWrt.Lib.Except
import DOpenWrt.Rtp2httpd.TimezoneConvert

/-!
# Reading a converted time back

A converted time is read back by `timezone_parse_to_utc` as the time that was moved, but for the second before the
epoch, which looks like a failure of `timegm`, and for years that the form does not have.
-/

namespace Rtp2httpd
open CString

/-! ### Written times -/

/-- `YYYYMMDDHHMMSS`. -/
def CivilTime.digits14 (t : CivilTime) : List UInt8 :=
  fourDigits t.year ++ twoDigits t.month ++ twoDigits t.day ++ twoDigits t.hour ++ twoDigits t.min ++ twoDigits t.sec

/-- The fields of `gmtime` in the years 0 to 9999. -/
theorem exists_civilTime {u : Int} (h0 : -1900 ≤ (gmtime u).year) (h1 : (gmtime u).year ≤ 8099) :
    ∃ c : CivilTime, c.dateTime.tm = gmtime u ∧ (c.dateTime.Valid ↔ 0 ≤ (gmtime u).year) := by
  have hfields := gmtime_fields u
  generalize gmtime u = tm at *
  obtain ⟨year, mon, mday, hour, min, sec⟩ := tm
  dsimp only at *
  refine ⟨⟨(year + 1900).toNat, (mon + 1).toNat, mday.toNat, hour.toNat, min.toNat, sec.toNat, by omega, by omega, by omega,
    by omega, by omega, by omega⟩, ?_, ?_⟩
  · simp only [CivilTime.dateTime, DateTime.tm, Tm.mk.injEq]
    omega
  · simp only [DateTime.Valid, CivilTime.dateTime]
    omega

section
variable (c : CivilTime) {sfx : List UInt8} {has : Bool} {offset : Int}

theorem printed_year : printPadded 4 (c.dateTime.tm.year + 1900) = fourDigits c.year := by
  rw [← printPadded_four c.year_lt]
  exact congrArg (printPadded 4) (Int.sub_add_cancel ..)

theorem printed_month : printPadded 2 (c.dateTime.tm.mon + 1) = twoDigits c.month := by
  rw [← printPadded_two c.month_lt]
  exact congrArg (printPadded 2) (Int.sub_add_cancel ..)

theorem timezoneFormatTimeYyyyMMddHHmmss_eq :
    timezoneFormatTimeYyyyMMddHHmmss c.dateTime.tm tempTimeSize = some c.digits14 := by
  rw [timezoneFormatTimeYyyyMMddHHmmss, if_neg (by decide), printed_year, printed_month]
  dsimp only [DateTime.tm, CivilTime.dateTime]
  rw [printPadded_two c.day_lt, printPadded_two c.hour_lt, printPadded_two c.min_lt, printPadded_two c.sec_lt]
  exact if_neg (by simp [fourDigits, twoDigits, tempTimeSize])

theorem digits14_digit : ∀ d ∈ c.digits14, isdigit d = true := by
  unfold CivilTime.digits14
  simp only [List.forall_mem_append]
  exact ⟨⟨⟨⟨⟨fourDigits_isdigit c.year_lt, twoDigits_isdigit c.month_lt⟩, twoDigits_isdigit c.day_lt⟩,
    twoDigits_isdigit c.hour_lt⟩, twoDigits_isdigit c.min_lt⟩, twoDigits_isdigit c.sec_lt⟩

theorem scanDigits14_digits14 (rest : List UInt8) : scanDigits14 (c.digits14 ++ rest) = some c.dateTime := by
  unfold scanDigits14 CivilTime.digits14
  simp only [List.append_assoc, scanInt_four c.year_lt, scanInt_two c.month_lt, scanInt_two c.day_lt,
    scanInt_two c.hour_lt, scanInt_two c.min_lt, scanInt_two c.sec_lt, Option.bind_eq_bind, Option.bind_some]
  rfl

theorem timezoneParseToUtc_digits14 : timezoneParseToUtc c.digits14 0 0 = .ok (toUtc c.dateTime.tm 0 0) := by
  have hscan := scanDigits14_digits14 c []
  rw [List.append_nil] at hscan
  have hcount : (c.digits14.takeWhile isdigit).length = 14 := by
    rw [List.takeWhile_eq_self_iff.2 (digits14_digit c)]
    rfl
  have hlen : c.digits14.length = 14 := rfl
  rw [timezoneParseToUtc, if_neg (by omega), if_pos (.inl ⟨hlen, hcount⟩), hscan, if_neg (by omega)]
  rfl

theorem timezoneParseToUtc_gmt : timezoneParseToUtc (c.digits14 ++ str "GMT") 0 0 = .ok (toUtc c.dateTime.tm 0 0) := by
  have hcount : ((c.digits14 ++ str "GMT").takeWhile isdigit).length = 14 := by
    rw [List.takeWhile_append_of_pos (digits14_digit c)]
    rfl
  have hlen : (c.digits14 ++ str "GMT").length = 17 := rfl
  rw [timezoneParseToUtc, if_neg (by omega), if_pos (.inr ⟨hlen, hcount, rfl⟩), scanDigits14_digits14, if_pos hlen]
  rfl

/-- The basic form with what is written of a time zone. -/
theorem timezoneParseToUtc_basic_written (h : WrittenZone (-9) has offset sfx) :
    timezoneParseToUtc (c.basic ++ sfx) 0 0 =
      .ok (if c.dateTime.Valid then toUtc c.dateTime.tm (if has then offset else 0) 0 else none) := by
  have hdrop : (c.basic ++ sfx).drop 15 = sfx := List.drop_left' (length_basic c)
  have hbasic := isBasicIso8601Format_basic c sfx
  have hlen : 15 ≤ (c.basic ++ sfx).length := by
    rw [List.length_append, length_basic]
    omega
  have hT : capitalT ∈ c.basic ++ sfx := capitalT_mem_of_basic hbasic
  rcases timezoneParseToUtc_forms (c.basic ++ sfx) 0 0 with ⟨hshort, -, -⟩ | ⟨-, hdigit, -⟩ | ⟨⟨ds, heq, hds, hdigit⟩, -⟩ |
    ⟨-, hparse⟩ | ⟨hother, -, -⟩ | ⟨hother, -, -⟩
  · omega
  · exact absurd (hdigit _ hT) (by decide)
  · have hmem : capitalT ∈ ds := by
      have htake : (c.basic ++ sfx).take 14 = ds := heq ▸ List.take_left' hds
      rw [← htake]
      exact List.mem_of_getElem? (show ((c.basic ++ sfx).take 14)[8]? = some capitalT from rfl)
    exact absurd (hdigit _ hmem) (by decide)
  · rw [hparse, timezoneParseBasicIso8601, if_neg (by decide), scanBasicIso8601_basic]
    dsimp only
    by_cases hvalid : c.dateTime.Valid
    · rw [if_neg (not_not_intro hvalid), if_pos hvalid]
      simp only [charAt_ok hlen, basicTimezone_reads h hdrop, bind, Except.bind, Except.map, Option.map_some,
        Option.bind_some, IsoTime.toUtc]
    · rw [if_pos hvalid, if_neg hvalid]
      rfl
  · rw [hbasic] at hother
    cases hother
  · rw [hbasic] at hother
    cases hother

theorem isBasicIso8601Format_extended (rest : List UInt8) : isBasicIso8601Format (c.extended ++ rest) = false := by
  have htake : (c.extended ++ rest).take 8 = fourDigits c.year ++ str "-" ++ twoDigits c.month ++ str "-" := rfl
  refine decide_eq_false fun h => ?_
  have hdash := List.all_eq_true.1 h.2.2.1 dash (by
    rw [htake]
    exact List.mem_append_right _ (by decide))
  exact absurd hdash (by decide)

/-- The extended form with what is written of a time zone. -/
theorem timezoneParseToUtc_extended_written (f : Fraction) (h : WrittenZone 0 has offset sfx) :
    timezoneParseToUtc (c.extended ++ (f.text ++ sfx)) 0 0 =
      .ok (if c.dateTime.Valid then toUtc c.dateTime.tm (if has then offset else 0) 0 else none) := by
  have hdrop : (c.extended ++ (f.text ++ sfx)).drop 19 = f.text ++ sfx := List.drop_left' (length_extended c)
  have hdrop' : (c.extended ++ (f.text ++ sfx)).drop (19 + f.text.length) = sfx := by
    rw [← List.drop_drop, hdrop, List.drop_left' rfl]
  have hlen : (c.extended ++ (f.text ++ sfx)).length = 19 + f.text.length + sfx.length := by
    rw [List.length_append, List.length_append, length_extended, Nat.add_assoc]
  have hdash : dash ∈ c.extended ++ (f.text ++ sfx) :=
    List.mem_of_getElem? (show (c.extended ++ (f.text ++ sfx))[4]? = some dash from rfl)
  have hbasic := isBasicIso8601Format_extended c (f.text ++ sfx)
  have hhead : sfx.head?.any isdigit = false ∧ ∀ d ∈ sfx.head?, d.toNat ≠ '.'.toNat := by
    cases h with
    | none => exact ⟨rfl, nofun⟩
    | utc => exact ⟨rfl, fun d hd => by
        obtain rfl := Option.some.inj hd
        decide⟩
    | offset hsign =>
      have hdot : '.'.toNat = 46 := rfl
      have hplus : '+'.toNat = 43 := rfl
      have hminus : '-'.toNat = 45 := rfl
      refine ⟨(isSign_plain hsign).2, fun d hd => ?_⟩
      obtain rfl := Option.some.inj hd
      have := of_decide_eq_true hsign
      omega
  obtain ⟨ms, hfraction⟩ := isoFraction_rest hhead.1 hhead.2 hdrop
  have htimezone := isoTimezone_reads h (show 19 + f.text.length ≤ (c.extended ++ (f.text ++ sfx)).length by omega) hdrop'
  rcases timezoneParseToUtc_forms (c.extended ++ (f.text ++ sfx)) 0 0 with ⟨hshort, -, -⟩ | ⟨-, hdigit, -⟩ |
    ⟨⟨ds, heq, hds, hdigit⟩, -⟩ | ⟨hother, -⟩ | ⟨-, -, hparse⟩ | ⟨-, hother, -⟩
  · omega
  · exact absurd (hdigit _ hdash) (by decide)
  · have hmem : dash ∈ ds := by
      have htake : (c.extended ++ (f.text ++ sfx)).take 14 = ds := heq ▸ List.take_left' hds
      rw [← htake]
      exact List.mem_of_getElem? (show ((c.extended ++ (f.text ++ sfx)).take 14)[4]? = some dash from rfl)
    exact absurd (hdigit _ hmem) (by decide)
  · rw [hbasic] at hother
    cases hother
  · rw [hparse, timezoneParseIso8601, if_neg (by decide), if_neg (not_not_intro (T_mem_extended c _)), scanIso8601_extended]
    dsimp only
    by_cases hvalid : c.dateTime.Valid
    · rw [if_neg (not_not_intro hvalid), if_pos hvalid]
      simp only [charAt_ok (show 19 ≤ (c.extended ++ (f.text ++ sfx)).length by omega), hfraction,
        charAt_ok (show 19 + f.text.length ≤ (c.extended ++ (f.text ++ sfx)).length by omega), htimezone, bind,
        Except.bind, Except.map, Option.map_some, Option.bind_some, IsoTime.toUtc]
    · rw [if_pos hvalid, if_neg hvalid]
      rfl
  · exact absurd (T_mem_extended c _) hother

end

/-! ### Years of five digits -/

section
variable {y : Int} {rest sfx : List UInt8}

/-- A text that begins with a year of five digits. -/
theorem scanInt_year_long (h0 : 10000 ≤ y) (h1 : y < 19000) (rest : List UInt8) : ∃ year d,
    scanInt 4 (printPadded 4 y ++ rest) = some (year, d :: rest) ∧ isdigit d = true ∧ year < 1900 := by
  obtain ⟨n, rfl⟩ := Int.eq_ofNat_of_zero_le (show 0 ≤ y by omega)
  obtain ⟨ds, d, heq, hlen, hds, hd, hval⟩ := printPadded_five (show 10000 ≤ n by omega) (by omega)
  refine ⟨digitsVal ds, d, ?_, hd, by omega⟩
  rw [heq, List.append_assoc]
  exact scanInt_digits hds (List.ne_nil_of_length_eq_add_one hlen) hlen.le (.inl hlen)

theorem scanIso8601_year_long (h0 : 10000 ≤ y) (h1 : y < 19000) (rest : List UInt8) :
    scanIso8601 (printPadded 4 y ++ rest) = none := by
  obtain ⟨year, d, hscan, hd, -⟩ := scanInt_year_long h0 h1 rest
  have hlit : scanLit '-' (d :: rest) = none := by
    have hminus := (not_or.1 (of_decide_eq_false (isdigit_plain hd).2)).2
    rw [scanLit, if_neg hminus]
  rw [scanIso8601, hscan]
  simp only [Option.bind_eq_bind, Option.bind_some, hlit, Option.bind_none]

/-- A text that is not of the basic form and has not the fields of the extended one is refused, if it has a `T`. -/
theorem timezoneParseToUtc_unscanned {s : List UInt8} (hT : capitalT ∈ s) (hbasic : isBasicIso8601Format s = false)
    (hgmt : ∀ ds, s = ds ++ str "GMT" → (∀ c ∈ ds, isdigit c = true) → ds.length ≠ 14) (hscan : scanIso8601 s = none) :
    timezoneParseToUtc s 0 0 = .ok none := by
  rcases timezoneParseToUtc_forms s 0 0 with ⟨-, hdigit, -⟩ | ⟨-, hdigit, -⟩ | ⟨⟨ds, heq, hds, hdigit⟩, -⟩ |
    ⟨hother, -⟩ | ⟨-, -, hparse⟩ | ⟨-, hother, -⟩
  · exact absurd (hdigit _ hT) (by decide)
  · exact absurd (hdigit _ hT) (by decide)
  · exact absurd hds (hgmt ds heq hdigit)
  · rw [hbasic] at hother
    cases hother
  · rw [hparse, timezoneParseIso8601, if_neg (by decide),
      if_neg (show ¬ UInt8.ofNat 'T'.toNat ∉ s from not_not_intro hT), hscan]
    rfl
  · exact absurd hT hother

/-- And so is one of the basic form whose year is out of range. -/
theorem timezoneParseToUtc_basic_year {s r : List UInt8} {year : Int} (hbasic : isBasicIso8601Format s = true)
    (hscan : scanInt 4 s = some (year, r)) (hyear : year < 1900) : timezoneParseToUtc s 0 0 = .ok none := by
  have hT := capitalT_mem_of_basic hbasic
  obtain ⟨h8, -⟩ := isBasic_of_format hbasic
  rcases timezoneParseToUtc_forms s 0 0 with ⟨-, hdigit, -⟩ | ⟨-, hdigit, -⟩ | ⟨⟨ds, rfl, hds, hdigit⟩, -⟩ | ⟨-, hparse⟩ |
    ⟨hother, -, -⟩ | ⟨-, hother, -⟩
  · exact absurd (hdigit _ hT) (by decide)
  · exact absurd (hdigit _ hT) (by decide)
  · rw [List.getElem?_append_left (by omega)] at h8
    exact absurd (hdigit _ (List.mem_of_getElem? h8)) (by decide)
  · have hrefused : timezoneParseBasicIso8601 s timezoneSuffixSize = .ok none := by
      rw [timezoneParseBasicIso8601, if_neg (by decide)]
      cases ht : scanBasicIso8601 s with
      | none => rfl
      | some t =>
        rw [scanBasicIso8601, hscan] at ht
        simp only [Option.bind_eq_bind, Option.bind_some, Option.bind_eq_some_iff, Option.some.injEq] at ht
        obtain ⟨_, _, _, _, _, _, _, _, _, _, _, _, rfl⟩ := ht
        refine if_pos fun hvalid => ?_
        have := hvalid.1.1
        dsimp only at this
        omega
    rw [hparse, hrefused]
    rfl
  · rw [hbasic] at hother
    cases hother
  · exact absurd hT hother

end

/-! ### Reading back -/

/-- Seconds from the first of January 1900 and until the end of the year 9999. -/
def InYears (u : Int) : Prop := -2208988800 ≤ u ∧ u < 253402300800

instance InYears.decidable (u : Int) : Decidable (InYears u) := inferInstanceAs (Decidable (_ ∧ _))

/-- A text that is of one of the forms: digits of their number, or a `T`, which the form with `GMT` and both ISO forms
have. -/
def Recognised (s : List UInt8) : Prop :=
  ((s.length ≤ 10 ∨ s.length = 14) ∧ ∀ c ∈ s, isdigit c = true) ∨ capitalT ∈ s

instance Recognised.decidable (s : List UInt8) : Decidable (Recognised s) := inferInstanceAs (Decidable (_ ∨ _))

/-- What the moved time has to be, in the frame in which it is written: not the second before the epoch, and of a year
that the form has. -/
def KeepsTime (s : List UInt8) (tzOffsetSeconds additionalOffsetSeconds : Int) : Prop :=
  let inputLen := s.length
  let digitCount := (s.takeWhile isdigit).length
  if inputLen ≤ 10 ∧ digitCount = inputLen then True
  else if (inputLen = 14 ∧ digitCount = 14) ∨ (inputLen = 17 ∧ digitCount = 14 ∧ s.drop 14 = str "GMT") then
    ∀ t, scanDigits14 s = some t →
      let moved := timegm t.tm - (if inputLen = 17 then 0 else tzOffsetSeconds) + additionalOffsetSeconds
      moved ≠ -1 ∧ (inputLen = 17 → moved < 253402300800)
  else ∀ t, (if isBasicIso8601Format s then timezoneParseBasicIso8601 s timezoneSuffixSize
      else timezoneParseIso8601 s timezoneSuffixSize) = .ok (some t) →
    let moved := timegm t.tm - (if t.hasTimezone then 0 else tzOffsetSeconds) + additionalOffsetSeconds
    moved ≠ -1 ∧ InYears moved

section
variable {s t : List UInt8} {tz d u offset : Int} {outputSize : Nat}

theorem toUtc_gmtime (u offset : Int) : toUtc (gmtime u) offset 0 = if u = -1 then none else some (u - offset) := by
  rw [toUtc, timegm_gmtime, Int.add_zero]

/-- The same time is read of both, unless it is refused. -/
theorem read_back_iff {valid : Prop} [Decidable valid]
    (ht : timezoneParseToUtc t 0 0 = .ok (if valid then toUtc (gmtime u) offset 0 else none))
    (hs : timezoneParseToUtc s tz d = .ok (some (u - offset))) :
    (∃ utc, timezoneParseToUtc t 0 0 = .ok (some utc) ∧ timezoneParseToUtc s tz d = .ok (some utc)) ↔
      u ≠ -1 ∧ valid := by
  rw [ht, hs, toUtc_gmtime]
  constructor
  · rintro ⟨utc, hread, -⟩
    split_ifs at hread with hvalid hminus
    · cases hread
    · exact ⟨hminus, hvalid⟩
    · cases hread
  · rintro ⟨hminus, hvalid⟩
    refine ⟨u - offset, ?_, rfl⟩
    rw [if_pos hvalid, if_neg hminus]

theorem not_read_back (ht : timezoneParseToUtc t 0 0 = .ok none) :
    ¬ ∃ utc, timezoneParseToUtc t 0 0 = .ok (some utc) ∧ timezoneParseToUtc s tz d = .ok (some utc) := by
  rintro ⟨utc, hread, -⟩
  rw [ht] at hread
  cases hread

theorem year_1900 : yearDays 0 * 86400 = -2208988800 := by decide
theorem year_10000 : yearDays 8100 * 86400 = 253402300800 := by decide
theorem year_zero : yearDays (-1900) * 86400 = -62167219200 := by decide
theorem year_19000 : yearDays 17100 * 86400 = 537414912000 := by decide

/-- A moved time is within the years of four digits or somewhat behind them. -/
theorem moved_bounds {t : DateTime} (hvalid : t.Valid) (htz : -12 * 3600 ≤ tz ∧ tz ≤ 14 * 3600)
    (hd : -2 ^ 31 ≤ d ∧ d < 2 ^ 31) (hu : toUtc t.tm tz d = some u) :
    -1900 ≤ (gmtime u).year ∧ (gmtime u).year < 17100 := by
  obtain ⟨⟨hyear0, hyear1⟩, hmonth, hday, hhour, hmin, hsec⟩ := hvalid
  obtain ⟨-, rfl⟩ := toUtc_eq_some.1 hu
  have hmon : 0 ≤ t.tm.mon ∧ t.tm.mon ≤ 11 := by
    dsimp only [DateTime.tm]
    omega
  obtain ⟨hlow, hhigh, -⟩ := timegm_bounds hmon hday hhour hmin hsec
  have hfirst := yearDays_mono (show 0 ≤ t.tm.year by dsimp only [DateTime.tm]; omega)
  have hlast := yearDays_mono (show t.tm.year + 1 ≤ 8100 by dsimp only [DateTime.tm]; omega)
  have h1900 := year_1900
  have h10000 := year_10000
  have h19000 := year_19000
  have hzero := year_zero
  refine ⟨le_gmtime_year.2 (by omega), ?_⟩
  rw [← Int.not_le, le_gmtime_year]
  omega

theorem inYears_iff : InYears u ↔ 0 ≤ (gmtime u).year ∧ (gmtime u).year ≤ 8099 := by
  have hfirst : 0 ≤ (gmtime u).year ↔ -2208988800 ≤ u := year_1900 ▸ le_gmtime_year
  have hlast : 8100 ≤ (gmtime u).year ↔ 253402300800 ≤ u := year_10000 ▸ le_gmtime_year
  unfold InYears
  omega

end

/-! ### What the parsers put out -/

section
variable {s : List UInt8} {iso : IsoTime} {tz d u : Int}

/-- What a parser makes of valid fields and a written time zone. -/
structure Parsed (low : Int) (iso : IsoTime) : Prop where
  tm_eq : ∃ t : DateTime, t.Valid ∧ t.tm = iso.tm
  zone : WrittenZone low iso.hasTimezone iso.timezoneOffset iso.timezoneSuffix

theorem parsed_of_zone {low : Int} {t : DateTime} {ms : Int} {has : Bool} {offset : Int} {sfx : List UInt8}
    (hvalid : t.Valid) (h : WrittenZone low has offset sfx) :
    Parsed low ⟨t.tm, ms, has, offset, sfx.take (timezoneSuffixSize - 1)⟩ := by
  have htake : sfx.take (timezoneSuffixSize - 1) = sfx := List.take_of_length_le (h.length_le.trans (by decide))
  rw [htake]
  exact ⟨⟨t, hvalid, rfl⟩, h⟩

theorem timezoneParseIso8601_parsed (h : timezoneParseIso8601 s timezoneSuffixSize = .ok (some iso)) : Parsed 0 iso := by
  unfold timezoneParseIso8601 at h
  rw [if_neg (by decide)] at h
  split_ifs at h with hT
  · split at h
    · cases h
    · next t hscan =>
      split_ifs at h with hvalid
      · obtain ⟨c, -, h⟩ := Except.bind_eq_ok.1 h
        obtain ⟨⟨ms, p⟩, -, h⟩ := Except.bind_eq_ok.1 h
        obtain ⟨c', -, h⟩ := Except.bind_eq_ok.1 h
        obtain ⟨timezone, hzone, h⟩ := Except.bind_eq_ok.1 h
        obtain ⟨⟨has, offset, sfx⟩, rfl, rfl⟩ := Option.map_eq_some_iff.1 (Except.ok.inj h)
        exact parsed_of_zone hvalid (isoTimezone_written hzone)
      · cases h
  · cases h

theorem timezoneParseBasicIso8601_parsed (h : timezoneParseBasicIso8601 s timezoneSuffixSize = .ok (some iso)) :
    Parsed (-9) iso := by
  unfold timezoneParseBasicIso8601 at h
  rw [if_neg (by decide)] at h
  split at h
  · cases h
  · next t hscan =>
    split_ifs at h with hvalid
    · obtain ⟨c, -, h⟩ := Except.bind_eq_ok.1 h
      obtain ⟨timezone, hzone, h⟩ := Except.bind_eq_ok.1 h
      obtain ⟨⟨has, offset, sfx⟩, rfl, rfl⟩ := Option.map_eq_some_iff.1 (Except.ok.inj h)
      exact parsed_of_zone hvalid (basicTimezone_written hzone)
    · cases h

/-- The time that is read is the moved one, back in UTC. -/
theorem IsoTime.toUtc_moved (h : Rtp2httpd.toUtc iso.tm (if iso.hasTimezone then 0 else tz) d = some u) :
    iso.toUtc tz d = some (u - if iso.hasTimezone then iso.timezoneOffset else 0) := by
  obtain ⟨hne, rfl⟩ := toUtc_eq_some.1 h
  refine toUtc_eq_some.2 ⟨hne, ?_⟩
  split <;> omega

end

/-! ### Unix seconds -/

section
variable {s t : List UInt8} {tz d u : Int} {outputSize : Nat}

theorem copyTo_of_length (h : t.length < outputSize) : copyTo outputSize t = t := List.take_of_length_le (by omega)

theorem timezoneParseToUtc_unix (hlen : t.length ≤ 10) (hdigit : ∀ c ∈ t, isdigit c = true) (tz d : Int) :
    timezoneParseToUtc t tz d = .ok (some (digitsVal t + d)) := by
  have hcount : (t.takeWhile isdigit).length = t.length := by rw [List.takeWhile_eq_self_iff.2 hdigit]
  rw [timezoneParseToUtc, if_pos ⟨hlen, hcount⟩]

/-- Seconds that are written with more than ten characters or with a sign are no longer recognised. -/
theorem printInt_read (hu : u < 10 ^ 13) (hrec : Recognised (printInt u)) :
    timezoneParseToUtc (printInt u) 0 0 = .ok (some u) := by
  rcases Int.lt_or_le u 0 with hneg | hnonneg
  · have htext : printInt u = dash :: decimal u.natAbs := by
      rw [printInt, if_pos hneg]
      rfl
    rw [htext] at hrec
    rcases hrec with ⟨-, hdigit⟩ | hT
    · exact absurd (hdigit dash List.mem_cons_self) (by decide)
    · rcases List.mem_cons.1 hT with hdash | hT
      · exact absurd hdash (by decide)
      · exact absurd (mem_decimal hT) (by decide)
  · obtain ⟨n, rfl⟩ := Int.eq_ofNat_of_zero_le hnonneg
    have htext : printInt n = decimal n := by
      rw [printInt, if_neg (by omega), Int.natAbs_natCast]
      rfl
    have hlen : (decimal n).length ≤ 13 := (length_decimal_le_iff (by decide)).2 (by omega)
    rw [htext] at hrec ⊢
    rcases hrec with ⟨hshort, -⟩ | hT
    · rw [timezoneParseToUtc_unix (by omega) (fun c hc => mem_decimal hc), digitsVal_decimal, Int.add_zero]
    · exact absurd (mem_decimal hT) (by decide)

theorem length_printInt (hu : -(10 ^ 13) < u ∧ u < 10 ^ 13) : (printInt u).length ≤ 14 := by
  have hlen : (decimal u.natAbs).length ≤ 13 := (length_decimal_le_iff (by decide)).2 (by omega)
  rw [printInt, List.length_append]
  split_ifs
  · exact Nat.add_le_add (Nat.le_refl 1) hlen
  · exact Nat.add_le_add (Nat.zero_le 1) hlen

end

/-! ### Fourteen digits -/

section
variable {s t w sfx : List UInt8} {tz d u offset ms : Int} {outputSize : Nat} {has : Bool}

/-- A year of five digits makes a fifteenth digit. -/
theorem formatted_long (h0 : 8100 ≤ (gmtime u).year) (h1 : (gmtime u).year < 17100) : ∃ rest,
    timezoneFormatTimeYyyyMMddHHmmss (gmtime u) tempTimeSize = some (printPadded 4 ((gmtime u).year + 1900) ++ rest) ∧
      (printPadded 4 ((gmtime u).year + 1900)).length = 5 ∧ rest.length = 10 ∧
      ∀ c ∈ printPadded 4 ((gmtime u).year + 1900) ++ rest, isdigit c = true := by
  have hfields := gmtime_fields u
  generalize gmtime u = tm at *
  obtain ⟨year, hyear⟩ := Int.eq_ofNat_of_zero_le (show 0 ≤ tm.year + 1900 by omega)
  obtain ⟨mon, hmon⟩ := Int.eq_ofNat_of_zero_le (show 0 ≤ tm.mon + 1 by omega)
  obtain ⟨mday, hmday⟩ := Int.eq_ofNat_of_zero_le (show 0 ≤ tm.mday by omega)
  obtain ⟨hour, hhour⟩ := Int.eq_ofNat_of_zero_le (show 0 ≤ tm.hour by omega)
  obtain ⟨min, hmin⟩ := Int.eq_ofNat_of_zero_le (show 0 ≤ tm.min by omega)
  obtain ⟨sec, hsec⟩ := Int.eq_ofNat_of_zero_le (show 0 ≤ tm.sec by omega)
  rw [timezoneFormatTimeYyyyMMddHHmmss, if_neg (by decide), hyear, hmon, hmday, hhour, hmin, hsec]
  have hfive : (printPadded 4 (year : Int)).length = 5 := by
    obtain ⟨ds, e, heq, hlen, -⟩ := printPadded_five (show 10000 ≤ year by omega) (by omega)
    rw [heq, List.length_append, hlen, List.length_singleton]
  have hten : (printPadded 2 (mon : Int) ++ (printPadded 2 (mday : Int) ++ (printPadded 2 (hour : Int) ++
      (printPadded 2 (min : Int) ++ printPadded 2 (sec : Int))))).length = 10 := by
    simp only [List.length_append]
    rw [length_printPadded (by decide) (show mon < 10 ^ 2 by omega),
      length_printPadded (by decide) (show mday < 10 ^ 2 by omega),
      length_printPadded (by decide) (show hour < 10 ^ 2 by omega),
      length_printPadded (by decide) (show min < 10 ^ 2 by omega),
      length_printPadded (by decide) (show sec < 10 ^ 2 by omega)]
  refine ⟨_, ?_, hfive, hten, ?_⟩
  · dsimp only
    simp only [List.append_assoc]
    refine if_neg ?_
    rw [List.length_append, hfive, hten]
    decide
  · simp only [List.forall_mem_append]
    exact ⟨isdigit_printPadded, isdigit_printPadded, isdigit_printPadded, isdigit_printPadded, isdigit_printPadded,
      isdigit_printPadded⟩

theorem capitalT_not_mem_digits (h : ∀ c ∈ t, isdigit c = true) : capitalT ∉ t := fun hT => absurd (h _ hT) (by decide)

/-- Fourteen digits are read back, and fifteen are not recognised. -/
theorem digits14_keeps_iff (h0 : -1900 ≤ (gmtime u).year) (h1 : (gmtime u).year < 17100)
    (hw : timezoneFormatTimeYyyyMMddHHmmss (gmtime u) tempTimeSize = some w)
    (hs : timezoneParseToUtc s tz d = .ok (some u)) :
    (Recognised w → ∃ utc, timezoneParseToUtc w 0 0 = .ok (some utc) ∧ timezoneParseToUtc s tz d = .ok (some utc)) ↔
      u ≠ -1 := by
  by_cases hyear : (gmtime u).year ≤ 8099
  · obtain ⟨c, hc, -⟩ := exists_civilTime h0 hyear
    rw [← hc, timezoneFormatTimeYyyyMMddHHmmss_eq, Option.some.injEq] at hw
    have hrec : Recognised w := by
      rw [← hw]
      exact .inl ⟨.inr rfl, digits14_digit c⟩
    have ht : timezoneParseToUtc w 0 0 = .ok (if True then toUtc (gmtime u) 0 0 else none) := by
      rw [← hw, timezoneParseToUtc_digits14, hc, if_pos trivial]
    have hiff := read_back_iff ht (show timezoneParseToUtc s tz d = .ok (some (u - 0)) by rw [hs, Int.sub_zero])
    rw [and_iff_left trivial] at hiff
    rw [← hiff]
    exact ⟨fun h => h hrec, fun h _ => h⟩
  · obtain ⟨rest, hformat, hfive, hten, hdigit⟩ := formatted_long (by omega) h1
    rw [hformat, Option.some.injEq] at hw
    have hlate : 253402300800 ≤ u := year_10000 ▸ le_gmtime_year.1 (show 8100 ≤ (gmtime u).year by omega)
    refine iff_of_true (fun hrec => ?_) (by omega)
    rw [← hw] at hrec
    rcases hrec with ⟨hlen, -⟩ | hT
    · rw [List.length_append, hfive, hten] at hlen
      omega
    · exact absurd hT (capitalT_not_mem_digits hdigit)

/-- With `GMT` fifteen digits are recognised by their `T`, and refused. -/
theorem gmt_keeps_iff (h0 : -1900 ≤ (gmtime u).year) (h1 : (gmtime u).year < 17100)
    (hw : timezoneFormatTimeYyyyMMddHHmmss (gmtime u) tempTimeSize = some w)
    (hs : timezoneParseToUtc s tz d = .ok (some u)) :
    (Recognised (w ++ str "GMT") → ∃ utc, timezoneParseToUtc (w ++ str "GMT") 0 0 = .ok (some utc) ∧
        timezoneParseToUtc s tz d = .ok (some utc)) ↔ u ≠ -1 ∧ u < 253402300800 := by
  have hT : capitalT ∈ w ++ str "GMT" := List.mem_append_right _ (by decide)
  rw [imp_iff_right (show Recognised (w ++ str "GMT") from .inr hT)]
  have hlate : 8100 ≤ (gmtime u).year ↔ 253402300800 ≤ u := year_10000 ▸ le_gmtime_year
  by_cases hyear : (gmtime u).year ≤ 8099
  · obtain ⟨c, hc, -⟩ := exists_civilTime h0 hyear
    rw [← hc, timezoneFormatTimeYyyyMMddHHmmss_eq, Option.some.injEq] at hw
    have ht : timezoneParseToUtc (w ++ str "GMT") 0 0 =
        .ok (if u < 253402300800 then toUtc (gmtime u) 0 0 else none) := by
      rw [← hw, timezoneParseToUtc_gmt, hc, if_pos (by omega)]
    exact read_back_iff ht (show timezoneParseToUtc s tz d = .ok (some (u - 0)) by rw [hs, Int.sub_zero])
  · obtain ⟨rest, hformat, hfive, hten, hdigit⟩ := formatted_long (by omega) h1
    rw [hformat, Option.some.injEq] at hw
    refine iff_of_false (not_read_back (timezoneParseToUtc_unscanned hT ?_ (fun ds heq _ hds => ?_) ?_)) (by omega)
    · refine Bool.eq_false_iff.2 fun hbasic => ?_
      have h8 := (isBasic_of_format hbasic).1
      have hlen : 8 < w.length := by
        rw [← hw, List.length_append]
        omega
      rw [List.getElem?_append_left hlen] at h8
      exact capitalT_not_mem_digits (hw ▸ hdigit) (List.mem_of_getElem? h8)
    · have hlen := congrArg List.length (List.append_cancel_right heq)
      rw [← hw, List.length_append] at hlen
      omega
    · rw [← hw, List.append_assoc]
      exact scanIso8601_year_long (by omega) (by omega) _

/-- The basic form with the written time zone. -/
theorem basic_keeps_iff (h0 : -1900 ≤ (gmtime u).year) (h1 : (gmtime u).year < 17100)
    (hw : timezoneFormatTimeYyyyMMddHHmmss (gmtime u) tempTimeSize = some w) (hz : WrittenZone (-9) has offset sfx)
    (ht : t = w.take 8 ++ str "T" ++ w.drop 8 ++ sfx)
    (hs : timezoneParseToUtc s tz d = .ok (some (u - if has then offset else 0))) :
    (Recognised t → ∃ utc, timezoneParseToUtc t 0 0 = .ok (some utc) ∧ timezoneParseToUtc s tz d = .ok (some utc)) ↔
      u ≠ -1 ∧ InYears u := by
  have hT : capitalT ∈ t := by
    rw [ht, List.append_assoc, List.append_assoc]
    exact List.mem_append_right _ List.mem_cons_self
  rw [imp_iff_right (show Recognised t from .inr hT)]
  by_cases hyear : (gmtime u).year ≤ 8099
  · obtain ⟨c, hc, hvalid⟩ := exists_civilTime h0 hyear
    rw [← hc, timezoneFormatTimeYyyyMMddHHmmss_eq, Option.some.injEq] at hw
    have htext : t = c.basic ++ sfx := by
      rw [ht, ← hw]
      rfl
    have hread := timezoneParseToUtc_basic_written c hz
    rw [← htext, hc] at hread
    rw [read_back_iff hread hs, hvalid, inYears_iff, and_iff_left hyear]
  · obtain ⟨rest, hformat, hfive, hten, hdigit⟩ := formatted_long (by omega) h1
    rw [hformat, Option.some.injEq] at hw
    have hlen : w.length = 15 := by rw [← hw, List.length_append, hfive, hten]
    rw [hw] at hdigit
    have hbasic : isBasicIso8601Format t = true := by
      have htake : (w.take 8).length = 8 := by
        rw [List.length_take, hlen]
        rfl
      have hdrop : (w.drop 8).length = 7 := by rw [List.length_drop, hlen]
      have hparts : t = w.take 8 ++ (str "T" ++ (w.drop 8 ++ sfx)) := by
        rw [ht]
        simp only [List.append_assoc]
      have htail : t.drop 9 = w.drop 8 ++ sfx := by
        rw [hparts, ← List.drop_drop (i := 1) (j := 8), List.drop_left' htake]
        rfl
      refine decide_eq_true ⟨?_, ?_, ?_, ?_⟩
      · rw [hparts, List.length_append, List.length_append, List.length_append, htake, hdrop]
        omega
      · rw [hparts, List.getElem?_append_right htake.le, htake]
        rfl
      · rw [hparts, List.take_left' htake, List.all_eq_true]
        exact fun c hc => hdigit c (List.mem_of_mem_take hc)
      · rw [htail, List.take_append_of_le_length (by omega), List.all_eq_true]
        exact fun c hc => hdigit c (List.mem_of_mem_drop (List.mem_of_mem_take hc))
    obtain ⟨year, e, hscan, -, hsmall⟩ := scanInt_year_long (y := (gmtime u).year + 1900) (by omega) (by omega)
      (rest.take 3 ++ (str "T" ++ (w.drop 8 ++ sfx)))
    have hyeartext : printPadded 4 ((gmtime u).year + 1900) ++ (rest.take 3 ++ (str "T" ++ (w.drop 8 ++ sfx))) = t := by
      have htake : w.take 8 = printPadded 4 ((gmtime u).year + 1900) ++ rest.take 3 := by
        rw [← hw, List.take_append, hfive, List.take_of_length_le (by omega)]
      rw [ht, htake]
      simp only [List.append_assoc]
    rw [hyeartext] at hscan
    exact iff_of_false (not_read_back (timezoneParseToUtc_basic_year hbasic hscan hsmall)) fun h =>
      hyear (inYears_iff.1 h.2).2

/-- The milliseconds as they are written. -/
theorem exists_fraction (h : ms ≤ 999) :
    ∃ f : Fraction, (if ms ≥ 0 then str "." ++ printPadded 3 ms else []) = f.text := by
  by_cases hms : ms ≥ 0
  · obtain ⟨n, rfl⟩ := Int.eq_ofNat_of_zero_le hms
    have hlen : (printPadded 3 (n : Int)).length = 3 := length_printPadded (by decide) (by omega)
    refine ⟨⟨printPadded 3 n, List.all_eq_true.2 isdigit_printPadded, hlen.le⟩, ?_⟩
    rw [if_pos hms, Fraction.text, if_neg (List.ne_nil_of_length_eq_add_one hlen)]
  · exact ⟨⟨[], rfl, Nat.zero_le 3⟩, if_neg hms⟩

theorem extended_written (c : CivilTime) (h : timezoneFormatTimeIso8601 c.dateTime.tm ms sfx outputSize = some t) :
    ∃ f : Fraction, t = c.extended ++ (f.text ++ sfx) := by
  obtain ⟨hargs, hw⟩ := Option.ite_none_left_eq_some.1 h
  have hw := (Option.ite_none_left_eq_some.1 hw).2
  obtain ⟨f, hf⟩ := exists_fraction (show ms ≤ 999 by omega)
  rw [Option.some.injEq, hf, printed_year, printed_month] at hw
  dsimp only [DateTime.tm, CivilTime.dateTime] at hw
  rw [printPadded_two c.day_lt, printPadded_two c.hour_lt, printPadded_two c.min_lt, printPadded_two c.sec_lt] at hw
  refine ⟨f, ?_⟩
  rw [← hw, CivilTime.extended]
  simp only [List.append_assoc]

/-- The extended form with its fraction and the written time zone. -/
theorem extended_keeps_iff (h0 : -1900 ≤ (gmtime u).year) (h1 : (gmtime u).year < 17100)
    (hw : timezoneFormatTimeIso8601 (gmtime u) ms sfx outputSize = some t) (hz : WrittenZone 0 has offset sfx)
    (hs : timezoneParseToUtc s tz d = .ok (some (u - if has then offset else 0))) :
    (Recognised t → ∃ utc, timezoneParseToUtc t 0 0 = .ok (some utc) ∧ timezoneParseToUtc s tz d = .ok (some utc)) ↔
      u ≠ -1 ∧ InYears u := by
  by_cases hyear : (gmtime u).year ≤ 8099
  · obtain ⟨c, hc, hvalid⟩ := exists_civilTime h0 hyear
    obtain ⟨f, rfl⟩ := extended_written c (hc ▸ hw)
    rw [imp_iff_right (show Recognised _ from .inr (T_mem_extended c _))]
    have hread := timezoneParseToUtc_extended_written c f hz
    rw [hc] at hread
    rw [read_back_iff hread hs, hvalid, inYears_iff, and_iff_left hyear]
  · have hw := Option.some.inj (Option.ite_none_left_eq_some.1 (Option.ite_none_left_eq_some.1 hw).2).2
    simp only [List.append_assoc] at hw
    have hT : capitalT ∈ t := by
      rw [← hw]
      simp only [List.mem_append, show capitalT ∈ str "T" from List.mem_singleton.2 rfl, true_or, or_true]
    rw [imp_iff_right (show Recognised t from .inr hT)]
    obtain ⟨n, hn⟩ := Int.eq_ofNat_of_zero_le (show 0 ≤ (gmtime u).year + 1900 by omega)
    obtain ⟨ds, e, hfive, hfour, -⟩ := printPadded_five (show 10000 ≤ n by omega) (by omega)
    -- the dash behind the year
    have hdash : t[5]? = some dash := by
      rw [← hw, hn, hfive, List.append_assoc, List.getElem?_append_right (by omega), hfour]
      rfl
    refine iff_of_false (not_read_back (timezoneParseToUtc_unscanned hT ?_ (fun ds' heq hdigit hlen => ?_) ?_)) fun h =>
      hyear (inYears_iff.1 h.2).2
    · refine Bool.eq_false_iff.2 fun hbasic => ?_
      have htake : (t.take 8)[5]? = some dash := by rw [List.getElem?_take_of_lt (by decide), hdash]
      exact absurd ((isBasic_of_format hbasic).2 _ (List.mem_of_getElem? htake)) (by decide)
    · rw [heq, List.getElem?_append_left (by omega)] at hdash
      exact absurd (hdigit dash (List.mem_of_getElem? hdash)) (by decide)
    · rw [← hw]
      exact scanIso8601_year_long (by omega) (by omega) _

end

/-! ### Every form -/

section
variable {s t : List UInt8} {tz d : Int} {outputSize : Nat}

/-- What is copied as it stands is of no form. -/
theorem not_recognised_copy (hsize : 64 ≤ outputSize)
    (hunix : ¬ (s.length ≤ 10 ∧ (s.takeWhile isdigit).length = s.length))
    (hdigits : ¬ (s.length = 14 ∧ (s.takeWhile isdigit).length = 14)) (hT : capitalT ∉ s) :
    ¬ Recognised (copyTo outputSize s) := by
  rintro (⟨hlen, hdigit⟩ | hmem)
  · have hcopy : copyTo outputSize s = s := by
      refine List.take_of_length_le ?_
      rw [copyTo, List.length_take] at hlen
      omega
    rw [hcopy] at hlen hdigit
    have hcount : (s.takeWhile isdigit).length = s.length := by rw [List.takeWhile_eq_self_iff.2 hdigit]
    rcases hlen with hshort | h14
    · exact hunix ⟨hshort, hcount⟩
    · exact hdigits ⟨h14, hcount.trans h14⟩
  · exact hT (List.mem_of_mem_take hmem)

theorem exists_of_bind {α β : Type} {x : Except StringFault (Option α)} {f : α → Option β} {b : β}
    (h : x.map (·.bind f) = .ok (some b)) : ∃ a, x = .ok (some a) ∧ f a = some b := by
  cases x with
  | error e => cases h
  | ok y =>
    obtain ⟨a, rfl, hf⟩ := Option.bind_eq_some_iff.1 (Except.ok.inj h)
    exact ⟨a, rfl, hf⟩

theorem formatted_length {tm : Tm} {w : List UInt8} (h : timezoneFormatTimeYyyyMMddHHmmss tm tempTimeSize = some w) :
    w.length < 32 := by
  obtain ⟨-, h⟩ := Option.ite_none_left_eq_some.1 h
  obtain ⟨hlen, h⟩ := Option.ite_none_left_eq_some.1 h
  rw [← Option.some.inj h]
  exact Nat.lt_of_not_le hlen

/-- Fourteen digits, which may have `GMT` behind them. -/
theorem converted_digits_iff (hd : -2 ^ 31 ≤ d ∧ d < 2 ^ 31) (htz : -12 * 3600 ≤ tz ∧ tz ≤ 14 * 3600)
    (hsize : 64 ≤ outputSize) (hs : timezoneParseToUtc s tz d =
      .ok ((scanDigits14 s).bind fun t => toUtc t.tm (if s.length = 17 then 0 else tz) d))
    (hrun : ((scanDigits14 s).bind fun t => if ¬ t.Valid then none
      else (toUtc t.tm (if s.length = 17 then 0 else tz) d).bind fun timestamp =>
        (timezoneFormatTimeYyyyMMddHHmmss (gmtime timestamp) tempTimeSize).map fun tempTime =>
          copyTo outputSize (if s.length = 17 then tempTime ++ str "GMT" else tempTime)) = some t) :
    (Recognised t → ∃ utc, timezoneParseToUtc t 0 0 = .ok (some utc) ∧ timezoneParseToUtc s tz d = .ok (some utc)) ↔
      ∀ t, scanDigits14 s = some t →
        timegm t.tm - (if s.length = 17 then 0 else tz) + d ≠ -1 ∧
          (s.length = 17 → timegm t.tm - (if s.length = 17 then 0 else tz) + d < 253402300800) := by
  obtain ⟨dt, hscan, hrun⟩ := Option.bind_eq_some_iff.1 hrun
  obtain ⟨hvalid, hrun⟩ := Option.ite_none_left_eq_some.1 hrun
  obtain ⟨u, hu, hrun⟩ := Option.bind_eq_some_iff.1 hrun
  obtain ⟨w, hw, rfl⟩ := Option.map_eq_some_iff.1 hrun
  rw [hscan, Option.bind_some, hu] at hs
  have hbounds := moved_bounds (not_not.1 hvalid)
    (show -12 * 3600 ≤ (if s.length = 17 then 0 else tz) ∧ (if s.length = 17 then 0 else tz) ≤ 14 * 3600 by
      split <;> omega) hd hu
  have hlen := formatted_length hw
  have hmoved := (toUtc_eq_some.1 hu).2
  simp only [hscan, Option.some.injEq, forall_eq', hmoved]
  by_cases h17 : s.length = 17
  · have hcopy : copyTo outputSize (w ++ str "GMT") = w ++ str "GMT" :=
      copyTo_of_length (by rw [List.length_append, show (str "GMT").length = 3 from rfl]; omega)
    rw [if_pos h17, hcopy, imp_iff_right h17]
    exact gmt_keeps_iff hbounds.1 hbounds.2 hw hs
  · rw [if_neg h17, copyTo_of_length (by omega), and_iff_left fun h => absurd h h17]
    exact digits14_keeps_iff hbounds.1 hbounds.2 hw hs

/-- The basic form. -/
theorem converted_basic_iff (hd : -2 ^ 31 ≤ d ∧ d < 2 ^ 31) (htz : -12 * 3600 ≤ tz ∧ tz ≤ 14 * 3600)
    (hs : timezoneParseToUtc s tz d = (timezoneParseBasicIso8601 s timezoneSuffixSize).map (·.bind (·.toUtc tz d)))
    (hrun : (timezoneParseBasicIso8601 s timezoneSuffixSize).map (·.bind fun t =>
      (toUtc t.tm (if t.hasTimezone then 0 else tz) d).bind fun timestamp =>
        (timezoneFormatTimeYyyyMMddHHmmss (gmtime timestamp) tempTimeSize).bind fun basicTime =>
          if (basicTime.take 8 ++ str "T" ++ basicTime.drop 8 ++ t.timezoneSuffix).length ≥ outputSize then none
          else some (basicTime.take 8 ++ str "T" ++ basicTime.drop 8 ++ t.timezoneSuffix)) = .ok (some t)) :
    (Recognised t → ∃ utc, timezoneParseToUtc t 0 0 = .ok (some utc) ∧ timezoneParseToUtc s tz d = .ok (some utc)) ↔
      ∀ iso, timezoneParseBasicIso8601 s timezoneSuffixSize = .ok (some iso) →
        timegm iso.tm - (if iso.hasTimezone then 0 else tz) + d ≠ -1 ∧
          InYears (timegm iso.tm - (if iso.hasTimezone then 0 else tz) + d) := by
  obtain ⟨iso, hiso, hrun⟩ := exists_of_bind hrun
  obtain ⟨u, hu, hrun⟩ := Option.bind_eq_some_iff.1 hrun
  obtain ⟨w, hw, hrun⟩ := Option.bind_eq_some_iff.1 hrun
  obtain ⟨-, hrun⟩ := Option.ite_none_left_eq_some.1 hrun
  obtain ⟨⟨dt, hvalid, htm⟩, hzone⟩ := timezoneParseBasicIso8601_parsed hiso
  rw [hiso, Except.map, Option.bind_some, IsoTime.toUtc_moved hu] at hs
  have hmoved := (toUtc_eq_some.1 hu).2
  rw [← htm] at hu
  have hbounds := moved_bounds hvalid
    (show -12 * 3600 ≤ (if iso.hasTimezone then 0 else tz) ∧ (if iso.hasTimezone then 0 else tz) ≤ 14 * 3600 by
      split <;> omega) hd hu
  simp only [hiso, Except.ok.injEq, Option.some.injEq, forall_eq', hmoved]
  exact basic_keeps_iff hbounds.1 hbounds.2 hw hzone (Option.some.inj hrun).symm hs

/-- The extended form. -/
theorem converted_extended_iff (hd : -2 ^ 31 ≤ d ∧ d < 2 ^ 31) (htz : -12 * 3600 ≤ tz ∧ tz ≤ 14 * 3600)
    (hsize : 64 ≤ outputSize)
    (hs : timezoneParseToUtc s tz d = (timezoneParseIso8601 s timezoneSuffixSize).map (·.bind (·.toUtc tz d)))
    (hrun : timezoneConvertIso8601WithOffset s tz d outputSize = .ok (some t)) :
    (Recognised t → ∃ utc, timezoneParseToUtc t 0 0 = .ok (some utc) ∧ timezoneParseToUtc s tz d = .ok (some utc)) ↔
      ∀ iso, timezoneParseIso8601 s timezoneSuffixSize = .ok (some iso) →
        timegm iso.tm - (if iso.hasTimezone then 0 else tz) + d ≠ -1 ∧
          InYears (timegm iso.tm - (if iso.hasTimezone then 0 else tz) + d) := by
  rw [timezoneConvertIso8601WithOffset, if_neg (by omega)] at hrun
  obtain ⟨iso, hiso, hrun⟩ := exists_of_bind hrun
  obtain ⟨u, hu, hw⟩ := Option.bind_eq_some_iff.1 hrun
  obtain ⟨⟨dt, hvalid, htm⟩, hzone⟩ := timezoneParseIso8601_parsed hiso
  rw [hiso, Except.map, Option.bind_some, IsoTime.toUtc_moved hu] at hs
  have hmoved := (toUtc_eq_some.1 hu).2
  rw [← htm] at hu
  have hbounds := moved_bounds hvalid
    (show -12 * 3600 ≤ (if iso.hasTimezone then 0 else tz) ∧ (if iso.hasTimezone then 0 else tz) ≤ 14 * 3600 by
      split <;> omega) hd hu
  simp only [hiso, Except.ok.injEq, Option.some.injEq, forall_eq', hmoved]
  exact extended_keeps_iff hbounds.1 hbounds.2 hw hzone hs

/-- A converted time that is of one of the forms is read back, and as the time that the input with the offsets is read
as, if and only if the moved time, in the frame in which it is written, is not the second before the epoch and is of a
year that the form has. -/
theorem timezoneConvertTimeWithOffset_reads_back_iff (hd : -2 ^ 31 ≤ d ∧ d < 2 ^ 31)
    (hrun : timezoneConvertTimeWithOffset s tz d outputSize = .ok (some t)) :
    (Recognised t → ∃ utc, timezoneParseToUtc t 0 0 = .ok (some utc) ∧ timezoneParseToUtc s tz d = .ok (some utc)) ↔
      KeepsTime s tz d := by
  unfold timezoneConvertTimeWithOffset at hrun
  dsimp only at hrun
  by_cases hsize : outputSize < 64
  · rw [if_pos hsize] at hrun
    cases hrun
  rw [if_neg hsize] at hrun
  by_cases hzone : tz < -12 * 3600 ∨ tz > 14 * 3600
  · rw [if_pos hzone] at hrun
    cases hrun
  rw [if_neg hzone] at hrun
  have htz : -12 * 3600 ≤ tz ∧ tz ≤ 14 * 3600 := by omega
  unfold KeepsTime
  dsimp only
  by_cases hunix : s.length ≤ 10 ∧ (s.takeWhile isdigit).length = s.length
  · rw [if_pos hunix] at hrun ⊢
    have hdigit := isdigit_of_takeWhile hunix.2
    have hval : digitsVal s < 10 ^ 10 :=
      (digitsVal_lt hdigit).trans_le (Nat.pow_le_pow_right (by decide) hunix.1)
    have hlen := length_printInt (show -(10 ^ 13) < digitsVal s + d ∧ digitsVal s + d < 10 ^ 13 by omega)
    rw [copyTo_of_length (by omega)] at hrun
    obtain rfl := Option.some.inj (Except.ok.inj hrun)
    refine iff_of_true (fun hrec => ⟨_, printInt_read (by omega) hrec, ?_⟩) trivial
    exact timezoneParseToUtc_unix hunix.1 hdigit tz d
  rw [if_neg hunix] at hrun ⊢
  by_cases hdigits : (s.length = 14 ∧ (s.takeWhile isdigit).length = 14) ∨
      (s.length = 17 ∧ (s.takeWhile isdigit).length = 14 ∧ s.drop 14 = str "GMT")
  · rw [if_pos hdigits] at hrun ⊢
    refine converted_digits_iff hd htz (by omega) ?_ (Except.ok.inj hrun)
    rw [timezoneParseToUtc, if_neg hunix, if_pos hdigits]
  rw [if_neg hdigits] at hrun ⊢
  by_cases hbasic : isBasicIso8601Format s = true
  · rw [if_pos hbasic] at hrun
    simp only [if_pos hbasic]
    refine converted_basic_iff hd htz ?_ hrun
    rw [timezoneParseToUtc, if_neg hunix, if_neg hdigits, if_pos hbasic]
  rw [if_neg hbasic] at hrun
  simp only [if_neg hbasic]
  by_cases hT : capitalT ∈ s
  · rw [if_pos (show UInt8.ofNat 'T'.toNat ∈ s from hT)] at hrun
    refine converted_extended_iff hd htz (by omega) ?_ hrun
    rw [timezoneParseToUtc, if_neg hunix, if_neg hdigits, if_neg hbasic,
      if_pos (show UInt8.ofNat 'T'.toNat ∈ s from hT)]
  · rw [if_neg (show UInt8.ofNat 'T'.toNat ∉ s from hT)] at hrun
    obtain rfl := Option.some.inj (Except.ok.inj hrun)
    refine iff_of_true (fun hrec => ?_) fun iso hiso => ?_
    · exact absurd hrec (not_recognised_copy (by omega) hunix (not_or.1 hdigits).1 hT)
    · rw [timezoneParseIso8601, if_neg (by decide), if_pos (show UInt8.ofNat 'T'.toNat ∉ s from hT)] at hiso
      cases hiso

theorem timezoneConvertTimeWithOffset_reads_back_iff_example :
    (Recognised (str "20240101121000GMT") →
        ∃ utc, timezoneParseToUtc (str "20240101121000GMT") 0 0 = .ok (some utc) ∧
          timezoneParseToUtc (str "20240101120000GMT") 3600 600 = .ok (some utc)) ↔
      KeepsTime (str "20240101120000GMT") 3600 600 :=
  have hconvert : timezoneConvertTimeWithOffset (str "20240101120000GMT") 3600 600 64 =
    .ok (some (str "20240101121000GMT")) := by decide +kernel
  timezoneConvertTimeWithOffset_reads_back_iff (by decide) hconvert

/-- The second before the epoch is written, and refused where it is read. -/
theorem timezoneConvertTimeWithOffset_not_read_back :
    ¬ ∀ (s t : List UInt8) (tz d : Int) (outputSize : Nat), -2 ^ 31 ≤ d ∧ d < 2 ^ 31 →
      timezoneConvertTimeWithOffset s tz d outputSize = .ok (some t) → Recognised t →
        ∃ utc, timezoneParseToUtc t 0 0 = .ok (some utc) ∧ timezoneParseToUtc s tz d = .ok (some utc) := by
  intro h
  have hconvert : timezoneConvertTimeWithOffset (str "19700101000000") 0 (-1) 64 =
      .ok (some (str "19691231235959")) := by decide +kernel
  have hrefused : timezoneParseToUtc (str "19691231235959") 0 0 = .ok none := by decide +kernel
  obtain ⟨utc, hread, -⟩ := h _ _ _ _ _ (by decide) hconvert (.inl ⟨.inr rfl, by decide +kernel⟩)
  rw [hrefused] at hread
  cases hread

end

end Rtp2httpd
