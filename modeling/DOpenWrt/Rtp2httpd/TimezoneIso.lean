import DOpenWrt.Lib.Calendar
import DOpenWrt.Rtp2httpd.Timezone

/-!
# ISO 8601 times

The parser of the extended form goes on at character 19 of the string whatever the fields scanned before were, so it
leaves a string that is shorter. Of an offset without a colon it takes the second digit of the minutes for all of
them.
-/

namespace Rtp2httpd
open CString

/-! ### Reads -/

section
variable {isoStr : List UInt8} {p : Nat} {c : UInt8}

theorem charAt_isOk : (∃ c, charAt isoStr p = .ok c) ↔ p ≤ isoStr.length := by
  unfold charAt
  split
  · next h => exact iff_of_true ⟨_, rfl⟩ h
  · next h => exact iff_of_false (fun ⟨c, hc⟩ => by cases hc) h

theorem strAt_ok (h : p ≤ isoStr.length) : strAt isoStr p = .ok (isoStr.drop p) := if_pos h

theorem charAt_ok (h : p ≤ isoStr.length) : charAt isoStr p = .ok (isoStr.getD p 0) := if_pos h

/-- The fraction ends in the string. -/
theorem isoFraction_ok (h : 19 ≤ isoStr.length) : ∃ ms p, isoFraction isoStr (isoStr.getD 19 0) = .ok (ms, p) ∧
    p ≤ isoStr.length := by
  unfold isoFraction
  split
  · next hdot =>
    -- the terminator is no point
    have h20 : 20 ≤ isoStr.length := by
      by_contra hlt
      rw [List.getD_eq_getElem?_getD, List.getElem?_eq_none (by omega)] at hdot
      exact absurd hdot (by decide)
    rw [strAt_ok h20]
    refine ⟨_, _, rfl, ?_⟩
    split
    · exact h20
    · next ms rest hscan =>
      have hrest := scanInt_length hscan
      rw [List.length_drop] at hrest
      dsimp only
      rw [List.length_drop]
      omega
  · exact ⟨_, _, rfl, h⟩

theorem isoTimezone_ok (h : p ≤ isoStr.length) (c : UInt8) : ∃ tz, isoTimezone isoStr p c = .ok tz := by
  unfold isoTimezone
  split
  · exact ⟨_, rfl⟩
  · split
    · rw [strAt_ok h]
      exact ⟨_, rfl⟩
    · exact ⟨_, rfl⟩

/-- `timezone_parse_iso8601` stays in the string if and only if the string has 19 characters, or the parse ends
before they are asked for: six fields were not scanned, or not in their ranges. -/
theorem timezoneParseIso8601_reads_iff (isoStr : List UInt8) (suffixSize : Nat) :
    (∃ result, timezoneParseIso8601 isoStr suffixSize = .ok result) ↔
      (7 ≤ suffixSize → UInt8.ofNat 'T'.toNat ∈ isoStr → (∃ t, scanIso8601 isoStr = some t ∧ t.Valid) →
        19 ≤ isoStr.length) := by
  unfold timezoneParseIso8601
  split
  · next hsize => exact iff_of_true ⟨_, rfl⟩ fun h => absurd h (by omega)
  · next hsize =>
    split
    · next hT => exact iff_of_true ⟨_, rfl⟩ fun _ h => absurd h hT
    · next hT =>
      split
      · next hscan => exact iff_of_true ⟨_, rfl⟩ fun _ _ ⟨t, ht, _⟩ => by rw [hscan] at ht; cases ht
      · next t hscan =>
        split
        · next hvalid =>
          refine iff_of_true ⟨_, rfl⟩ fun _ _ ⟨t', ht', hvalid'⟩ => ?_
          rw [hscan] at ht'
          cases ht'
          exact absurd hvalid' hvalid
        · next hvalid =>
          constructor
          · rintro ⟨result, hrun⟩ - - -
            cases hc : charAt isoStr 19 with
            | error e =>
              rw [hc] at hrun
              cases hrun
            | ok c => exact charAt_isOk.1 ⟨c, hc⟩
          · intro hlen
            have h19 := hlen (by omega) (not_not.1 hT) ⟨t, hscan, not_not.1 hvalid⟩
            obtain ⟨ms, p, hfraction, hp⟩ := isoFraction_ok h19
            obtain ⟨tz, htz⟩ := isoTimezone_ok hp (isoStr.getD p 0)
            simp only [charAt_ok h19, hfraction, charAt_ok hp, htz, bind, Except.bind]
            exact ⟨_, rfl⟩

/-- Fields of one digit. -/
theorem timezoneParseIso8601_overread :
    ¬ ∃ result, timezoneParseIso8601 (str "2024-1-1T0:0:0") timezoneSuffixSize = .ok result := by
  rintro ⟨result, h⟩
  have hfault : timezoneParseIso8601 (str "2024-1-1T0:0:0") timezoneSuffixSize = .error .pastTerminator := by
    decide +kernel
  rw [h] at hfault
  cases hfault

end

/-! ### Civil times -/

/-- A date and a time of day by their digits. -/
structure CivilTime where
  year : Nat
  month : Nat
  day : Nat
  hour : Nat
  min : Nat
  sec : Nat
  year_lt : year < 10000
  month_lt : month < 100
  day_lt : day < 100
  hour_lt : hour < 100
  min_lt : min < 100
  sec_lt : sec < 100

/-- The fraction of the seconds by its digits, none for no fraction. -/
structure Fraction where
  digits : List UInt8
  isDigits : digits.all isdigit = true
  length_le : digits.length ≤ 3

/-- What is written of the time zone: `Z`, or a sign and two digits each of hours and minutes, with or without a
colon. -/
inductive IsoSuffix where
  | utc
  | offset (negative colon : Bool) (hours minutes : Nat) (hours_lt : hours < 100) (minutes_lt : minutes < 100)

def fourDigits (n : Nat) : List UInt8 := twoDigits (n / 100) ++ twoDigits (n % 100)

/-- `YYYY-MM-DDTHH:MM:SS`. -/
def CivilTime.extended (t : CivilTime) : List UInt8 :=
  fourDigits t.year ++ str "-" ++ twoDigits t.month ++ str "-" ++ twoDigits t.day ++ str "T" ++ twoDigits t.hour ++
    str ":" ++ twoDigits t.min ++ str ":" ++ twoDigits t.sec

/-- `YYYYMMDDTHHMMSS`. -/
def CivilTime.basic (t : CivilTime) : List UInt8 :=
  fourDigits t.year ++ twoDigits t.month ++ twoDigits t.day ++ str "T" ++ twoDigits t.hour ++ twoDigits t.min ++
    twoDigits t.sec

def Fraction.text (f : Fraction) : List UInt8 := if f.digits = [] then [] else str "." ++ f.digits

def signText (negative : Bool) : List UInt8 := if negative then str "-" else str "+"

def IsoSuffix.text : IsoSuffix → List UInt8
  | .utc => str "Z"
  | .offset negative colon hours minutes _ _ =>
    signText negative ++ twoDigits hours ++ (if colon then str ":" else []) ++ twoDigits minutes

/-- The offset that is written, in seconds. -/
def IsoSuffix.seconds : IsoSuffix → Int
  | .utc => 0
  | .offset negative _ hours minutes _ _ => (if negative then -1 else 1) * (hours * 3600 + minutes * 60)

/-- The seconds from the epoch to a civil time in UTC. -/
def CivilTime.epoch (t : CivilTime) : Int :=
  (Calendar.dayNumber t.year t.month t.day - Calendar.dayNumber 1970 1 1 : Int) * 86400 + t.hour * 3600 + t.min * 60 +
    t.sec

/-! ### Digits -/

section
variable {n width : Nat} {ds rest : List UInt8}

theorem isdigit_ofNat (h : n < 10) : isdigit (UInt8.ofNat (48 + n)) = true := by
  interval_cases n <;> decide

theorem twoDigits_isdigit (h : n < 100) : ∀ c ∈ twoDigits n, isdigit c = true := by
  unfold twoDigits
  simp only [List.forall_mem_cons, List.not_mem_nil, false_imp_iff, implies_true, and_true]
  exact ⟨isdigit_ofNat (by omega), isdigit_ofNat (by omega)⟩

theorem fourDigits_isdigit (h : n < 10000) : ∀ c ∈ fourDigits n, isdigit c = true :=
  List.forall_mem_append.2 ⟨twoDigits_isdigit (by omega), twoDigits_isdigit (by omega)⟩

theorem toNat_ofNat_digit (h : n < 10) : (UInt8.ofNat (48 + n)).toNat = 48 + n := by
  rw [UInt8.toNat_ofNat']
  omega

theorem length_twoDigits (n : Nat) : (twoDigits n).length = 2 := rfl

theorem length_fourDigits (n : Nat) : (fourDigits n).length = 4 := rfl

theorem digitsVal_twoDigits (h : n < 100) : digitsVal (twoDigits n) = n := by
  unfold digitsVal twoDigits
  rw [List.foldl_cons, List.foldl_cons, List.foldl_nil, toNat_ofNat_digit (by omega), toNat_ofNat_digit (by omega)]
  have h0 : '0'.toNat = 48 := rfl
  omega

theorem digitsVal_fourDigits (h : n < 10000) : digitsVal (fourDigits n) = n := by
  unfold digitsVal fourDigits twoDigits
  simp only [List.cons_append, List.nil_append, List.foldl_cons, List.foldl_nil]
  rw [toNat_ofNat_digit (by omega), toNat_ofNat_digit (by omega), toNat_ofNat_digit (by omega),
    toNat_ofNat_digit (by omega)]
  have h0 : '0'.toNat = 48 := rfl
  omega

theorem scanInt_two (h : n < 100) (rest : List UInt8) : scanInt 2 (twoDigits n ++ rest) = some ((n : Int), rest) := by
  rw [scanInt_digits (twoDigits_isdigit h) (by simp [twoDigits]) (length_twoDigits n).le (.inl (length_twoDigits n)),
    digitsVal_twoDigits h]

theorem scanInt_four (h : n < 10000) (rest : List UInt8) :
    scanInt 4 (fourDigits n ++ rest) = some ((n : Int), rest) := by
  rw [scanInt_digits (fourDigits_isdigit h) (by simp [fourDigits, twoDigits]) (length_fourDigits n).le
    (.inl (length_fourDigits n)), digitsVal_fourDigits h]

/-- Two digits behind their sign. -/
theorem scanInt_signed (negative : Bool) (h : n < 100) (rest : List UInt8) :
    scanInt 3 (signText negative ++ (twoDigits n ++ rest)) = some ((if negative then -n else n : Int), rest) := by
  unfold scanInt
  have hsign : scanSign 3 ((signText negative ++ (twoDigits n ++ rest)).dropWhile isspace) =
      (negative, 2, twoDigits n ++ rest) := by
    cases negative <;> rfl
  rw [hsign]
  dsimp only
  rw [takeWhile_digits (twoDigits_isdigit h) (length_twoDigits n).le (.inl (length_twoDigits n)),
    if_neg (by simp [twoDigits]), List.drop_left' rfl, digitsVal_twoDigits h]

end

/-! ### The scanned fields -/

def CivilTime.dateTime (t : CivilTime) : DateTime := ⟨t.year, t.month, t.day, t.hour, t.min, t.sec⟩

section
variable (t : CivilTime) (rest : List UInt8)

theorem scanLit_dash (rest : List UInt8) : scanLit '-' (str "-" ++ rest) = some rest := rfl

theorem scanLit_colon (rest : List UInt8) : scanLit ':' (str ":" ++ rest) = some rest := rfl

theorem scanLit_T (rest : List UInt8) : scanLit 'T' (str "T" ++ rest) = some rest := rfl

theorem scanIso8601_extended : scanIso8601 (t.extended ++ rest) = some t.dateTime := by
  unfold scanIso8601 CivilTime.extended
  simp only [List.append_assoc, scanInt_four t.year_lt, scanInt_two t.month_lt, scanInt_two t.day_lt,
    scanInt_two t.hour_lt, scanInt_two t.min_lt, scanInt_two t.sec_lt, scanLit_dash, scanLit_colon, scanLit_T,
    Option.bind_eq_bind, Option.bind_some]
  rfl

theorem scanBasicIso8601_basic : scanBasicIso8601 (t.basic ++ rest) = some t.dateTime := by
  unfold scanBasicIso8601 CivilTime.basic
  simp only [List.append_assoc, scanInt_four t.year_lt, scanInt_two t.month_lt, scanInt_two t.day_lt,
    scanInt_two t.hour_lt, scanInt_two t.min_lt, scanInt_two t.sec_lt, scanLit_T, Option.bind_eq_bind, Option.bind_some]
  rfl

end

/-! ### What is read of the suffix -/

/-- The offset the extended parser takes: of minutes without a colon `%c` takes the first digit. -/
def IsoSuffix.read : IsoSuffix → Option Int
  | .utc => some 0
  | .offset negative colon hours minutes _ _ =>
    let minutes := if colon then minutes else minutes % 10
    if hours ≤ 14 ∧ minutes ≤ 59 then some ((if negative then -1 else 1) * (hours * 3600 + minutes * 60)) else none

/-- The offset the basic parser takes: it asks for the colon. -/
def IsoSuffix.readBasic : IsoSuffix → Option Int
  | .utc => some 0
  | .offset negative colon hours minutes _ _ =>
    if colon ∧ hours ≤ 14 ∧ minutes ≤ 59 then some ((if negative then -1 else 1) * (hours * 3600 + minutes * 60))
    else none

section
variable {isoStr : List UInt8} {p : Nat}

theorem scanLit_twoDigits {n : Nat} (h : n < 100) (rest : List UInt8) : scanLit ':' (twoDigits n ++ rest) = none := by
  have hd : (UInt8.ofNat (48 + n / 10)).toNat = 48 + n / 10 := toNat_ofNat_digit (by omega)
  have hc : ':'.toNat = 58 := rfl
  rw [twoDigits, List.cons_append, scanLit, if_neg (by omega)]

theorem scanColonOffset_colon {hours minutes : Nat} (negative : Bool) (hh : hours < 100) (hm : minutes < 100) :
    scanColonOffset 3 (signText negative ++ (twoDigits hours ++ (str ":" ++ twoDigits minutes))) =
      some ((if negative then -hours else hours : Int), (minutes : Int)) := by
  have hmin := scanInt_two hm []
  rw [List.append_nil] at hmin
  unfold scanColonOffset
  simp only [scanInt_signed negative hh, scanLit_colon, hmin, Option.bind_eq_bind, Option.bind_some]

/-- Without a colon `%3d:%2d` fails, and `%3d%c%2d` loses the first digit of the minutes. -/
theorem scanOffset_plain {hours minutes : Nat} (negative : Bool) (hh : hours < 100) (hm : minutes < 100) :
    scanColonOffset 3 (signText negative ++ (twoDigits hours ++ twoDigits minutes)) = none ∧
      scanCharOffset (signText negative ++ (twoDigits hours ++ twoDigits minutes)) =
        some ((if negative then -hours else hours : Int), ((minutes % 10 : Nat) : Int)) := by
  have hlit := scanLit_twoDigits hm []
  rw [List.append_nil] at hlit
  have hlast : scanInt 2 [UInt8.ofNat (48 + minutes % 10)] = some (((minutes % 10 : Nat) : Int), []) := by
    have hdigit : ∀ c ∈ [UInt8.ofNat (48 + minutes % 10)], isdigit c = true :=
      List.forall_mem_singleton.2 (isdigit_ofNat (by omega))
    have hscan := scanInt_digits hdigit (List.cons_ne_nil _ _) (by decide : 1 ≤ 2) (.inr rfl : _ ∨ [].head?.any isdigit = false)
    have hval : digitsVal [UInt8.ofNat (48 + minutes % 10)] = minutes % 10 := by
      rw [digitsVal, List.foldl_cons, List.foldl_nil, toNat_ofNat_digit (by omega), Nat.zero_mul, Nat.zero_add]
      exact Nat.add_sub_cancel_left ..
    rwa [hval] at hscan
  unfold scanColonOffset scanCharOffset
  simp only [scanInt_signed negative hh, Option.bind_eq_bind, Option.bind_some, hlit, Option.bind_none, true_and]
  rw [twoDigits, scanChar, Option.bind_some, hlast, Option.bind_some]

/-- What the two patterns give together. -/
theorem scanOffset_text {hours minutes : Nat} (negative colon : Bool) (hh : hours < 100) (hm : minutes < 100) :
    (scanColonOffset 3 (IsoSuffix.offset negative colon hours minutes hh hm).text).or
        (scanCharOffset (IsoSuffix.offset negative colon hours minutes hh hm).text) =
      some ((if negative then -hours else hours : Int), ((if colon then minutes else minutes % 10 : Nat) : Int)) := by
  unfold IsoSuffix.text
  cases colon with
  | true =>
    dsimp only
    rw [if_pos rfl, List.append_assoc, List.append_assoc, scanColonOffset_colon negative hh hm]
    rfl
  | false =>
    obtain ⟨hcolon, hchar⟩ := scanOffset_plain negative hh hm
    dsimp only
    rw [if_neg Bool.false_ne_true, List.append_nil, List.append_assoc, hcolon, hchar]
    rfl

theorem getD_of_drop {c : UInt8} {tail : List UInt8} (hs : isoStr.drop p = c :: tail) : isoStr.getD p 0 = c := by
  have hget : (isoStr.drop p)[0]? = isoStr[p]? := by rw [List.getElem?_drop, Nat.add_zero]
  rw [hs] at hget
  rw [List.getD_eq_getElem?_getD, ← hget]
  rfl

theorem isoTimezone_text {s : IsoSuffix} (hp : p ≤ isoStr.length) (hs : isoStr.drop p = s.text) :
    ∃ text, isoTimezone isoStr p (isoStr.getD p 0) = .ok (s.read.map fun offset => (true, offset, text)) := by
  cases s with
  | utc =>
    rw [getD_of_drop hs]
    exact ⟨str "Z", rfl⟩
  | offset negative colon hours minutes hh hm =>
    have hscan := scanOffset_text negative colon hh hm
    have hcons : ∃ c tail, (IsoSuffix.offset negative colon hours minutes hh hm).text = c :: tail ∧ c.toNat ≠ 'Z'.toNat ∧
        isSign c = true ∧ signOf c = if negative then -1 else 1 := by
      cases negative <;> exact ⟨_, _, rfl, by decide, by decide, by decide⟩
    obtain ⟨c, tail, htext, hZ, hsign, hval⟩ := hcons
    rw [getD_of_drop (hs.trans htext)]
    unfold isoTimezone
    rw [if_neg hZ, if_pos hsign, strAt_ok hp, hs, Except.map, hscan]
    dsimp only
    have habs : ((if negative then -(hours : Int) else hours).natAbs) = hours := by cases negative <;> simp
    rw [habs, hval]
    unfold IsoSuffix.read
    dsimp only
    generalize (if colon = true then minutes else minutes % 10) = m
    refine ⟨offsetSuffix c hours m, ?_⟩
    by_cases hfits : hours ≤ 14 ∧ m ≤ 59
    · rw [if_neg (by omega), if_pos hfits]
      rfl
    · rw [if_pos (by omega), if_neg hfits]
      rfl

/-- A suffix begins with neither a digit nor a point. -/
theorem suffix_head (s : IsoSuffix) : ∃ c tail, s.text = c :: tail ∧ isdigit c = false ∧ c.toNat ≠ '.'.toNat := by
  cases s with
  | utc => exact ⟨_, _, rfl, by decide, by decide⟩
  | offset negative colon hours minutes hh hm =>
    cases negative <;> exact ⟨_, _, rfl, by decide, by decide⟩

/-- The fraction is read where neither a digit nor a point follows it. -/
theorem isoFraction_rest {f : Fraction} {rest : List UInt8} (hdigit : rest.head?.any isdigit = false)
    (hdot : ∀ c ∈ rest.head?, c.toNat ≠ '.'.toNat) (hs : isoStr.drop 19 = f.text ++ rest) :
    ∃ ms, isoFraction isoStr (isoStr.getD 19 0) = .ok (ms, 19 + f.text.length) := by
  unfold Fraction.text at hs ⊢
  split at hs
  · next hnil =>
    rw [if_pos hnil]
    have hc : (isoStr.getD 19 0).toNat ≠ '.'.toNat := by
      cases rest with
      | nil =>
        have hlen : isoStr.length ≤ 19 := by simpa using hs
        rw [List.getD_eq_getElem?_getD, List.getElem?_eq_none hlen]
        decide
      | cons c tail =>
        rw [getD_of_drop hs]
        exact hdot c rfl
    rw [isoFraction, if_neg hc]
    exact ⟨_, rfl⟩
  · next hne =>
    have hpoint : isoStr.drop 19 = UInt8.ofNat '.'.toNat :: (f.digits ++ rest) := hs
    have hrest : isoStr.drop 20 = f.digits ++ rest := by
      rw [← List.drop_drop (i := 1) (j := 19), hpoint]
      rfl
    have hlen : 20 ≤ isoStr.length := by
      have := congrArg List.length hpoint
      rw [List.length_drop, List.length_cons] at this
      omega
    have hscan : scanInt 3 (f.digits ++ rest) = some ((digitsVal f.digits : Int), rest) :=
      scanInt_digits (List.all_eq_true.1 f.isDigits) hne f.length_le (.inr hdigit)
    rw [if_neg hne, getD_of_drop hpoint, isoFraction, if_pos (by decide), strAt_ok hlen, hrest, Except.map, hscan]
    dsimp only
    rw [List.length_append, Nat.add_sub_cancel_right]
    refine ⟨_, congrArg (fun p => Except.ok (_, p)) ?_⟩
    rw [List.length_append]
    exact (Nat.add_assoc 19 1 _)

theorem isoFraction_text {f : Fraction} {s : IsoSuffix} (hs : isoStr.drop 19 = f.text ++ s.text) :
    ∃ ms, isoFraction isoStr (isoStr.getD 19 0) = .ok (ms, 19 + f.text.length) := by
  obtain ⟨c, tail, hc, hdigit, hdot⟩ := suffix_head s
  refine isoFraction_rest ?_ ?_ hs <;> rw [hc]
  · exact hdigit
  · exact fun c' hc' => Option.some.inj hc' ▸ hdot

end

section
variable (t : CivilTime) (f : Fraction) (s : IsoSuffix)

theorem length_extended : t.extended.length = 19 := rfl

theorem length_basic : t.basic.length = 15 := rfl

theorem T_mem_extended (rest : List UInt8) : UInt8.ofNat 'T'.toNat ∈ t.extended ++ rest := by
  have hT : UInt8.ofNat 'T'.toNat ∈ str "T" := by decide
  unfold CivilTime.extended
  simp only [List.mem_append, hT, true_or, or_true]

theorem timezoneParseIso8601_text : ∃ ms text,
    timezoneParseIso8601 (t.extended ++ (f.text ++ s.text)) timezoneSuffixSize = .ok (if t.dateTime.Valid then
      s.read.map fun offset => ⟨t.dateTime.tm, ms, true, offset, text⟩ else none) := by
  have hdrop : (t.extended ++ (f.text ++ s.text)).drop 19 = f.text ++ s.text := List.drop_left' (length_extended t)
  have hdrop' : (t.extended ++ (f.text ++ s.text)).drop (19 + f.text.length) = s.text := by
    rw [← List.drop_drop, hdrop, List.drop_left' rfl]
  have hlen : (t.extended ++ (f.text ++ s.text)).length = 19 + f.text.length + s.text.length := by
    rw [List.length_append, List.length_append, length_extended, Nat.add_assoc]
  obtain ⟨ms, hfraction⟩ := isoFraction_text hdrop
  obtain ⟨text, htimezone⟩ := isoTimezone_text (by omega) hdrop'
  unfold timezoneParseIso8601
  rw [if_neg (by decide), if_neg (not_not.2 (T_mem_extended t _)), scanIso8601_extended]
  dsimp only
  refine ⟨ms, text.take (timezoneSuffixSize - 1), ?_⟩
  by_cases hvalid : t.dateTime.Valid
  · rw [if_neg (not_not.2 hvalid)]
    simp only [charAt_ok (show 19 ≤ (t.extended ++ (f.text ++ s.text)).length by omega), hfraction,
      charAt_ok (show 19 + f.text.length ≤ (t.extended ++ (f.text ++ s.text)).length by omega), htimezone, bind,
      Except.bind, if_pos hvalid, Option.map_map]
    rfl
  · rw [if_pos hvalid, if_neg hvalid]

/-- The extended form as `timezone_parse_to_utc` reads it. -/
theorem timezoneParseToUtc_extended (tzOffsetSeconds additionalOffsetSeconds : Int) :
    timezoneParseToUtc (t.extended ++ (f.text ++ s.text)) tzOffsetSeconds additionalOffsetSeconds =
      .ok (if t.dateTime.Valid then s.read.bind fun offset => toUtc t.dateTime.tm offset additionalOffsetSeconds
        else none) := by
  have hlen : 20 ≤ (t.extended ++ (f.text ++ s.text)).length := by
    obtain ⟨c, tail, hc, -⟩ := suffix_head s
    rw [List.length_append, List.length_append, length_extended, hc, List.length_cons]
    omega
  have hbasic : isBasicIso8601Format (t.extended ++ (f.text ++ s.text)) = false := by
    have htake : (t.extended ++ (f.text ++ s.text)).take 8 =
        fourDigits t.year ++ str "-" ++ twoDigits t.month ++ str "-" := rfl
    refine decide_eq_false fun h => ?_
    have hdash := List.all_eq_true.1 h.2.2.1 (UInt8.ofNat '-'.toNat) (by
      rw [htake]
      exact List.mem_append_right _ (by decide))
    exact absurd hdash (by decide)
  obtain ⟨ms, text, hparse⟩ := timezoneParseIso8601_text t f s
  unfold timezoneParseToUtc
  dsimp only
  rw [if_neg (by omega), if_neg (by omega), if_neg (by simp [hbasic]), if_pos (T_mem_extended t _), hparse, Except.map]
  split
  · cases s.read <;> rfl
  · rfl

theorem basicTimezone_text : ∃ text, basicTimezone (t.basic ++ s.text) ((t.basic ++ s.text).getD 15 0) =
    .ok (s.readBasic.map fun offset => (true, offset, text)) := by
  have hdrop : (t.basic ++ s.text).drop 15 = s.text := List.drop_left' (length_basic t)
  cases s with
  | utc =>
    rw [getD_of_drop hdrop]
    exact ⟨str "Z", rfl⟩
  | offset negative colon hours minutes hh hm =>
    have hcons : ∃ c, (IsoSuffix.offset negative colon hours minutes hh hm).text =
        c :: (twoDigits hours ++ ((if colon then str ":" else []) ++ twoDigits minutes)) ∧ c.toNat ≠ 'Z'.toNat ∧
        isSign c = true ∧ signOf c = if negative then -1 else 1 := by
      cases negative <;> cases colon <;> exact ⟨_, rfl, by decide, by decide, by decide⟩
    obtain ⟨c, htext, hZ, hsign, hval⟩ := hcons
    have hrest : (t.basic ++ (IsoSuffix.offset negative colon hours minutes hh hm).text).drop 16 =
        twoDigits hours ++ ((if colon then str ":" else []) ++ twoDigits minutes) := by
      rw [← List.drop_drop (i := 1) (j := 15), hdrop, htext]
      rfl
    have hlen : 16 ≤ (t.basic ++ (IsoSuffix.offset negative colon hours minutes hh hm).text).length := by
      rw [List.length_append, length_basic, htext, List.length_cons]
      omega
    rw [getD_of_drop (hdrop.trans htext)]
    unfold basicTimezone IsoSuffix.readBasic
    rw [if_neg hZ, if_pos hsign, strAt_ok hlen, hrest, Except.map, hval]
    dsimp only
    unfold scanColonOffset
    cases colon with
    | true =>
      have hmin := scanInt_two hm []
      rw [List.append_nil] at hmin
      simp only [scanInt_two hh, if_true, scanLit_colon, hmin, Option.bind_eq_bind, Option.bind_some, true_and]
      refine ⟨offsetSuffix c hours minutes, ?_⟩
      by_cases hfits : hours ≤ 14 ∧ minutes ≤ 59
      · rw [if_neg (by omega), if_pos hfits]
        rfl
      · rw [if_pos (by omega), if_neg hfits]
        rfl
    | false =>
      have hlit := scanLit_twoDigits hm []
      rw [List.append_nil] at hlit
      simp only [scanInt_two hh, Bool.false_eq_true, if_false, List.nil_append, hlit, Option.bind_eq_bind,
        Option.bind_some, Option.bind_none, false_and]
      exact ⟨[], rfl⟩

theorem isBasicIso8601Format_basic (rest : List UInt8) : isBasicIso8601Format (t.basic ++ rest) = true := by
  have htake : (t.basic ++ rest).take 8 = fourDigits t.year ++ (twoDigits t.month ++ twoDigits t.day) := rfl
  have htime : ((t.basic ++ rest).drop 9).take 6 = twoDigits t.hour ++ (twoDigits t.min ++ twoDigits t.sec) := rfl
  have hlen : 15 ≤ (t.basic ++ rest).length := by
    rw [List.length_append, length_basic]
    omega
  refine decide_eq_true ⟨hlen, rfl, ?_, ?_⟩
  · rw [htake, List.all_eq_true]
    exact List.forall_mem_append.2 ⟨fourDigits_isdigit t.year_lt,
      List.forall_mem_append.2 ⟨twoDigits_isdigit t.month_lt, twoDigits_isdigit t.day_lt⟩⟩
  · rw [htime, List.all_eq_true]
    exact List.forall_mem_append.2 ⟨twoDigits_isdigit t.hour_lt,
      List.forall_mem_append.2 ⟨twoDigits_isdigit t.min_lt, twoDigits_isdigit t.sec_lt⟩⟩

/-- The basic form as `timezone_parse_to_utc` reads it. -/
theorem timezoneParseToUtc_basic (tzOffsetSeconds additionalOffsetSeconds : Int) :
    timezoneParseToUtc (t.basic ++ s.text) tzOffsetSeconds additionalOffsetSeconds =
      .ok (if t.dateTime.Valid then s.readBasic.bind fun offset => toUtc t.dateTime.tm offset additionalOffsetSeconds
        else none) := by
  have hsuffix : s.text.length = 1 ∨ s.text.length = 5 ∨ s.text.length = 6 := by
    cases s with
    | utc => exact .inl rfl
    | offset negative colon hours minutes hh hm => cases negative <;> cases colon <;> simp [IsoSuffix.text, signText, str, twoDigits]
  have hlen : (t.basic ++ s.text).length = 15 + s.text.length := by rw [List.length_append, length_basic]
  obtain ⟨text, htimezone⟩ := basicTimezone_text t s
  unfold timezoneParseToUtc
  dsimp only
  rw [if_neg (by omega), if_neg (by omega), if_pos (isBasicIso8601Format_basic t _)]
  unfold timezoneParseBasicIso8601
  rw [if_neg (by decide), scanBasicIso8601_basic]
  dsimp only
  by_cases hvalid : t.dateTime.Valid
  · rw [if_neg (not_not.2 hvalid), if_pos hvalid]
    simp only [charAt_ok (show 15 ≤ (t.basic ++ s.text).length by omega), htimezone, bind, Except.bind, Except.map]
    cases s.readBasic <;> rfl
  · rw [if_pos hvalid, if_neg hvalid]
    rfl

end

/-- `timegm` counts the days of the calendar. -/
theorem timegm_eq_epoch (t : CivilTime) (h0 : 1 ≤ t.month) (h1 : t.month ≤ 12) : timegm t.dateTime.tm = t.epoch := by
  have hyear := Calendar.daysBeforeYear_eq t.year
  have h1970 := Calendar.daysBeforeYear_eq 1970
  have hmonth := Calendar.daysBeforeMonth_eq (y := t.year) h0 h1
  have hjanuary : Calendar.daysBeforeMonth 1970 1 = 0 := rfl
  have hmon : (t.month - 1 : Int) / 12 = 0 ∧ (t.month - 1 : Int) % 12 = ((t.month - 1 : Nat) : Int) := by omega
  have hdays : daysBeforeMon.getD (t.month - 1) 0 =
      (([0, 31, 59, 90, 120, 151, 181, 212, 243, 273, 304, 334].getD (t.month - 1) 0 : Nat) : Int) := by
    interval_cases t.month <;> rfl
  have hleap : ((t.year : Int) - 1900 + 0 + 1900) % 4 = 0 ∧ (((t.year : Int) - 1900 + 0 + 1900) % 100 ≠ 0 ∨
      ((t.year : Int) - 1900 + 0 + 1900) % 400 = 0) ↔ Calendar.IsLeap t.year := by
    unfold Calendar.IsLeap
    omega
  unfold timegm CivilTime.epoch Calendar.dayNumber CivilTime.dateTime DateTime.tm
  dsimp only
  rw [hmon.1, hmon.2, Int.toNat_natCast, hdays]
  simp only [hleap]
  -- the leap day is counted from March on
  have hmarch : (2 ≤ t.month - 1 ∧ Calendar.IsLeap t.year) ↔ (3 ≤ t.month ∧ Calendar.IsLeap t.year) :=
    and_congr_left' (by omega)
  simp only [hmarch]
  rw [hjanuary]
  by_cases hday : 3 ≤ t.month ∧ Calendar.IsLeap t.year
  · rw [if_pos hday] at hmonth ⊢
    omega
  · rw [if_neg hday] at hmonth ⊢
    omega

/-! ### Offsets -/

/-- The offset loses the tens of its minutes: it is written without a colon, and has tens. -/
def IsoSuffix.LosesMinutes : IsoSuffix → Prop
  | .utc => False
  | .offset _ colon hours minutes _ _ => colon = false ∧ hours ≤ 14 ∧ 10 ≤ minutes

instance IsoSuffix.decidableLosesMinutes : (s : IsoSuffix) → Decidable s.LosesMinutes
  | .utc => inferInstanceAs (Decidable False)
  | .offset .. => inferInstanceAs (Decidable (_ ∧ _))

theorem IsoSuffix.read_eq_seconds_iff {s : IsoSuffix} : (∀ offset, s.read = some offset → offset = s.seconds) ↔
    ¬ s.LosesMinutes := by
  cases s with
  | utc => exact iff_of_true (fun offset h => (Option.some.inj h).symm) not_false
  | offset negative colon hours minutes hh hm =>
    unfold IsoSuffix.read IsoSuffix.seconds IsoSuffix.LosesMinutes
    dsimp only
    constructor
    · rintro hread ⟨hcolon, hhours, hminutes⟩
      rw [hcolon, if_neg Bool.false_ne_true, if_pos ⟨hhours, by omega⟩] at hread
      have heq := hread _ rfl
      cases negative
      · rw [if_neg Bool.false_ne_true] at heq
        omega
      · rw [if_pos rfl] at heq
        omega
    · intro hkeeps offset h
      obtain ⟨hfits, heq⟩ := Option.ite_none_right_eq_some.1 h
      rw [← Option.some.inj heq]
      cases colon with
      | true => rw [if_pos rfl]
      | false =>
        have hmin : minutes % 10 = minutes := Nat.mod_eq_of_lt (by
          by_contra hge
          exact hkeeps ⟨rfl, hfits.1, by omega⟩)
        rw [if_neg Bool.false_ne_true, hmin]

theorem IsoSuffix.readBasic_eq_seconds {s : IsoSuffix} {offset : Int} (h : s.readBasic = some offset) :
    offset = s.seconds := by
  cases s with
  | utc => exact (Option.some.inj h).symm
  | offset negative colon hours minutes hh hm => exact (Option.some.inj (Option.ite_none_right_eq_some.1 h).2).symm

theorem toUtc_eq_some {tm : Tm} {offset additional utc : Int} :
    toUtc tm offset additional = some utc ↔ timegm tm ≠ -1 ∧ timegm tm - offset + additional = utc := by
  rw [toUtc, Option.ite_none_left_eq_some, Option.some.injEq]

/-- In a time of the extended form that is accepted the offset of the suffix counts, hours and minutes, and so it does
in the basic form, if and only if the suffix is no offset without a colon that has tens of minutes; but such a suffix
does no harm to a time that is refused, for its fields, its hours or because it is the second before the epoch. -/
theorem timezoneParseToUtc_offset_iff (t : CivilTime) (f : Fraction) (s : IsoSuffix)
    (tzOffsetSeconds additionalOffsetSeconds : Int) :
    ((∀ utc, timezoneParseToUtc (t.extended ++ (f.text ++ s.text)) tzOffsetSeconds additionalOffsetSeconds =
          .ok (some utc) → utc = t.epoch - s.seconds + additionalOffsetSeconds) ∧
        ∀ utc, timezoneParseToUtc (t.basic ++ s.text) tzOffsetSeconds additionalOffsetSeconds = .ok (some utc) →
          utc = t.epoch - s.seconds + additionalOffsetSeconds) ↔
      ¬ (s.LosesMinutes ∧ t.dateTime.Valid ∧ t.epoch ≠ -1) := by
  rw [timezoneParseToUtc_extended, timezoneParseToUtc_basic]
  by_cases hvalid : t.dateTime.Valid
  · have hmonth : 1 ≤ t.month ∧ t.month ≤ 12 := by
      have := hvalid.2.1
      unfold CivilTime.dateTime at this
      dsimp only at this
      omega
    have hepoch := timegm_eq_epoch t hmonth.1 hmonth.2
    have hbasic : ∀ utc, s.readBasic.bind (fun offset => toUtc t.dateTime.tm offset additionalOffsetSeconds) = some utc →
        utc = t.epoch - s.seconds + additionalOffsetSeconds := by
      intro utc h
      obtain ⟨offset, hread, htoUtc⟩ := Option.bind_eq_some_iff.1 h
      rw [← IsoSuffix.readBasic_eq_seconds hread, ← hepoch]
      exact (toUtc_eq_some.1 htoUtc).2.symm
    rw [if_pos hvalid, if_pos hvalid]
    simp only [Except.ok.injEq, hvalid, true_and]
    rw [and_iff_left hbasic, not_and', ← IsoSuffix.read_eq_seconds_iff]
    constructor
    · intro h hne offset hread
      have := h _ (Option.bind_eq_some_iff.2 ⟨offset, hread, toUtc_eq_some.2 ⟨by rwa [hepoch], rfl⟩⟩)
      rw [hepoch] at this
      omega
    · intro h utc hrun
      obtain ⟨offset, hread, htoUtc⟩ := Option.bind_eq_some_iff.1 hrun
      obtain ⟨hne, heq⟩ := toUtc_eq_some.1 htoUtc
      rw [hepoch] at hne heq
      rw [← h hne offset hread, heq]
  · refine iff_of_true ?_ fun h => hvalid h.2.1
    simp only [if_neg hvalid, Except.ok.injEq, reduceCtorEq, false_imp_iff, implies_true, and_self]

/-- Half past five without its half hour. -/
theorem timezoneParseToUtc_offset_lost :
    ¬ ∀ utc, timezoneParseToUtc (str "2024-01-01T12:00:00+0530") 0 0 = .ok (some utc) →
      utc = CivilTime.epoch ⟨2024, 1, 1, 12, 0, 0, by decide, by decide, by decide, by decide, by decide, by decide⟩ -
        IsoSuffix.seconds (.offset false false 5 30 (by decide) (by decide)) + 0 := by
  intro h
  have hparse : timezoneParseToUtc (str "2024-01-01T12:00:00+0530") 0 0 = .ok (some 1704092400) := by decide +kernel
  have heq := h _ hparse
  rw [← timegm_eq_epoch _ (by decide) (by decide)] at heq
  exact absurd heq (by decide)

end Rtp2httpd
