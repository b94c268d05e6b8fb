import DOpenWrt.Rtp2httpd.HttpQuery
import DOpenWrt.Rtp2httpd.TimezoneScan

/-!
# The separator of a seek range (`service.c`)

`find_seek_range_separator` tries the dashes of a value from left to right: the first one with a time in front of it
and a time or nothing behind it divides the value. A dash within a date never does, but what is behind the sign of an
offset may be a time of its own.
-/

namespace Rtp2httpd.Service
open CString

/-! ### The source -/

def isValidSeekTimeValue (value : List UInt8) : Except StringFault Bool :=
  if value = [] then .ok false else (timezoneParseToUtc value 0 0).map Option.isSome

/-- `is_valid_seek_time_value(begin_candidate)`. The candidate is in an array of zeros: a character that is read behind
its terminator is another one, neither a fraction nor a time zone. -/
def isValidBeginCandidate (beginCandidate : List UInt8) : Bool :=
  match isValidSeekTimeValue beginCandidate with
  | .ok valid => valid
  | .error .pastTerminator => ((scanIso8601 beginCandidate).bind fun t => toUtc t.tm 0 0).isSome

/-- The loop at `separator`, with what of the value is left there. -/
def separatorLoop (value : List UInt8) : List UInt8 → Nat → Except StringFault (Option Nat)
  | [], _ => .ok none
  | c :: endCandidate, separator =>
    if c = dash ∧ separator > 0 ∧ separator < 128 ∧ isValidBeginCandidate (value.take separator) = true then
      if endCandidate = [] then .ok (some separator)
      else match isValidSeekTimeValue endCandidate with
        | .error e => .error e
        | .ok true => .ok (some separator)
        | .ok false => separatorLoop value endCandidate (separator + 1)
    else separatorLoop value endCandidate (separator + 1)

def findSeekRangeSeparator (value : List UInt8) : Except StringFault (Option Nat) := separatorLoop value value 0

example : findSeekRangeSeparator (str "2024-01-01T12:00:00-05:00-1704110400") = .ok (some 25) := by decide +kernel

/-! ### The loop -/

/-- A dash behind a time. -/
def BeginsAt (value : List UInt8) (i : Nat) : Prop :=
  value[i]? = some dash ∧ 0 < i ∧ i < 128 ∧ isValidBeginCandidate (value.take i) = true

instance BeginsAt.decidable (value : List UInt8) (i : Nat) : Decidable (BeginsAt value i) :=
  inferInstanceAs (Decidable (_ ∧ _))

/-- A time or nothing is behind the dash. -/
def EndsBehind (value : List UInt8) (i : Nat) : Prop :=
  value.drop (i + 1) = [] ∨ isValidSeekTimeValue (value.drop (i + 1)) = .ok true

/-- The loop goes on: if there is a dash behind a time, then what is behind it is refused. -/
def PassedOver (value : List UInt8) (i : Nat) : Prop :=
  BeginsAt value i → value.drop (i + 1) ≠ [] ∧ isValidSeekTimeValue (value.drop (i + 1)) = .ok false

instance PassedOver.decidable (value : List UInt8) (i : Nat) : Decidable (PassedOver value i) :=
  inferInstanceAs (Decidable (_ → _))

section
variable {value b v tail : List UInt8} {i p q : Nat}

theorem separatorLoop_passedOver (h : PassedOver value p) (hp : p < value.length) :
    separatorLoop value (value.drop p) p = separatorLoop value (value.drop (p + 1)) (p + 1) := by
  rw [List.drop_eq_getElem_cons hp, separatorLoop]
  split_ifs with hbegin hnil
  · exact absurd hnil (h ⟨hbegin.1 ▸ List.getElem?_eq_getElem hp, hbegin.2⟩).1
  · rw [(h ⟨hbegin.1 ▸ List.getElem?_eq_getElem hp, hbegin.2⟩).2]
  · rfl

theorem separatorLoop_end (hp : value.length ≤ p) : separatorLoop value (value.drop p) p = .ok none := by
  rw [List.drop_eq_nil_of_le hp, separatorLoop]

theorem separatorLoop_divides (hbegin : BeginsAt value p) (hend : EndsBehind value p) :
    separatorLoop value (value.drop p) p = .ok (some p) := by
  obtain ⟨hp, hget⟩ := List.getElem?_eq_some_iff.1 hbegin.1
  rw [List.drop_eq_getElem_cons hp, separatorLoop, if_pos ⟨hget, hbegin.2⟩]
  split_ifs with hnil
  · rfl
  · rw [hend.resolve_left hnil]

/-- What is known when the loop does not go on. -/
theorem separatorLoop_stops (h : ¬ PassedOver value p) :
    separatorLoop value (value.drop p) p = .ok (some p) ∧ EndsBehind value p ∨
      ∃ e, separatorLoop value (value.drop p) p = .error e := by
  unfold PassedOver at h
  push Not at h
  obtain ⟨hbegin, hend⟩ := h
  obtain ⟨hp, hget⟩ := List.getElem?_eq_some_iff.1 hbegin.1
  by_cases hnil : value.drop (p + 1) = []
  · exact .inl ⟨separatorLoop_divides hbegin (.inl hnil), .inl hnil⟩
  · rw [List.drop_eq_getElem_cons hp, separatorLoop, if_pos ⟨hget, hbegin.2⟩, if_neg hnil]
    cases hvalid : isValidSeekTimeValue (value.drop (p + 1)) with
    | error e => exact .inr ⟨e, rfl⟩
    | ok valid =>
      cases valid with
      | true => exact .inl ⟨rfl, .inr hvalid⟩
      | false => exact absurd hvalid (hend hnil)

theorem separatorLoop_eq (h : ∀ i, p ≤ i → i < q → PassedOver value i) (hpq : p ≤ q) (hq : q ≤ value.length) :
    separatorLoop value (value.drop p) p = separatorLoop value (value.drop q) q := by
  induction q, hpq using Nat.le_induction with
  | base => rfl
  | succ q hpq ih =>
    rw [ih (fun i hi hlt => h i hi (hlt.trans (Nat.lt_succ_self q))) (Nat.le_of_succ_le hq),
      separatorLoop_passedOver (h q hpq (Nat.lt_succ_self q)) hq]

/-- The first dash that divides the value is found. -/
theorem findSeekRangeSeparator_some_iff : findSeekRangeSeparator value = .ok (some q) ↔
    BeginsAt value q ∧ EndsBehind value q ∧ ∀ i < q, PassedOver value i := by
  have hall (n : Nat) (hn : n ≤ value.length) (h : ∀ i < n, PassedOver value i) :
      findSeekRangeSeparator value = separatorLoop value (value.drop n) n :=
    separatorLoop_eq (fun i _ hi => h i hi) (Nat.zero_le n) hn
  constructor
  · intro hfind
    -- the first place where the loop does not go on
    by_cases h : ∃ n, n < value.length ∧ ¬ PassedOver value n
    · classical
      have hfirst : ∀ i < Nat.find h, PassedOver value i := fun i hi => by
        by_contra hnot
        exact Nat.find_min h hi ⟨hi.trans (Nat.find_spec h).1, hnot⟩
      rw [hall _ (Nat.find_spec h).1.le hfirst] at hfind
      rcases separatorLoop_stops (Nat.find_spec h).2 with ⟨hstop, hend⟩ | ⟨e, herror⟩
      · rw [hstop, Except.ok.injEq, Option.some.injEq] at hfind
        have hnot := (Nat.find_spec h).2
        rw [hfind] at hend hfirst hnot
        unfold PassedOver at hnot
        push Not at hnot
        exact ⟨hnot.1, hend, hfirst⟩
      · rw [herror] at hfind
        cases hfind
    · push Not at h
      rw [hall _ (Nat.le_refl _) fun i hi => h i hi, separatorLoop_end (Nat.le_refl _)] at hfind
      cases hfind
  · rintro ⟨hbegin, hend, hpassed⟩
    rw [hall q (List.getElem?_eq_some_iff.1 hbegin.1).1.le hpassed, separatorLoop_divides hbegin hend]

theorem findSeekRangeSeparator_none_iff :
    findSeekRangeSeparator value = .ok none ↔ ∀ i < value.length, PassedOver value i := by
  have hall (n : Nat) (hn : n ≤ value.length) (h : ∀ i < n, PassedOver value i) :
      findSeekRangeSeparator value = separatorLoop value (value.drop n) n :=
    separatorLoop_eq (fun i _ hi => h i hi) (Nat.zero_le n) hn
  constructor
  · intro hfind i
    induction i using Nat.strong_induction_on with
    | _ i ih =>
      intro hi
      by_contra hnot
      rw [hall i hi.le fun j hj => ih j hj (hj.trans hi)] at hfind
      rcases separatorLoop_stops hnot with ⟨hstop, -⟩ | ⟨e, herror⟩
      · rw [hstop] at hfind
        cases hfind
      · rw [herror] at hfind
        cases hfind
  · intro h
    rw [hall _ (Nat.le_refl _) h, separatorLoop_end (Nat.le_refl _)]

end

/-! ### Dashes of a date -/

/-- `timezone_parse_to_utc` takes the string. -/
def TimeAccepted (s : List UInt8) : Prop := ∃ utc, timezoneParseToUtc s 0 0 = .ok (some utc)

section
variable {s b tail : List UInt8} {i : Nat}

theorem isValidSeekTimeValue_of_accepted (h : TimeAccepted s) (hne : s ≠ []) : isValidSeekTimeValue s = .ok true := by
  obtain ⟨utc, hutc⟩ := h
  rw [isValidSeekTimeValue, if_neg hne, hutc]
  rfl

/-- A time without a `T` consists of digits. -/
theorem isdigit_of_begin (h : isValidBeginCandidate s = true) (hT : capitalT ∉ s) : s ≠ [] ∧ ∀ c ∈ s, isdigit c = true := by
  have hne : s ≠ [] := by
    rintro rfl
    rw [isValidBeginCandidate, isValidSeekTimeValue, if_pos rfl] at h
    cases h
  rw [isValidBeginCandidate, isValidSeekTimeValue, if_neg hne] at h
  rcases timezoneParseToUtc_forms s 0 0 with ⟨-, hdigit, -⟩ | ⟨-, hdigit, -⟩ | ⟨⟨ds, rfl, -⟩, -⟩ | ⟨hbasic, -⟩ |
    ⟨-, hin, -⟩ | ⟨-, -, hnone⟩
  · exact ⟨hne, hdigit⟩
  · exact ⟨hne, hdigit⟩
  · exact absurd (List.mem_append_right _ (by decide)) hT
  · exact absurd (capitalT_mem_of_basic hbasic) hT
  · exact absurd hin hT
  · rw [hnone] at h
    cases h

/-- What is taken with a dash in front of any `T` has the fields of the extended form. -/
theorem scanIso8601_of_accepted (h : TimeAccepted b) (hdash : b[i]? = some dash) (hT : capitalT ∉ b.take i) :
    ∃ t, scanIso8601 b = some t ∧ t.Valid := by
  have hmem : dash ∈ b := List.mem_of_getElem? hdash
  obtain ⟨utc, h⟩ := h
  rcases timezoneParseToUtc_forms b 0 0 with ⟨-, hdigit, -⟩ | ⟨-, hdigit, -⟩ | ⟨⟨ds, rfl, -, hdigit⟩, -⟩ | ⟨hbasic, -⟩ |
    ⟨-, hin, hparse⟩ | ⟨-, -, hnone⟩
  · exact absurd (hdigit _ hmem) (by decide)
  · exact absurd (hdigit _ hmem) (by decide)
  · rcases List.mem_append.1 hmem with hmem | hmem
    · exact absurd (hdigit _ hmem) (by decide)
    · exact absurd hmem (by decide)
  · obtain ⟨h8, hdigit⟩ := isBasic_of_format hbasic
    rcases Nat.lt_trichotomy i 8 with hlt | rfl | hgt
    · have htake : dash ∈ b.take 8 := List.mem_of_getElem? ((List.getElem?_take_of_lt hlt).trans hdash)
      exact absurd (hdigit _ htake) (by decide)
    · rw [h8] at hdash
      exact absurd hdash (by decide)
    · exact absurd (List.mem_of_getElem? ((List.getElem?_take_of_lt hgt).trans h8)) hT
  · rw [hparse, timezoneParseIso8601, if_neg (by decide), if_neg (show ¬ UInt8.ofNat 'T'.toNat ∉ b from not_not_intro hin)] at h
    split at h
    · cases h
    next t ht =>
    by_cases hvalid : t.Valid
    · exact ⟨t, ht, hvalid⟩
    · rw [if_pos hvalid] at h
      cases h
  · rw [hnone] at h
    cases h

/-- The fields in front of the day. -/
theorem scanIso8601_some {t : DateTime} (h : scanIso8601 s = some t) : ∃ s₁ s₂ s₃ s₄, scanInt 4 s = some (t.year, s₁) ∧
    scanLit '-' s₁ = some s₂ ∧ scanInt 2 s₂ = some (t.month, s₃) ∧ scanLit '-' s₃ = some s₄ := by
  rw [scanIso8601] at h
  simp only [Option.bind_eq_bind, Option.bind_eq_some_iff, Option.some.injEq] at h
  obtain ⟨⟨year, s₁⟩, hyear, s₂, hsep, ⟨month, s₃⟩, hmonth, s₄, hsep', _, _, _, _, _, _, _, _, _, _, _, _, _, _, rfl⟩ := h
  exact ⟨s₁, s₂, s₃, s₄, hyear, hsep, hmonth, hsep'⟩

/-- What has a few digits in front of another character is refused if it has not the fields of the extended form. -/
theorem timezoneParseToUtc_refused (hscan : ∀ t, scanIso8601 s = some t → ¬ t.Valid)
    (hrun : (s.takeWhile isdigit).length ≤ 7) (hother : ∃ c ∈ s, isdigit c = false) :
    timezoneParseToUtc s 0 0 = .ok none := by
  have hplain : ¬ ∀ c ∈ s, isdigit c = true := fun hall => by
    obtain ⟨c, hc, hdigit⟩ := hother
    rw [hall c hc] at hdigit
    cases hdigit
  rcases timezoneParseToUtc_forms s 0 0 with ⟨-, hdigit, -⟩ | ⟨-, hdigit, -⟩ | ⟨⟨ds, rfl, hlen, hdigit⟩, -⟩ |
    ⟨hbasic, -⟩ | ⟨-, hin, hparse⟩ | ⟨-, -, hnone⟩
  · exact absurd hdigit hplain
  · exact absurd hdigit hplain
  · rw [List.takeWhile_append_of_pos hdigit, List.length_append] at hrun
    omega
  · -- the basic form has eight digits
    obtain ⟨h8, hdigit⟩ := isBasic_of_format hbasic
    have hlen : 8 < s.length := (List.getElem?_eq_some_iff.1 h8).1
    rw [← List.take_append_drop 8 s, List.takeWhile_append_of_pos hdigit, List.length_append, List.length_take] at hrun
    omega
  · have hrefused : timezoneParseIso8601 s timezoneSuffixSize = .ok none := by
      rw [timezoneParseIso8601, if_neg (by decide), if_neg (show ¬ UInt8.ofNat 'T'.toNat ∉ s from not_not_intro hin)]
      split
      · rfl
      · next t ht => rw [if_pos (hscan t ht)]
    rw [hparse, hrefused]
    rfl
  · exact hnone

/-- A dash in front of any `T` does not divide a value that begins with a time. -/
theorem passedOver_date (h : TimeAccepted b) (hi : i < b.length) (hT : capitalT ∉ b.take i) (tail : List UInt8) :
    PassedOver (b ++ tail) i := by
  intro hbegin
  have htake : (b ++ tail).take i = b.take i := List.take_append_of_le_length hi.le
  have hdash : b[i]? = some dash := by
    rw [← List.getElem?_append_left hi]
    exact hbegin.1
  obtain ⟨hne, hdigit⟩ := isdigit_of_begin (htake ▸ hbegin.2.2.2) hT
  obtain ⟨t, hscan, hvalid⟩ := scanIso8601_of_accepted h hdash hT
  have hparts : b = b.take i ++ dash :: b.drop (i + 1) := by
    obtain ⟨_, hget⟩ := List.getElem?_eq_some_iff.1 hdash
    rw [← hget, ← List.drop_eq_getElem_cons, List.take_append_drop]
  have hrest : (b ++ tail).drop (i + 1) = b.drop (i + 1) ++ tail := List.drop_append_of_le_length hi
  rw [hrest]
  generalize b.take i = year at hne hdigit hparts
  generalize b.drop (i + 1) = rest at hparts ⊢
  subst hparts
  obtain ⟨s₁, s₂, s₃, s₄, hyear, hsep, hmonth, hsep'⟩ := scanIso8601_some hscan
  -- the digits in front of the dash are the year
  have hfour : year.length ≤ 4 := by
    by_contra hlong
    rw [← List.take_append_drop 4 year, List.append_assoc,
      scanInt_digits (fun c hc => hdigit c (List.mem_of_mem_take hc)) (by
        rw [ne_eq, ← List.length_eq_zero_iff, List.length_take]
        omega) (List.length_take_le 4 year) (.inl (by rw [List.length_take]; omega))] at hyear
    obtain ⟨-, rfl⟩ := Prod.mk.inj (Option.some.inj hyear)
    obtain ⟨c, ds, hds⟩ := List.exists_cons_of_ne_nil (show year.drop 4 ≠ [] by
      rw [ne_eq, ← List.length_eq_zero_iff, List.length_drop]
      omega)
    have hc := hdigit c (List.mem_of_mem_drop (hds ▸ List.mem_cons_self))
    rw [hds, List.cons_append, scanLit] at hsep
    split_ifs at hsep with hminus
    have hsign := (isdigit_plain hc).2
    rw [isSign, decide_eq_false_iff_not, not_or] at hsign
    exact hsign.2 hminus
  rw [scanInt_digits hdigit hne hfour (.inr rfl)] at hyear
  obtain ⟨-, rfl⟩ := Prod.mk.inj (Option.some.inj hyear)
  obtain rfl : rest = s₂ := Option.some.inj hsep
  -- and what follows is the month
  obtain ⟨c, rfl, hc⟩ : ∃ c, s₃ = c :: s₄ ∧ c.toNat = '-'.toNat := by
    cases s₃ with
    | nil => cases hsep'
    | cons c s₃ =>
      rw [scanLit] at hsep'
      split_ifs at hsep' with hminus
      exact ⟨c, by rw [Option.some.inj hsep'], hminus⟩
  obtain rfl : c = dash := UInt8.toNat_inj.1 hc
  obtain ⟨hwide, hrun, hmem⟩ := scanInt_ends hmonth (by decide) (show 2 ≤ 4 by omega) tail
  have hne' : rest ++ tail ≠ [] := List.append_ne_nil_of_left_ne_nil (List.ne_nil_of_mem hmem) _
  have hle : t.month ≤ 12 := hvalid.2.1.2
  have hyear : ∀ t, scanIso8601 (rest ++ tail) = some t → ¬ t.Valid := fun t' ht' hvalid' => by
    obtain ⟨s₁, -, -, -, hfirst, -⟩ := scanIso8601_some ht'
    rw [hwide] at hfirst
    have heq := (Prod.mk.inj (Option.some.inj hfirst)).1
    have := hvalid'.1.1
    omega
  refine ⟨hne', ?_⟩
  rw [isValidSeekTimeValue, if_neg hne',
    timezoneParseToUtc_refused hyear (by omega) ⟨dash, List.mem_append_left _ hmem, by decide⟩]
  rfl

end

/-! ### Joined values -/

/-- No dash behind a `T` of `b` divides the value. -/
def UndividedBehindT (value b : List UInt8) : Prop := ∀ i < b.length, capitalT ∈ b.take i → PassedOver value i

instance UndividedBehindT.decidable (value b : List UInt8) : Decidable (UndividedBehindT value b) :=
  inferInstanceAs (Decidable (∀ _ < _, _))

section
variable {b e v tail : List UInt8}

theorem undivided_iff (h : TimeAccepted b) (tail : List UInt8) :
    (∀ i < b.length, PassedOver (b ++ tail) i) ↔ UndividedBehindT (b ++ tail) b :=
  ⟨fun hall i hi _ => hall i hi, fun hbehind i hi => by
    by_cases hT : capitalT ∈ b.take i
    · exact hbehind i hi hT
    · exact passedOver_date h hi hT tail⟩

/-- The digits of an offset with a colon are no time, whatever is behind them. -/
theorem timezoneParseToUtc_colon {hours : Nat} (hh : hours < 100) (rest : List UInt8) :
    timezoneParseToUtc (twoDigits hours ++ (str ":" ++ rest)) 0 0 = .ok none := by
  refine timezoneParseToUtc_refused (fun t ht => ?_) ?_ ⟨UInt8.ofNat ':'.toNat, ?_, by decide⟩
  · obtain ⟨s₁, s₂, -, -, hyear, hsep, -⟩ := scanIso8601_some ht
    rw [scanInt_digits (twoDigits_isdigit hh) (by simp [twoDigits]) (by simp [twoDigits]) (.inr rfl)] at hyear
    obtain ⟨-, rfl⟩ := Prod.mk.inj (Option.some.inj hyear)
    cases hsep
  · rw [List.takeWhile_append_of_pos (twoDigits_isdigit hh), List.length_append, length_twoDigits]
    exact Nat.le_of_ble_eq_true rfl
  · exact List.mem_append_right _ (List.mem_append_left _ (by decide))

/-- A time with `Z` or with an offset that has a colon is not divided, if the dashes in front of it are those of a
date. -/
theorem undivided_suffix {pre : List UInt8} (hpre : ∀ i < pre.length, pre[i]? = some dash → capitalT ∉ pre.take i)
    {suffix : IsoSuffix} (hsuffix : ∀ negative hours minutes hh hm, suffix ≠ .offset negative false hours minutes hh hm)
    (tail : List UInt8) : UndividedBehindT (pre ++ suffix.text ++ tail) (pre ++ suffix.text) := by
  intro i hi hT hbegin
  have hdash : (pre ++ suffix.text)[i]? = some dash := by
    rw [← List.getElem?_append_left hi]
    exact hbegin.1
  by_cases hin : i < pre.length
  · rw [List.getElem?_append_left hin] at hdash
    rw [List.take_append_of_le_length hin.le] at hT
    exact absurd hT (hpre i hin hdash)
  rw [List.getElem?_append_right (Nat.le_of_not_lt hin)] at hdash
  cases suffix with
  | utc =>
    have hmem := List.mem_of_getElem? hdash
    exact absurd hmem (by decide)
  | offset negative colon hours minutes hh hm =>
    obtain rfl : colon = true := by
      by_contra hcolon
      rw [Bool.not_eq_true] at hcolon
      exact hsuffix negative hours minutes hh hm (by rw [hcolon])
    -- the only dash is the sign
    have htext : (IsoSuffix.offset negative true hours minutes hh hm).text =
        signText negative ++ (twoDigits hours ++ (str ":" ++ twoDigits minutes)) := by
      rw [IsoSuffix.text, if_pos rfl]
      simp only [List.append_assoc]
    have hrest : dash ∉ twoDigits hours ++ (str ":" ++ twoDigits minutes) := by
      simp only [List.mem_append, not_or]
      exact ⟨fun h => absurd (twoDigits_isdigit hh _ h) (by decide), by decide,
        fun h => absurd (twoDigits_isdigit hm _ h) (by decide)⟩
    have hsign : (signText negative).length = 1 := by cases negative <;> rfl
    have hat : i = pre.length := by
      by_contra hne
      rw [htext, List.getElem?_append_right (by omega)] at hdash
      exact hrest (List.mem_of_getElem? hdash)
    have hdrop : (pre ++ (IsoSuffix.offset negative true hours minutes hh hm).text ++ tail).drop (i + 1) =
        twoDigits hours ++ (str ":" ++ (twoDigits minutes ++ tail)) := by
      rw [hat, htext, List.append_assoc, ← List.drop_drop, List.drop_left' rfl, List.append_assoc, List.drop_left' hsign]
      simp only [List.append_assoc]
    have hne : twoDigits hours ++ (str ":" ++ (twoDigits minutes ++ tail)) ≠ [] := by simp [twoDigits]
    rw [hdrop]
    refine ⟨hne, ?_⟩
    rw [isValidSeekTimeValue, if_neg hne, timezoneParseToUtc_colon hh]
    rfl

theorem findSeekRangeSeparator_joined (hb : TimeAccepted b) (hlen : b.length < 128) (he : e = [] ∨ TimeAccepted e) :
    findSeekRangeSeparator (b ++ dash :: e) = .ok (some b.length) ↔
      b ≠ [] ∧ UndividedBehindT (b ++ dash :: e) b := by
  have hdrop : (b ++ dash :: e).drop (b.length + 1) = e := by
    rw [← List.drop_drop, List.drop_left' rfl]
    rfl
  rw [findSeekRangeSeparator_some_iff, undivided_iff hb]
  constructor
  · rintro ⟨hbegin, -, hpassed⟩
    exact ⟨List.ne_nil_of_length_pos hbegin.2.1, hpassed⟩
  · rintro ⟨hne, hpassed⟩
    refine ⟨⟨?_, List.length_pos_of_ne_nil hne, hlen, ?_⟩, ?_, hpassed⟩
    · rw [List.getElem?_append_right (Nat.le_refl _), Nat.sub_self]
      rfl
    · rw [List.take_left' rfl, isValidBeginCandidate, isValidSeekTimeValue_of_accepted hb hne]
    · unfold EndsBehind
      rw [hdrop]
      by_cases hnil : e = []
      · exact .inl hnil
      · exact .inr (isValidSeekTimeValue_of_accepted (he.resolve_left hnil) hnil)

theorem not_mem_take_of_dash {date time : List UInt8} (hdate : capitalT ∉ date) (htime : dash ∉ time) :
    ∀ i < (date ++ time).length, (date ++ time)[i]? = some dash → capitalT ∉ (date ++ time).take i := by
  intro i _ hdash
  rcases Nat.lt_or_ge i date.length with hlt | hge
  · rw [List.take_append_of_le_length hlt.le]
    exact fun hmem => hdate (List.mem_of_mem_take hmem)
  · rw [List.getElem?_append_right hge] at hdash
    exact absurd (List.mem_of_getElem? hdash) htime

/-- A time of the extended form, alone or with another one behind it, is not divided at its dashes. -/
theorem findSeekRangeSeparator_extended (t : CivilTime) (f : Fraction) {suffix : IsoSuffix}
    (hsuffix : ∀ negative hours minutes hh hm, suffix ≠ .offset negative false hours minutes hh hm)
    (h : TimeAccepted (t.extended ++ (f.text ++ suffix.text))) :
    findSeekRangeSeparator (t.extended ++ (f.text ++ suffix.text)) = .ok none ∧
      ((t.extended ++ (f.text ++ suffix.text)).length < 128 → e = [] ∨ TimeAccepted e →
        findSeekRangeSeparator (t.extended ++ (f.text ++ suffix.text) ++ dash :: e) =
          .ok (some (t.extended ++ (f.text ++ suffix.text)).length)) := by
  have hpre : ∀ i < (t.extended ++ f.text).length, (t.extended ++ f.text)[i]? = some dash →
      capitalT ∉ (t.extended ++ f.text).take i := by
    have hdigits {ds : List UInt8} (hds : ∀ c ∈ ds, isdigit c = true) : capitalT ∉ ds ∧ dash ∉ ds :=
      ⟨fun hm => absurd (hds _ hm) (by decide), fun hm => absurd (hds _ hm) (by decide)⟩
    have hyear := hdigits (fourDigits_isdigit t.year_lt)
    have hmonth := hdigits (twoDigits_isdigit t.month_lt)
    have hday := hdigits (twoDigits_isdigit t.day_lt)
    have hhour := hdigits (twoDigits_isdigit t.hour_lt)
    have hmin := hdigits (twoDigits_isdigit t.min_lt)
    have hsec := hdigits (twoDigits_isdigit t.sec_lt)
    have hfraction : dash ∉ f.text := by
      rw [Fraction.text]
      split_ifs
      · exact List.not_mem_nil
      · rw [List.mem_append, not_or]
        exact ⟨by decide, (hdigits (List.all_eq_true.1 f.isDigits)).2⟩
    have hparts : t.extended ++ f.text =
        (fourDigits t.year ++ str "-" ++ twoDigits t.month ++ str "-" ++ twoDigits t.day) ++
          (str "T" ++ twoDigits t.hour ++ str ":" ++ twoDigits t.min ++ str ":" ++ twoDigits t.sec ++ f.text) := by
      rw [CivilTime.extended]
      simp only [List.append_assoc]
    rw [hparts]
    refine not_mem_take_of_dash ?_ ?_ <;> simp only [List.mem_append, not_or]
    · exact ⟨⟨⟨⟨hyear.1, by decide⟩, hmonth.1⟩, by decide⟩, hday.1⟩
    · exact ⟨⟨⟨⟨⟨⟨by decide, hhour.2⟩, by decide⟩, hmin.2⟩, by decide⟩, hsec.2⟩, hfraction⟩
  have hundivided := undivided_suffix hpre hsuffix
  simp only [List.append_assoc] at hundivided
  refine ⟨?_, fun hlen he => ?_⟩
  · have hpassed := undivided_iff h []
    have hempty := hundivided []
    rw [List.append_nil] at hpassed hempty
    exact findSeekRangeSeparator_none_iff.2 (hpassed.2 hempty)
  · refine (findSeekRangeSeparator_joined h hlen he).2 ⟨?_, ?_⟩
    · rw [CivilTime.extended]
      simp [fourDigits, twoDigits]
    · rw [List.append_assoc, List.append_assoc]
      exact hundivided _

/-- A time joined to another one by a dash, one with a dash behind it and one alone are told apart exactly where no dash
behind a `T` of the time divides the value. -/
theorem findSeekRangeSeparator_inverts_iff {b : List UInt8} (hb : TimeAccepted b) :
    (∀ e, b.length < 128 → TimeAccepted e →
      (findSeekRangeSeparator (b ++ dash :: e) = .ok (some b.length) ↔
        b ≠ [] ∧ UndividedBehindT (b ++ dash :: e) b)) ∧
    (b.length < 128 →
      (findSeekRangeSeparator (b ++ [dash]) = .ok (some b.length) ↔ b ≠ [] ∧ UndividedBehindT (b ++ [dash]) b)) ∧
    (findSeekRangeSeparator b = .ok none ↔ UndividedBehindT b b) := by
  refine ⟨fun e hlen he => findSeekRangeSeparator_joined hb hlen (.inr he),
    fun hlen => findSeekRangeSeparator_joined hb hlen (.inl rfl), ?_⟩
  have h := undivided_iff hb []
  rw [List.append_nil] at h
  rw [findSeekRangeSeparator_none_iff, h]

end

/-- Times of different forms, with offsets. -/
theorem findSeekRangeSeparator_inverts_iff_example :
    findSeekRangeSeparator (str "2024-01-01T00:00:00.5-05:00" ++ dash :: str "20240101120000GMT") = .ok (some 27) ∧
      findSeekRangeSeparator (str "20240101T000000-05:00" ++ [dash]) = .ok (some 21) ∧
      findSeekRangeSeparator (str "2024-01-01T00:00:00-05:00") = .ok none := by
  have hfraction : TimeAccepted (str "2024-01-01T00:00:00.5-05:00") := ⟨1704085200, by decide +kernel⟩
  have hbasic : TimeAccepted (str "20240101T000000-05:00") := ⟨1704085200, by decide +kernel⟩
  have hextended : TimeAccepted (str "2024-01-01T00:00:00-05:00") := ⟨1704085200, by decide +kernel⟩
  have hend : TimeAccepted (str "20240101120000GMT") := ⟨1704110400, by decide +kernel⟩
  exact ⟨((findSeekRangeSeparator_inverts_iff hfraction).1 _ (by decide) hend).2 ⟨by decide, by decide +kernel⟩,
    ((findSeekRangeSeparator_inverts_iff hbasic).2.1 (by decide)).2 ⟨by decide, by decide +kernel⟩,
    (findSeekRangeSeparator_inverts_iff hextended).2.2.2 (by decide +kernel)⟩

/-- An offset without a colon is taken for the end of a range. -/
theorem findSeekRangeSeparator_takes_offset : TimeAccepted (str "2024-01-01T00:00:00-0500") ∧
    findSeekRangeSeparator (str "2024-01-01T00:00:00-0500") ≠ .ok none := by
  refine ⟨⟨1704085200, by decide +kernel⟩, ?_⟩
  decide +kernel

end Rtp2httpd.Service
