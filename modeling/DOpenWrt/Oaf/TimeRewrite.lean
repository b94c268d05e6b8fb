import DOpenWrt.Oaf.LoaderBounds
import DOpenWrt.Oaf.UciWrite

/-!
# The time configuration written back

`apply_time_config_to_uci` of `main.c`, with which the daemon replaces a configuration of the old format, and what
`af_load_time_config` makes of it. The writes go to `libuci` through the wrappers of `UciWrite`; what they leave there
is `Rewritten`.
-/

namespace Oaf
open CString

/-! ### `apply_time_config_to_uci` -/

/-- The days that are set, with a separator. -/
def daysText (sep : String) (days : Fin 7 → ℤ) : List UInt8 :=
  (str sep).intercalate (((List.finRange 7).filter fun i => days i = 1).map fun i => printInt i.val)

/-- `"%02d:%02d"`. -/
def AfTime.text (time : AfTime) : List UInt8 := printPadded 2 time.hour ++ str ":" ++ printPadded 2 time.min

/-- `start_time_str`, a buffer of 16 bytes. -/
def AfTime.timeStr (time : AfTime) : List UInt8 := time.text.take 15

/-- `time_str`. -/
def TimePeriod.timeStr (period : TimePeriod) : List UInt8 :=
  daysText "," period.days ++ str ";" ++ period.startTime.timeStr ++ str "-" ++ period.endTime.timeStr

def AfTimeConfig.periods (tConfig : AfTimeConfig) : List TimePeriod :=
  ((List.finRange maxTimeList).take tConfig.timeNum).map tConfig.timeList

section
variable (lib : LibUci)

/-- Manual mode: the list is deleted and its periods are added one by one. -/
def LibUci.writePeriods (tConfig : AfTimeConfig) (ctx : lib.Context) : Except OutOfBounds lib.Context := do
  let (_, ctx) ← lib.afUciDelete ctx "appfilter.time.time"
  (tConfig.periods.map TimePeriod.timeStr).foldlM
    (fun ctx timeStr => Prod.snd <$> lib.afUciAddList ctx "appfilter.time.time" timeStr) ctx

/-- The other modes: the segment and its times. -/
def LibUci.writeSegment (tConfig : AfTimeConfig) (ctx : lib.Context) : Except OutOfBounds lib.Context := do
  let (_, ctx) ← lib.afUciSetIntValue ctx "appfilter.time.deny_time" tConfig.denyTime
  let (_, ctx) ← lib.afUciSetIntValue ctx "appfilter.time.allow_time" tConfig.allowTime
  let (_, ctx) ← lib.afUciSetValue ctx "appfilter.time.start_time" tConfig.segTime.startTime.timeStr
  let (_, ctx) ← lib.afUciSetValue ctx "appfilter.time.end_time" tConfig.segTime.endTime.timeStr
  return ctx

def LibUci.applyTimeConfigToUci (tConfig : AfTimeConfig) (files : lib.Files) : Except OutOfBounds lib.Files :=
  match lib.allocContext files with
  | none => .ok files
  | some ctx => do
    let (_, ctx) ← lib.afUciSetIntValue ctx "appfilter.time.time_mode" tConfig.timeMode
    let (_, ctx) ← lib.afUciSetValue ctx "appfilter.time.days" (daysText " " tConfig.days)
    let ctx ← (if tConfig.timeMode = 0 then lib.writePeriods tConfig ctx else lib.writeSegment tConfig ctx)
    return lib.freeContext (lib.afUciCommit ctx "appfilter").2

end

/-! ### Numbers -/

/-- The text of a number, with digits and perhaps a minus before them. -/
structure Printed (n : ℤ) (text : List UInt8) : Prop where
  digits : ∃ ds : List UInt8, (∀ c ∈ ds, isdigit c = true) ∧ ds ≠ [] ∧
    (n = digitsVal ds ∧ text = ds ∨ n = -digitsVal ds ∧ text = CString.dash :: ds)

theorem printed_printPadded (width : ℕ) (n : ℤ) : Printed n (printPadded width n) := by
  obtain ⟨k, rfl | rfl⟩ := n.eq_nat_or_neg
  · refine ⟨_, isdigit_printPadded, ?_, .inl ⟨?_, rfl⟩⟩
    · rw [printPadded_nat]
      exact List.append_ne_nil_of_right_ne_nil _ (decimal_ne_nil k)
    · rw [digitsVal_printPadded]
  · rcases Nat.eq_zero_or_pos k with rfl | hpos
    · refine ⟨printPadded width (0 : ℕ), isdigit_printPadded, ?_, .inl ⟨?_, rfl⟩⟩
      · rw [printPadded_nat]
        exact List.append_ne_nil_of_right_ne_nil _ (decimal_ne_nil 0)
      · rw [digitsVal_printPadded]
        rfl
    · refine ⟨List.replicate (width - 1 - (decimal k).length) (UInt8.ofNat '0'.toNat) ++ decimal k, ?_, ?_,
        .inr ⟨?_, ?_⟩⟩
      · exact List.forall_mem_append.2 ⟨fun c hc => by rw [List.eq_of_mem_replicate hc]; rfl,
          fun c hc => mem_decimal hc⟩
      · exact List.append_ne_nil_of_right_ne_nil _ (decimal_ne_nil k)
      · rw [digitsVal_zeros, digitsVal_decimal]
      · rw [printPadded, if_pos (by omega), Int.natAbs_neg, Int.natAbs_natCast]
        rfl

theorem printInt_eq (n : ℤ) : printInt n = printPadded 0 n := by
  rw [printInt, printPadded, Nat.zero_sub, Nat.zero_sub, List.replicate_zero, List.append_nil]

def IsInt (n : ℤ) : Prop := -2 ^ 31 ≤ n ∧ n < 2 ^ 31

theorem toInt_eq {unfit : ℤ → ℤ} {n : ℤ} (h : IsInt n) : toInt unfit n = n := if_pos h

section
variable {unfit : ℤ → ℤ} {n : ℤ} {text rest : List UInt8}

theorem Printed.scan (h : Printed n text) (hn : IsInt n) (hrest : rest.head?.any isdigit = false) :
    scanNumber unfit (text ++ rest) = some (n, rest) := by
  obtain ⟨ds, hds, hne, ⟨hval, rfl⟩ | ⟨hval, rfl⟩⟩ := h.digits
  · rw [scanNumber, scanInt_digits hds hne (by simp) (.inr hrest), ← hval, Option.map_some]
    dsimp only
    rw [toInt_eq hn]
  · have hspace : isspace CString.dash = false := rfl
    have hsign : scanSign (CString.dash :: ds ++ rest).length ((CString.dash :: ds ++ rest).dropWhile isspace) =
        (true, (ds ++ rest).length, ds ++ rest) := by
      rw [List.cons_append, List.dropWhile_cons_of_neg (by simp [hspace])]
      rfl
    rw [scanNumber, scanInt, hsign]
    dsimp only
    rw [takeWhile_digits hds (by simp) (.inr hrest), if_neg hne, if_pos rfl, List.drop_left' rfl, ← hval,
      Option.map_some]
    dsimp only
    rw [toInt_eq hn]

theorem Printed.atoi (h : Printed n text) (hn : IsInt n) : atoi unfit text = n := by
  have hscan : scanNumber unfit (text ++ []) = some (n, []) := h.scan hn rfl
  rw [List.append_nil] at hscan
  rw [Oaf.atoi, hscan]
  rfl

theorem Printed.not_mem (h : Printed n text) {c : UInt8} (hc : isdigit c = false) (hdash : c ≠ CString.dash) :
    c ∉ text := by
  obtain ⟨ds, hds, -, ⟨-, rfl⟩ | ⟨-, rfl⟩⟩ := h.digits
  · intro hmem
    rw [hds c hmem] at hc
    cases hc
  · intro hmem
    rcases List.mem_cons.1 hmem with rfl | hmem
    · exact hdash rfl
    · rw [hds c hmem] at hc
      cases hc

theorem Printed.ne_nil (h : Printed n text) : text ≠ [] := by
  obtain ⟨ds, -, hne, ⟨-, rfl⟩ | ⟨-, rfl⟩⟩ := h.digits
  · exact hne
  · exact List.cons_ne_nil _ _

end

/-! ### Days -/

theorem tokens_intercalate {delim : Char} {ts : List (List UInt8)}
    (h : ∀ t ∈ ts, t ≠ [] ∧ UInt8.ofNat delim.toNat ∉ t) :
    tokens delim ([UInt8.ofNat delim.toNat].intercalate ts) = ts := by
  rw [tokens]
  rcases eq_or_ne ts [] with rfl | hne
  · rfl
  · rw [List.splitOn_intercalate _ (fun t ht => (h t ht).2) hne,
      List.filter_eq_self.2 fun t ht => by simpa using (h t ht).1]

section
variable {unfit : ℤ → ℤ} {days : Fin 7 → ℤ}

def OnOff (days : Fin 7 → ℤ) : Prop := ∀ i, days i = 0 ∨ days i = 1

theorem printed_day (i : Fin 7) : Printed i.val (printInt i.val) := printInt_eq _ ▸ printed_printPadded 0 _

theorem isInt_day (i : Fin 7) : IsInt i.val := ⟨by omega, by omega⟩

theorem tokens_daysText {delim : Char} {sep : String} (hsep : str sep = [UInt8.ofNat delim.toNat])
    (hdigit : isdigit (UInt8.ofNat delim.toNat) = false) (hdash : UInt8.ofNat delim.toNat ≠ CString.dash)
    (days : Fin 7 → ℤ) :
    tokens delim (daysText sep days) = ((List.finRange 7).filter fun i => days i = 1).map fun i => printInt i.val := by
  rw [daysText, hsep]
  refine tokens_intercalate fun t ht => ?_
  obtain ⟨i, -, rfl⟩ := List.mem_map.1 ht
  exact ⟨(printed_day i).ne_nil, (printed_day i).not_mem hdigit hdash⟩

theorem atoi_day (i : Fin 7) : 0 ≤ atoi unfit (printInt i.val) ∧ (atoi unfit (printInt i.val)).toNat = i := by
  rw [(printed_day i).atoi (isInt_day i)]
  exact ⟨Int.natCast_nonneg _, Int.toNat_natCast _⟩

/-- The days that have been set. -/
theorem ite_mem_days (h : OnOff days) :
    (fun i => if i ∈ (List.finRange 7).filter (fun i => days i = 1) then (1 : ℤ) else 0) = days := by
  funext i
  rcases h i with hi | hi
  · rw [if_neg (by simp [hi]), hi]
  · rw [if_pos (by simp [hi]), hi]

theorem update_ite {l : List (Fin 7)} {j : Fin 7} (days : Fin 7 → ℤ) :
    (fun i => if i ∈ l then 1 else Function.update days j 1 i) = fun i => if i ∈ j :: l then 1 else days i := by
  funext i
  by_cases hl : i ∈ l
  · rw [if_pos hl, if_pos (List.mem_cons_of_mem _ hl)]
  · rw [if_neg hl]
    by_cases hj : i = j
    · rw [hj, Function.update_self, if_pos List.mem_cons_self]
    · rw [Function.update_of_ne hj, if_neg fun hmem => (List.mem_cons.1 hmem).elim hj hl]

theorem foldlM_setDay (l : List (Fin 7)) (days : Fin 7 → ℤ) :
    (l.map fun i => printInt i.val).foldlM (setDay unfit) days = .ok fun i => if i ∈ l then 1 else days i := by
  induction l generalizing days with
  | nil => rfl
  | cons j l ih =>
    obtain ⟨hpos, hval⟩ := @atoi_day unfit j
    have hset : setDay unfit days (printInt j.val) = .ok (Function.update days j 1) := by
      have hj : (⟨_, hval.trans_lt j.isLt⟩ : Fin 7) = j := Fin.ext hval
      rw [setDay, dif_pos ⟨hpos, hval.trans_lt j.isLt⟩, hj]
    rw [List.map_cons, List.foldlM_cons, hset, Except.ok_bind, ih, update_ite]

theorem foldl_setWeekday (l : List (Fin 7)) (days : Fin 7 → ℤ) :
    (l.map fun i => printInt i.val).foldl (setWeekday unfit) days = fun i => if i ∈ l then 1 else days i := by
  induction l generalizing days with
  | nil => rfl
  | cons j l ih =>
    obtain ⟨hpos, hval⟩ := @atoi_day unfit j
    have hset : setWeekday unfit days (printInt j.val) = Function.update days j 1 := by
      have hj : (⟨_, hval.trans_lt j.isLt⟩ : Fin 7) = j := Fin.ext hval
      rw [setWeekday, dif_pos ⟨hpos, hval.trans_lt j.isLt⟩, hj]
    rw [List.map_cons, List.foldl_cons, hset, ih, update_ite]

/-- The days are read back. -/
theorem loadDays (h : OnOff days) : (tokens ' ' (daysText " " days)).foldlM (setDay unfit) (fun _ => 0) = .ok days := by
  rw [tokens_daysText rfl rfl (by decide), foldlM_setDay, ite_mem_days h]

theorem loadWeekdays (h : OnOff days) :
    (tokens ',' (daysText "," days)).foldl (setWeekday unfit) (fun _ => 0) = days := by
  rw [tokens_daysText rfl rfl (by decide), foldl_setWeekday, ite_mem_days h]

theorem length_daysText_le {sep : String} (hsep : (str sep).length = 1) (days : Fin 7 → ℤ) :
    (daysText sep days).length ≤ 14 := by
  have hall (l : List (Fin 7)) : ((str sep).intercalate (l.map fun i => printInt i.val)).length ≤ 2 * l.length := by
    induction l using List.reverseRecOn with
    | nil => exact Nat.zero_le _
    | append_singleton l i ih =>
      have hone : (printInt i.val).length = 1 := by fin_cases i <;> rfl
      rw [List.map_append, List.map_singleton, intercalate_concat, @List.length_append _ l, List.length_singleton]
      split
      · omega
      · rw [List.length_append, List.length_append, hsep, hone]
        omega
  have hlen := List.length_filter_le (fun i => decide (days i = 1)) (List.finRange 7)
  rw [List.length_finRange] at hlen
  exact (hall _).trans (by omega)

end

/-! ### Times -/

/-- Numbers that fit an `int`, in a text that fits its buffer. -/
structure AfTime.Fits (time : AfTime) : Prop where
  hour : IsInt time.hour
  min : IsInt time.min
  length : time.text.length ≤ 15

structure TimePeriod.Fits (period : TimePeriod) : Prop where
  startTime : period.startTime.Fits
  endTime : period.endTime.Fits
  days : OnOff period.days

section
variable {unfit : ℤ → ℤ} {n : ℤ} {time : AfTime} {period : TimePeriod} {text rest : List UInt8}

theorem AfTime.Fits.timeStr (h : time.Fits) : time.timeStr = time.text := List.take_of_length_le h.length

theorem scanNumbers_cons {separator : Char} {separators : List Char} {c : UInt8} (h : Printed n text) (hn : IsInt n)
    (hc : isdigit c = false) (hlit : scanLit separator (c :: rest) = some rest) :
    scanNumbers unfit (separator :: separators) (text ++ c :: rest) = n :: scanNumbers unfit separators rest := by
  rw [scanNumbers, h.scan hn (by simpa using hc)]
  dsimp only
  rw [hlit]

theorem scanNumbers_nil (h : Printed n text) (hn : IsInt n) : scanNumbers unfit [] text = [n] := by
  have hscan : scanNumber unfit (text ++ []) = some (n, []) := h.scan hn rfl
  rw [List.append_nil] at hscan
  rw [scanNumbers, hscan]
  rfl

theorem AfTime.Fits.scan (h : time.Fits) : scanNumbers unfit [':'] time.timeStr = [time.hour, time.min] := by
  rw [h.timeStr, AfTime.text, List.append_assoc]
  change scanNumbers unfit [':'] (printPadded 2 time.hour ++ _ :: printPadded 2 time.min) = _
  rw [scanNumbers_cons (printed_printPadded 2 _) h.hour rfl rfl, scanNumbers_nil (printed_printPadded 2 _) h.min]

theorem TimePeriod.Fits.scan (h : period.Fits) :
    scanNumbers unfit [':', '-', ':'] (period.startTime.timeStr ++ str "-" ++ period.endTime.timeStr) =
      [period.startTime.hour, period.startTime.min, period.endTime.hour, period.endTime.min] := by
  rw [h.startTime.timeStr, h.endTime.timeStr, AfTime.text, AfTime.text]
  simp only [List.append_assoc]
  change scanNumbers unfit [':', '-', ':'] (printPadded 2 period.startTime.hour ++
    _ :: (printPadded 2 period.startTime.min ++ _ :: (printPadded 2 period.endTime.hour ++
      _ :: printPadded 2 period.endTime.min))) = _
  rw [scanNumbers_cons (printed_printPadded 2 _) h.startTime.hour rfl rfl,
    scanNumbers_cons (printed_printPadded 2 _) h.startTime.min rfl rfl,
    scanNumbers_cons (printed_printPadded 2 _) h.endTime.hour rfl rfl,
    scanNumbers_nil (printed_printPadded 2 _) h.endTime.min]

theorem not_mem_daysText {c : UInt8} {sep : String} (hsep : c ∉ str sep) (hdigit : isdigit c = false)
    (hdash : c ≠ CString.dash)
    (days : Fin 7 → ℤ) : c ∉ daysText sep days := by
  rw [daysText]
  generalize (List.finRange 7).filter (fun i => days i = 1) = l
  induction l using List.reverseRecOn with
  | nil => exact List.not_mem_nil
  | append_singleton l i ih =>
    rw [List.map_append, List.map_singleton, intercalate_concat]
    split
    · exact (printed_day i).not_mem hdigit hdash
    · intro hmem
      rcases List.mem_append.1 hmem with hmem | hmem
      · exact (List.mem_append.1 hmem).elim ih hsep
      · exact (printed_day i).not_mem hdigit hdash hmem

theorem findIdx?_timeStr (period : TimePeriod) : period.timeStr.findIdx? (· = ';'.toUInt8) =
    some (daysText "," period.days).length := by
  have hnone : (daysText "," period.days).findIdx? (· = ';'.toUInt8) = none := by
    refine List.findIdx?_eq_none_iff.2 fun c hc => decide_eq_false fun heq => ?_
    exact not_mem_daysText (by decide) (by decide) (by decide) period.days (heq ▸ hc)
  have hfirst (rest : List UInt8) : (str ";" ++ rest).findIdx? (· = ';'.toUInt8) = some 0 := rfl
  rw [TimePeriod.timeStr, List.append_assoc, List.append_assoc, List.append_assoc, List.findIdx?_append, hnone,
    Option.none_or, hfirst, Option.map_some, Nat.zero_add]

/-- A period that has been written is read back into the next place. -/
theorem loadPeriod_timeStr (h : period.Fits) {tConfig : AfTimeConfig} (oldVerConfig : ℤ)
    (hplace : tConfig.timeNum < maxTimeList) : loadPeriod unfit (tConfig, oldVerConfig) period.timeStr =
      .ok ({ tConfig with
        timeList := Function.update tConfig.timeList ⟨_, hplace⟩ period
        timeNum := tConfig.timeNum + 1 }, oldVerConfig) := by
  have hshort : ¬ weekdayStrLen ≤ (daysText "," period.days).length := by
    have hlen : (daysText "," period.days).length ≤ 14 := length_daysText_le rfl period.days
    rw [weekdayStrLen]
    omega
  have htake : period.timeStr.take (daysText "," period.days).length = daysText "," period.days := by
    rw [TimePeriod.timeStr, List.append_assoc, List.append_assoc, List.append_assoc, List.take_left' rfl]
  have hdrop : period.timeStr.drop ((daysText "," period.days).length + 1) =
      period.startTime.timeStr ++ str "-" ++ period.endTime.timeStr := by
    have hsplit : period.timeStr = (daysText "," period.days ++ str ";") ++
        (period.startTime.timeStr ++ str "-" ++ period.endTime.timeStr) := by
      rw [TimePeriod.timeStr]
      simp only [List.append_assoc]
    rw [hsplit]
    exact List.drop_left' List.length_append
  rw [loadPeriod]
  dsimp only
  rw [dif_pos hplace, findIdx?_timeStr]
  dsimp only
  rw [if_neg hshort, htake, hdrop, loadWeekdays h.days, Except.ok_bind]
  dsimp only
  rw [h.scan]
  rfl

end

/-! ### The list of periods -/

section
variable {unfit : ℤ → ℤ}

/-- Periods that have been written are read back into the places from `timeNum` on. -/
theorem loadPeriods_timeStr {periods : List TimePeriod} (h : ∀ period ∈ periods, period.Fits) (oldVerConfig : ℤ)
    {tConfig : AfTimeConfig} (hroom : tConfig.timeNum + periods.length ≤ maxTimeList) : ∃ timeList,
      (periods.map TimePeriod.timeStr).foldlM (loadPeriod unfit) (tConfig, oldVerConfig) =
        .ok ({ tConfig with timeList, timeNum := tConfig.timeNum + periods.length }, oldVerConfig) ∧
      (∀ i : Fin maxTimeList, i.val < tConfig.timeNum → timeList i = tConfig.timeList i) ∧
      ∀ i : Fin maxTimeList, ∀ k (hk : k < periods.length), i.val = tConfig.timeNum + k → timeList i = periods[k] := by
  induction periods generalizing tConfig with
  | nil => exact ⟨tConfig.timeList, rfl, fun _ _ => rfl, fun i k hk => absurd hk (Nat.not_lt_zero k)⟩
  | cons period periods ih =>
    rw [List.length_cons] at hroom
    have hplace : tConfig.timeNum < maxTimeList := by omega
    obtain ⟨timeList, hrun, hbefore, hread⟩ := @ih (fun other hother => h other (List.mem_cons_of_mem _ hother))
      { tConfig with
        timeList := Function.update tConfig.timeList ⟨_, hplace⟩ period
        timeNum := tConfig.timeNum + 1 } (by dsimp only; omega)
    dsimp only at hrun hbefore hread
    refine ⟨timeList, ?_, fun i hi => ?_, fun i k hk hi => ?_⟩
    · rw [List.map_cons, List.foldlM_cons, loadPeriod_timeStr (h period List.mem_cons_self) oldVerConfig hplace,
        Except.ok_bind, hrun, List.length_cons, Nat.add_assoc, Nat.add_comm 1]
    · rw [hbefore i (Nat.lt_succ_of_lt hi), Function.update_of_ne fun heq => hi.ne (congrArg Fin.val heq)]
    · cases k with
      | zero =>
        have hi' : i = ⟨_, hplace⟩ := Fin.ext hi
        rw [hbefore i (by rw [hi]; exact Nat.lt_succ_self _), hi', Function.update_self]
        rfl
      | succ k =>
        rw [List.length_cons] at hk
        rw [hread i k (Nat.lt_of_succ_lt_succ hk) (by omega)]
        rfl

/-! ### What has been loaded -/

theorem isInt_toInt (hunfit : ∀ n, IsInt (unfit n)) (n : ℤ) : IsInt (toInt unfit n) := by
  rw [toInt]
  split
  · assumption
  · exact hunfit n

theorem isInt_of_scanNumber (hunfit : ∀ n, IsInt (unfit n)) {s rest : List UInt8} {n : ℤ}
    (h : scanNumber unfit s = some (n, rest)) : IsInt n := by
  obtain ⟨r, -, heq⟩ := Option.map_eq_some_iff.1 h
  rw [← (Prod.mk.inj heq).1]
  exact isInt_toInt hunfit _

theorem isInt_scanNumbers (hunfit : ∀ n, IsInt (unfit n)) (separators : List Char) (s : List UInt8) :
    ∀ n ∈ scanNumbers unfit separators s, IsInt n := by
  induction separators generalizing s with
  | nil =>
    intro n hn
    rw [scanNumbers, Option.mem_toList] at hn
    obtain ⟨r, hr, rfl⟩ := Option.map_eq_some_iff.1 hn
    exact isInt_of_scanNumber hunfit hr
  | cons separator separators ih =>
    intro n hn
    rw [scanNumbers] at hn
    split at hn
    · cases hn
    · rename_i first rest hfirst
      have hint := isInt_of_scanNumber hunfit hfirst
      split at hn
      · rw [List.mem_singleton.1 hn]
        exact hint
      · rcases List.mem_cons.1 hn with rfl | hn
        · exact hint
        · exact ih _ n hn

theorem isInt_atoi (hunfit : ∀ n, IsInt (unfit n)) (s : List UInt8) : IsInt (atoi unfit s) := by
  rw [atoi]
  cases h : scanNumber unfit s with
  | none => exact ⟨by decide, by decide⟩
  | some r => exact isInt_of_scanNumber hunfit h

theorem isInt_neg_one : IsInt (-1) := ⟨by decide, by decide⟩

theorem isInt_afUciGetIntValue (hunfit : ∀ n, IsInt (unfit n)) (lookup : UciLookup) :
    IsInt (afUciGetIntValue unfit lookup) := by
  cases lookup with
  | notFound => exact isInt_neg_one
  | sectionType type => exact isInt_neg_one
  | optionString value => exact isInt_atoi hunfit value
  | optionList values raw => exact isInt_atoi hunfit raw

def AfTime.IsInts (time : AfTime) : Prop := IsInt time.hour ∧ IsInt time.min

theorem AfTime.IsInts.scanned {time : AfTime} (h : time.IsInts) {numbers : List ℤ} (hnumbers : ∀ n ∈ numbers, IsInt n) :
    (time.scanned numbers).IsInts := by
  have hget (i : ℕ) {n : ℤ} (hn : IsInt n) : IsInt (numbers.getD i n) := by
    rw [List.getD_eq_getElem?_getD]
    cases hi : numbers[i]? with
    | none => exact hn
    | some m => exact hnumbers m (List.mem_of_getElem? hi)
  exact ⟨hget 0 h.1, hget 1 h.2⟩

/-- A period as it can be loaded. -/
structure TimePeriod.Loaded (period : TimePeriod) : Prop where
  startTime : period.startTime.IsInts
  endTime : period.endTime.IsInts
  days : OnOff period.days

theorem onOff_zero : OnOff fun _ => 0 := fun _ => .inl rfl

theorem OnOff.update {days : Fin 7 → ℤ} (h : OnOff days) (i : Fin 7) : OnOff (Function.update days i 1) := by
  intro j
  by_cases hj : j = i
  · rw [hj, Function.update_self]
    exact .inr rfl
  · rw [Function.update_of_ne hj]
    exact h j

theorem onOff_setDay {days days' : Fin 7 → ℤ} {p : List UInt8} (h : OnOff days)
    (hset : setDay unfit days p = .ok days') :
    OnOff days' := by
  rw [setDay] at hset
  split at hset
  · rw [← Except.ok.inj hset]
    exact h.update _
  · cases hset

theorem onOff_setWeekdays {days : Fin 7 → ℤ} (h : OnOff days) (ps : List (List UInt8)) :
    OnOff (ps.foldl (setWeekday unfit) days) := by
  induction ps generalizing days with
  | nil => exact h
  | cons p ps ih =>
    refine ih ?_
    rw [setWeekday]
    split
    · exact h.update _
    · exact h

/-- All but the periods. -/
def AfTimeConfig.rest (tConfig : AfTimeConfig) : AfTimeConfig := { tConfig with timeList := fun _ => {}, timeNum := 0 }

/-- What the list of periods looks like while it is loaded; the other fields are those of `base`. -/
structure Loading (base : AfTimeConfig) (state : AfTimeConfig × ℤ) : Prop where
  rest : state.1.rest = base.rest
  periods : ∀ i, (state.1.timeList i).Loaded
  timeNum_le : state.1.timeNum ≤ maxTimeList

/-- What a token does to its place, with the days that it gets. -/
theorem loadPeriod_eq_ok {state state' : AfTimeConfig × ℤ} {p : List UInt8}
    (hstep : loadPeriod unfit state p = .ok state') :
    ∃ (hplace : state.1.timeNum < maxTimeList) (days : Fin 7 → ℤ) (part : List UInt8),
      (days = state.1.days ∨ OnOff days) ∧
      state'.1 = { state.1 with
        timeList := Function.update state.1.timeList ⟨_, hplace⟩ {
          startTime := (state.1.timeList ⟨_, hplace⟩).startTime.scanned
            ((scanNumbers unfit [':', '-', ':'] part).take 2)
          endTime := (state.1.timeList ⟨_, hplace⟩).endTime.scanned ((scanNumbers unfit [':', '-', ':'] part).drop 2)
          days }
        timeNum := state'.1.timeNum } := by
  have hplace := (loadPeriod_ok.1 ⟨_, hstep⟩).1
  rw [loadPeriod] at hstep
  dsimp only at hstep
  rw [dif_pos hplace] at hstep
  cases hfind : p.findIdx? (· = ';'.toUInt8) with
  | none =>
    rw [hfind] at hstep
    obtain rfl := Except.ok.inj hstep
    exact ⟨hplace, _, p, .inl rfl, rfl⟩
  | some semicolon =>
    rw [hfind] at hstep
    dsimp only at hstep
    split at hstep
    · cases hstep
    · obtain rfl := Except.ok.inj hstep
      exact ⟨hplace, _, p.drop (semicolon + 1), .inr (onOff_setWeekdays onOff_zero _), rfl⟩

theorem Loading.step (hunfit : ∀ n, IsInt (unfit n)) {base : AfTimeConfig} (hdays : OnOff base.days)
    {state state' : AfTimeConfig × ℤ} {p : List UInt8} (h : Loading base state)
    (hstep : loadPeriod unfit state p = .ok state') : Loading base state' := by
  have hnum := loadPeriod_timeNum hstep
  obtain ⟨hplace, days, part, honOff, hstate⟩ := loadPeriod_eq_ok hstep
  have hints := isInt_scanNumbers hunfit [':', '-', ':'] part
  have hbefore := h.periods ⟨_, hplace⟩
  have hsame : state.1.rest.days = base.rest.days := congrArg AfTimeConfig.days h.rest
  have hdays' : OnOff days := by
    rcases honOff with rfl | honOff
    · exact hsame.symm ▸ hdays
    · exact honOff
  refine ⟨?_, fun i => ?_, ?_⟩
  · rw [hstate]
    exact h.rest
  · rw [hstate]
    dsimp only
    by_cases hi : i = ⟨_, hplace⟩
    · rw [hi, Function.update_self]
      exact ⟨hbefore.startTime.scanned fun n hn => hints n (List.mem_of_mem_take hn),
        hbefore.endTime.scanned fun n hn => hints n (List.mem_of_mem_drop hn), hdays'⟩
    · rw [Function.update_of_ne hi]
      exact h.periods i
  · rw [hnum]
    split
    · exact hplace
    · exact h.timeNum_le

/-- A configuration as it can be loaded. -/
structure AfTimeConfig.Loaded (tConfig : AfTimeConfig) : Prop where
  timeMode : IsInt tConfig.timeMode
  denyTime : IsInt tConfig.denyTime
  allowTime : IsInt tConfig.allowTime
  startTime : tConfig.segTime.startTime.IsInts
  endTime : tConfig.segTime.endTime.IsInts
  days : OnOff tConfig.days
  periods : ∀ i, (tConfig.timeList i).Loaded
  timeNum_le : tConfig.timeNum ≤ maxTimeList

theorem isInts_zero : AfTime.IsInts {} := ⟨⟨by decide, by decide⟩, by decide, by decide⟩

/-- What the loader makes of the options, the days apart. -/
def baseConfig (unfit : ℤ → ℤ) (uci : Uci) (days : Fin 7 → ℤ) : AfTimeConfig where
  timeMode := afUciGetIntValue unfit (uci "appfilter.time.time_mode")
  denyTime := afUciGetIntValue unfit (uci "appfilter.time.deny_time")
  allowTime := afUciGetIntValue unfit (uci "appfilter.time.allow_time")
  segTime := {
    startTime := AfTime.scanned {} (scanNumbers unfit [':'] (optionText uci "appfilter.time.start_time"))
    endTime := AfTime.scanned {} (scanNumbers unfit [':'] (optionText uci "appfilter.time.end_time")) }
  days := days

theorem loaded_baseConfig (hunfit : ∀ n, IsInt (unfit n)) (uci : Uci) {days : Fin 7 → ℤ} (hdays : OnOff days) :
    (baseConfig unfit uci days).Loaded where
  timeMode := isInt_afUciGetIntValue hunfit _
  denyTime := isInt_afUciGetIntValue hunfit _
  allowTime := isInt_afUciGetIntValue hunfit _
  startTime := isInts_zero.scanned (isInt_scanNumbers hunfit _ _)
  endTime := isInts_zero.scanned (isInt_scanNumbers hunfit _ _)
  days := hdays
  periods _ := ⟨isInts_zero, isInts_zero, onOff_zero⟩
  timeNum_le := Nat.zero_le _

/-- The daily limits, which are loaded behind the periods. -/
def withDailyLimit (unfit : ℤ → ℤ) (uci : Uci) (tConfig : AfTimeConfig) : AfTimeConfig :=
  if tConfig.timeMode = 2 then { tConfig with
    dailyLimit := fun weekday =>
      dailyLimitOf unfit (optionText uci ("appfilter.time.daily_limit_" ++ toString weekday.val)) }
  else tConfig

/-- The result of a load, from the text of the periods and the fields of the options. -/
def LoadsPeriods (unfit : ℤ → ℤ) (text : List UInt8) (base : AfTimeConfig) (limit : AfTimeConfig → AfTimeConfig)
    (r : ℤ × AfTimeConfig) : Prop :=
  periodTokens text = [] ∧ r = (0, base) ∨ periodTokens text ≠ [] ∧ ∃ state,
    (periodTokens text).foldlM (loadPeriod unfit) (base, 0) = .ok state ∧ r = (state.2, limit state.1)

/-- The steps of a load that succeeds. -/
theorem afLoadTimeConfig_eq_ok {uci : Uci} {r : ℤ × AfTimeConfig} : afLoadTimeConfig unfit uci = .ok r ↔
    ∃ days, (tokens ' ' (optionText uci "appfilter.time.days")).foldlM (setDay unfit) (fun _ => 0) = .ok days ∧
      ListFits (str " ") maxTimeListLen (uci "appfilter.time.time") ∧
      LoadsPeriods unfit ((uci "appfilter.time.time").text (str " ")) (baseConfig unfit uci days)
        (withDailyLimit unfit uci) r := by
  rw [afLoadTimeConfig]
  dsimp only
  rw [Except.bind_eq_ok]
  refine exists_congr fun days => and_congr_right fun _ => ?_
  rw [LoadsPeriods, Except.bind_eq_ok, ← @afUciGetListValue_ok _ []]
  constructor
  · rintro ⟨list, hlist, hend⟩
    refine ⟨⟨list, hlist⟩, ?_⟩
    rw [← afUciGetListValue_text hlist]
    split at hend
    · next hnil => exact .inl ⟨hnil, (Except.ok.inj hend).symm⟩
    · next hne =>
      obtain ⟨state, hstate, hend⟩ := Except.bind_eq_ok.1 hend
      refine .inr ⟨hne, state, hstate, ?_⟩
      rw [withDailyLimit]
      split at hend
      · next hmode => rw [if_pos hmode]; exact (Except.ok.inj hend).symm
      · next hmode => rw [if_neg hmode]; exact (Except.ok.inj hend).symm
  · rintro ⟨⟨list, hlist⟩, hend⟩
    refine ⟨list, hlist, ?_⟩
    rw [← afUciGetListValue_text hlist] at hend
    rcases hend with ⟨hnil, rfl⟩ | ⟨hne, state, hstate, rfl⟩
    · rw [if_pos hnil]
      rfl
    · rw [if_neg hne]
      refine Except.bind_eq_ok.2 ⟨state, hstate, ?_⟩
      rw [withDailyLimit]
      split
      · rfl
      · rfl

theorem Loading.loaded {base : AfTimeConfig} (hbase : base.Loaded) {state : AfTimeConfig × ℤ} (h : Loading base state) :
    state.1.Loaded := by
  have hsame {α : Type} (f : AfTimeConfig → α) : f state.1.rest = f base.rest := congrArg f h.rest
  constructor
  · exact (hsame AfTimeConfig.timeMode).symm ▸ hbase.timeMode
  · exact (hsame AfTimeConfig.denyTime).symm ▸ hbase.denyTime
  · exact (hsame AfTimeConfig.allowTime).symm ▸ hbase.allowTime
  · exact (hsame AfTimeConfig.segTime).symm ▸ hbase.startTime
  · exact (hsame AfTimeConfig.segTime).symm ▸ hbase.endTime
  · exact (hsame AfTimeConfig.days).symm ▸ hbase.days
  · exact h.periods
  · exact h.timeNum_le

theorem onOff_setDays {ps : List (List UInt8)} {days : Fin 7 → ℤ}
    (h : ps.foldlM (setDay unfit) (fun _ => 0) = .ok days) :
    OnOff days :=
  Run.MeetsM.invariant (C := fun _ _ => True) (fun _ _ _ _ hdays hset => onOff_setDay hdays hset) onOff_zero
    (Run.meetsM_true _ _) h

theorem loading_foldlM (hunfit : ∀ n, IsInt (unfit n)) {base : AfTimeConfig} (hbase : base.Loaded)
    {ps : List (List UInt8)} {state : AfTimeConfig × ℤ} (h : ps.foldlM (loadPeriod unfit) (base, 0) = .ok state) :
    Loading base state :=
  Run.MeetsM.invariant (C := fun _ _ => True) (fun _ _ _ _ hloading hstep => hloading.step hunfit hbase.days hstep)
    ⟨rfl, hbase.periods, hbase.timeNum_le⟩ (Run.meetsM_true _ _) h

theorem loaded_withDailyLimit {uci : Uci} {tConfig : AfTimeConfig} (h : tConfig.Loaded) :
    (withDailyLimit unfit uci tConfig).Loaded := by
  rw [withDailyLimit]
  split
  · exact ⟨h.timeMode, h.denyTime, h.allowTime, h.startTime, h.endTime, h.days, h.periods, h.timeNum_le⟩
  · exact h

theorem loaded_of_afLoadTimeConfig (hunfit : ∀ n, IsInt (unfit n)) {uci : Uci} {r : ℤ × AfTimeConfig}
    (h : afLoadTimeConfig unfit uci = .ok r) : r.2.Loaded := by
  obtain ⟨days, hdays, -, ⟨-, rfl⟩ | ⟨-, state, hstate, rfl⟩⟩ := afLoadTimeConfig_eq_ok.1 h
  · exact loaded_baseConfig hunfit uci (onOff_setDays hdays)
  · have hbase := loaded_baseConfig hunfit uci (onOff_setDays hdays)
    exact loaded_withDailyLimit ((loading_foldlM hunfit hbase hstate).loaded hbase)

/-! ### The texts that are written -/

section Written

variable {lib : LibUci} {ctx : lib.Context} {tConfig : AfTimeConfig} {uci uci₁ : Uci} {n : ℤ}

theorem PlainText.append {s t : List UInt8} (hs : PlainText s) (ht : PlainText t) : PlainText (s ++ t) :=
  List.forall_mem_append.2 ⟨hs, ht⟩

theorem Printed.plain {text : List UInt8} (h : Printed n text) : PlainText text := by
  have hdigits {ds : List UInt8} (hds : ∀ c ∈ ds, isdigit c = true) : PlainText ds := by
    intro c hc
    have hrange := isdigit_iff.1 (hds c hc)
    omega
  obtain ⟨ds, hds, -, ⟨-, rfl⟩ | ⟨-, rfl⟩⟩ := h.digits
  · exact hdigits hds
  · exact List.forall_mem_cons.2 ⟨by decide, hdigits hds⟩

theorem printed_printInt (n : ℤ) : Printed n (printInt n) := printInt_eq n ▸ printed_printPadded 0 n

theorem plain_daysText {sep : String} (hsep : PlainText (str sep)) (days : Fin 7 → ℤ) :
    PlainText (daysText sep days) := by
  rw [daysText]
  generalize (List.finRange 7).filter (fun i => days i = 1) = l
  induction l using List.reverseRecOn with
  | nil => exact List.forall_mem_nil _
  | append_singleton l i ih =>
    rw [List.map_append, List.map_singleton, intercalate_concat]
    split
    · exact (printed_day i).plain
    · exact (ih.append hsep).append (printed_day i).plain

theorem AfTime.plain_timeStr (time : AfTime) : PlainText time.timeStr := by
  have htext : PlainText time.text :=
    ((printed_printPadded 2 _).plain.append (by decide)).append (printed_printPadded 2 _).plain
  exact fun c hc => htext c (List.mem_of_mem_take hc)

theorem TimePeriod.plain_timeStr (period : TimePeriod) : PlainText period.timeStr :=
  ((((plain_daysText (by decide) period.days).append (by decide)).append period.startTime.plain_timeStr).append
    (by decide)).append period.endTime.plain_timeStr

theorem length_printInt (h : IsInt n) : (printInt n).length ≤ 11 := by
  have hlen : (decimal n.natAbs).length ≤ 10 := (length_decimal_le_iff (by decide)).2 (by
    have := h.1
    have := h.2
    omega)
  rw [printInt, List.length_append]
  split
  · rw [List.length_singleton]
    omega
  · rw [List.length_nil]
    omega

theorem AfTime.length_timeStr (time : AfTime) : time.timeStr.length ≤ 15 := List.length_take_le 15 _

theorem TimePeriod.length_timeStr (period : TimePeriod) : period.timeStr.length ≤ 46 := by
  have hdays : (daysText "," period.days).length ≤ 14 := length_daysText_le rfl period.days
  have hstart := period.startTime.length_timeStr
  have hend := period.endTime.length_timeStr
  have hone : (str ";").length = 1 ∧ (str "-").length = 1 := ⟨rfl, rfl⟩
  rw [TimePeriod.timeStr]
  simp only [List.length_append]
  omega

theorem timeStr_ne_nil (period : TimePeriod) : period.timeStr ≠ [] := by
  rw [TimePeriod.timeStr]
  exact List.append_ne_nil_of_left_ne_nil (List.append_ne_nil_of_right_ne_nil _ (by decide)) _

/-! ### The options that have been written -/

/-- The keys of the section. -/
def timeKeys : List String :=
  ["appfilter.time.time_mode", "appfilter.time.days", "appfilter.time.time", "appfilter.time.deny_time",
    "appfilter.time.allow_time", "appfilter.time.start_time", "appfilter.time.end_time"] ++
  (List.finRange 7).map fun weekday => "appfilter.time.daily_limit_" ++ toString weekday.val

/-- Those that a configuration is written to. -/
def AfTimeConfig.writtenKeys (tConfig : AfTimeConfig) : List String :=
  ["appfilter.time.time_mode", "appfilter.time.days"] ++
  if tConfig.timeMode = 0 then ["appfilter.time.time"]
  else ["appfilter.time.deny_time", "appfilter.time.allow_time", "appfilter.time.start_time", "appfilter.time.end_time"]

/-- A list with the values; without values it is not there. -/
def optionValues (values : List (List UInt8)) (raw : List UInt8) : UciLookup :=
  if values = [] then .notFound else .optionList values raw

/-- What is found when the configuration has been written. -/
structure Rewritten (tConfig : AfTimeConfig) (uci uci₁ : Uci) : Prop where
  timeMode : uci₁ "appfilter.time.time_mode" = optionSet (printInt tConfig.timeMode)
  days : uci₁ "appfilter.time.days" = optionSet (daysText " " tConfig.days)
  periods : tConfig.timeMode = 0 →
    ∃ raw, uci₁ "appfilter.time.time" = optionValues (tConfig.periods.map TimePeriod.timeStr) raw
  denyTime : tConfig.timeMode ≠ 0 → uci₁ "appfilter.time.deny_time" = optionSet (printInt tConfig.denyTime)
  allowTime : tConfig.timeMode ≠ 0 → uci₁ "appfilter.time.allow_time" = optionSet (printInt tConfig.allowTime)
  startTime : tConfig.timeMode ≠ 0 → uci₁ "appfilter.time.start_time" = optionSet tConfig.segTime.startTime.timeStr
  endTime : tConfig.timeMode ≠ 0 → uci₁ "appfilter.time.end_time" = optionSet tConfig.segTime.endTime.timeStr
  others : ∀ key ∈ timeKeys, key ∉ tConfig.writtenKeys → uci₁ key = uci key

theorem length_timeKey : ∀ key ∈ timeKeys, (str key).length ≤ 64 := by decide

theorem sectionFound_of_mode (hmode : uci "appfilter.time.time_mode" ≠ .notFound) : SectionFound timeKeys uci :=
  ⟨"appfilter.time.time_mode", by decide, hmode⟩

/-- The mode stays when another option is written. -/
theorem mode_update {key : String} {found : UciLookup} (hmode : uci "appfilter.time.time_mode" ≠ .notFound)
    (hkey : "appfilter.time.time_mode" ≠ key) :
    Function.update uci key found "appfilter.time.time_mode" ≠ .notFound := by
  rwa [Function.update_of_ne hkey]

section
variable {key : String} (hlib : lib.Documented "appfilter" timeKeys) (hreads : lib.Reads timeKeys ctx uci)
include hlib hreads

theorem setInt_reads (hkey : key ∈ timeKeys) (hsection : SectionFound timeKeys uci) (hn : IsInt n) :
    ∃ ctx', lib.afUciSetIntValue ctx key n = .ok (0, ctx') ∧
      lib.Reads timeKeys ctx' (Function.update uci key (optionSet (printInt n))) := by
  refine hlib.afUciSetIntValue hreads hkey hsection (printed_printInt n).plain ?_
  have hlen := length_timeKey key hkey
  have hprint := length_printInt hn
  rw [length_assignment]
  omega

theorem setText_reads {value : List UInt8} (hkey : key ∈ timeKeys) (hsection : SectionFound timeKeys uci)
    (hplain : PlainText value) (hvalue : value.length ≤ 15) :
    ∃ ctx', lib.afUciSetValue ctx key value = .ok (0, ctx') ∧
      lib.Reads timeKeys ctx' (Function.update uci key (optionSet value)) := by
  refine hlib.afUciSetValue hreads hkey hsection hplain ?_
  have hlen := length_timeKey key hkey
  rw [length_assignment]
  omega

end

section
variable (hlib : lib.Documented "appfilter" timeKeys) (hmode : uci "appfilter.time.time_mode" ≠ .notFound)
include hlib hmode

/-- Each value is added behind those that have been added before. -/
theorem foldlM_addList {texts : List (List UInt8)}
    (htexts : ∀ text ∈ texts, PlainText text ∧ text ≠ [] ∧ text.length ≤ 46) (done : List (List UInt8))
    (raw : List UInt8) {ctx : lib.Context}
    (hreads : lib.Reads timeKeys ctx (Function.update uci "appfilter.time.time" (optionValues done raw))) :
    ∃ ctx' raw', texts.foldlM (fun ctx timeStr => Prod.snd <$> lib.afUciAddList ctx "appfilter.time.time" timeStr) ctx =
        .ok ctx' ∧
      lib.Reads timeKeys ctx' (Function.update uci "appfilter.time.time" (optionValues (done ++ texts) raw')) := by
  induction texts generalizing done raw ctx with
  | nil => exact ⟨ctx, raw, rfl, by rwa [List.append_nil]⟩
  | cons text texts ih =>
    obtain ⟨hplain, hne, hlen⟩ := htexts text List.mem_cons_self
    have hfits : text.length + (str "appfilter.time.time").length < maxParamListLen - 1 :=
      (Nat.add_le_add_right hlen _).trans_lt (by decide)
    have hvalues : (optionValues done raw).values = done := by
      rw [optionValues]
      split
      · next hnil => rw [hnil]; rfl
      · rfl
    obtain ⟨ctx₁, raw₁, hadd, hreads₁⟩ :=
      hlib.afUciAddList hreads (by decide) (sectionFound_of_mode (mode_update hmode (by decide))) hplain hne hfits
    have hadded : UciLookup.optionList (done ++ [text]) raw₁ = optionValues (done ++ [text]) raw₁ :=
      (if_neg (List.append_ne_nil_of_right_ne_nil _ (List.cons_ne_nil _ _))).symm
    rw [Function.update_self, Function.update_idem, hvalues, hadded] at hreads₁
    obtain ⟨ctx', raw', hrun, hreads'⟩ :=
      ih (fun other hother => htexts other (List.mem_cons_of_mem _ hother)) (done ++ [text]) raw₁ hreads₁
    rw [List.append_assoc] at hreads'
    refine ⟨ctx', raw', ?_, hreads'⟩
    rw [List.foldlM_cons, hadd]
    exact hrun

theorem writePeriods_reads (hreads : lib.Reads timeKeys ctx uci) (hlist : uci "appfilter.time.time" ≠ .notFound) :
    ∃ ctx' raw, lib.writePeriods tConfig ctx = .ok ctx' ∧ lib.Reads timeKeys ctx' (Function.update uci
      "appfilter.time.time" (optionValues (tConfig.periods.map TimePeriod.timeStr) raw)) := by
  have htexts : ∀ text ∈ tConfig.periods.map TimePeriod.timeStr, PlainText text ∧ text ≠ [] ∧ text.length ≤ 46 := by
    intro text htext
    obtain ⟨period, -, rfl⟩ := List.mem_map.1 htext
    exact ⟨period.plain_timeStr, timeStr_ne_nil period, period.length_timeStr⟩
  obtain ⟨ctx₁, hdelete, hreads₁⟩ := hlib.afUciDelete hreads (by decide) hlist (by decide)
  obtain ⟨ctx', raw, hrun, hreads'⟩ := foldlM_addList hlib hmode htexts [] [] hreads₁
  refine ⟨ctx', raw, ?_, hreads'⟩
  rw [LibUci.writePeriods, hdelete]
  exact hrun

theorem writeSegment_reads (hreads : lib.Reads timeKeys ctx uci) (h : tConfig.Loaded) :
    ∃ ctx', lib.writeSegment tConfig ctx = .ok ctx' ∧
      lib.Reads timeKeys ctx' (Function.update (Function.update (Function.update (Function.update uci
        "appfilter.time.deny_time" (optionSet (printInt tConfig.denyTime)))
        "appfilter.time.allow_time" (optionSet (printInt tConfig.allowTime)))
        "appfilter.time.start_time" (optionSet tConfig.segTime.startTime.timeStr))
        "appfilter.time.end_time" (optionSet tConfig.segTime.endTime.timeStr)) := by
  have hkeyDeny : "appfilter.time.time_mode" ≠ "appfilter.time.deny_time" := by decide
  have hkeyAllow : "appfilter.time.time_mode" ≠ "appfilter.time.allow_time" := by decide
  have hkeyStart : "appfilter.time.time_mode" ≠ "appfilter.time.start_time" := by decide
  obtain ⟨ctx₁, hdeny, hreads₁⟩ := setInt_reads hlib hreads (show "appfilter.time.deny_time" ∈ timeKeys by decide)
    (sectionFound_of_mode hmode) h.denyTime
  obtain ⟨ctx₂, hallow, hreads₂⟩ := setInt_reads hlib hreads₁ (show "appfilter.time.allow_time" ∈ timeKeys by decide)
    (sectionFound_of_mode (mode_update hmode hkeyDeny)) h.allowTime
  obtain ⟨ctx₃, hstart, hreads₃⟩ := setText_reads hlib hreads₂
    (show "appfilter.time.start_time" ∈ timeKeys by decide)
    (sectionFound_of_mode (mode_update (mode_update hmode hkeyDeny) hkeyAllow))
    (AfTime.plain_timeStr _) (AfTime.length_timeStr _)
  obtain ⟨ctx₄, hend, hreads₄⟩ := setText_reads hlib hreads₃
    (show "appfilter.time.end_time" ∈ timeKeys by decide)
    (sectionFound_of_mode (mode_update (mode_update (mode_update hmode hkeyDeny) hkeyAllow) hkeyStart))
    (AfTime.plain_timeStr _) (AfTime.length_timeStr _)
  refine ⟨ctx₄, ?_, hreads₄⟩
  rw [LibUci.writeSegment, hdeny, Except.ok_bind]
  dsimp only
  rw [hallow, Except.ok_bind]
  dsimp only
  rw [hstart, Except.ok_bind]
  dsimp only
  rw [hend]
  rfl

end

/-- The mode and the days, which are written first. -/
def AfTimeConfig.headWritten (tConfig : AfTimeConfig) (uci : Uci) : Uci :=
  Function.update (Function.update uci "appfilter.time.time_mode" (optionSet (printInt tConfig.timeMode)))
    "appfilter.time.days" (optionSet (daysText " " tConfig.days))

theorem headWritten_of_not_mem {key : String} (h : key ∉ tConfig.writtenKeys) : tConfig.headWritten uci key = uci key := by
  obtain ⟨hhead, -⟩ := not_or.1 (mt List.mem_append.2 h)
  obtain ⟨hmode, hdays⟩ : key ≠ "appfilter.time.time_mode" ∧ key ≠ "appfilter.time.days" := by simpa using hhead
  rw [AfTimeConfig.headWritten, Function.update_of_ne hdays, Function.update_of_ne hmode]

theorem mode_headWritten : tConfig.headWritten uci "appfilter.time.time_mode" ≠ .notFound := by
  have hmode : tConfig.headWritten uci "appfilter.time.time_mode" = optionSet (printInt tConfig.timeMode) := rfl
  rw [hmode, optionSet, if_neg (printed_printInt _).ne_nil]
  exact UciLookup.noConfusion

theorem rewritten_periods (hzero : tConfig.timeMode = 0) (raw : List UInt8) :
    Rewritten tConfig uci (Function.update (tConfig.headWritten uci) "appfilter.time.time"
      (optionValues (tConfig.periods.map TimePeriod.timeStr) raw)) where
  timeMode := rfl
  days := rfl
  periods _ := ⟨raw, rfl⟩
  denyTime := absurd hzero
  allowTime := absurd hzero
  startTime := absurd hzero
  endTime := absurd hzero
  others key _ hnot := by
    have hne : key ≠ "appfilter.time.time" := by
      rintro rfl
      rw [AfTimeConfig.writtenKeys, if_pos hzero] at hnot
      exact hnot (by decide)
    rw [Function.update_of_ne hne, headWritten_of_not_mem hnot]

theorem rewritten_segment (hmode : tConfig.timeMode ≠ 0) :
    Rewritten tConfig uci (Function.update (Function.update (Function.update (Function.update (tConfig.headWritten uci)
      "appfilter.time.deny_time" (optionSet (printInt tConfig.denyTime)))
      "appfilter.time.allow_time" (optionSet (printInt tConfig.allowTime)))
      "appfilter.time.start_time" (optionSet tConfig.segTime.startTime.timeStr))
      "appfilter.time.end_time" (optionSet tConfig.segTime.endTime.timeStr)) where
  timeMode := rfl
  days := rfl
  periods hzero := absurd hzero hmode
  denyTime _ := rfl
  allowTime _ := rfl
  startTime _ := rfl
  endTime _ := rfl
  others key _ hnot := by
    have hkeys := (not_or.1 (mt List.mem_append.2 hnot)).2
    rw [if_neg hmode] at hkeys
    simp only [List.mem_cons, List.not_mem_nil, or_false, not_or] at hkeys
    obtain ⟨hdeny, hallow, hstart, hend⟩ := hkeys
    rw [Function.update_of_ne hend, Function.update_of_ne hstart, Function.update_of_ne hallow,
      Function.update_of_ne hdeny, headWritten_of_not_mem hnot]

theorem Rewritten.of_reads (h : Rewritten tConfig uci uci₁) (hreads : lib.Reads timeKeys ctx uci₁) :
    Rewritten tConfig uci (lib.read ctx) where
  timeMode := (hreads _ (by decide)).trans h.timeMode
  days := (hreads _ (by decide)).trans h.days
  periods hzero := by
    obtain ⟨raw, hperiods⟩ := h.periods hzero
    exact ⟨raw, (hreads _ (by decide)).trans hperiods⟩
  denyTime hmode := (hreads _ (by decide)).trans (h.denyTime hmode)
  allowTime hmode := (hreads _ (by decide)).trans (h.allowTime hmode)
  startTime hmode := (hreads _ (by decide)).trans (h.startTime hmode)
  endTime hmode := (hreads _ (by decide)).trans (h.endTime hmode)
  others key hkey hnot := (hreads key hkey).trans (h.others key hkey hnot)

/-- Before the commit. -/
theorem applyTimeConfigToUci_reads (hlib : lib.Documented "appfilter" timeKeys) {files : lib.Files}
    (hopen : lib.allocContext files = some ctx) (h : tConfig.Loaded)
    (hlist : lib.read ctx "appfilter.time.time" ≠ .notFound) : ∃ ctx' uci₁,
      lib.applyTimeConfigToUci tConfig files = .ok (lib.freeContext (lib.afUciCommit ctx' "appfilter").2) ∧
      lib.Reads timeKeys ctx' uci₁ ∧ SectionFound timeKeys uci₁ ∧ Rewritten tConfig (lib.read ctx) uci₁ := by
  obtain ⟨ctx₁, hsetMode, hreads₁⟩ := setInt_reads hlib (fun _ _ => rfl)
    (show "appfilter.time.time_mode" ∈ timeKeys by decide) ⟨"appfilter.time.time", by decide, hlist⟩ h.timeMode
  have hmode₁ : Function.update (lib.read ctx) "appfilter.time.time_mode" (optionSet (printInt tConfig.timeMode))
      "appfilter.time.time_mode" ≠ .notFound := @mode_headWritten tConfig (lib.read ctx)
  have hlength : (daysText " " tConfig.days).length ≤ 14 := length_daysText_le rfl tConfig.days
  obtain ⟨ctx₂, hsetDays, hreads₂⟩ := setText_reads hlib hreads₁ (show "appfilter.time.days" ∈ timeKeys by decide)
    (sectionFound_of_mode hmode₁) (plain_daysText (by decide) tConfig.days) (hlength.trans (by decide))
  have hmode₂ := @mode_headWritten tConfig (lib.read ctx)
  have happly (ctx₃ : lib.Context)
      (hrest : (if tConfig.timeMode = 0 then lib.writePeriods tConfig ctx₂ else lib.writeSegment tConfig ctx₂) =
        .ok ctx₃) :
      lib.applyTimeConfigToUci tConfig files = .ok (lib.freeContext (lib.afUciCommit ctx₃ "appfilter").2) := by
    rw [LibUci.applyTimeConfigToUci, hopen]
    dsimp only
    rw [hsetMode, Except.ok_bind]
    dsimp only
    rw [hsetDays, Except.ok_bind]
    dsimp only
    rw [hrest]
    rfl
  by_cases hzero : tConfig.timeMode = 0
  · obtain ⟨ctx₃, raw, hwrite, hreads₃⟩ := @writePeriods_reads _ _ tConfig _ hlib hmode₂ hreads₂ hlist
    exact ⟨ctx₃, _, happly ctx₃ (by rw [if_pos hzero, hwrite]), hreads₃,
      sectionFound_of_mode (mode_update hmode₂ (by decide)), rewritten_periods hzero raw⟩
  · obtain ⟨ctx₃, hwrite, hreads₃⟩ := writeSegment_reads hlib hmode₂ hreads₂ h
    exact ⟨ctx₃, _, happly ctx₃ (by rw [if_neg hzero, hwrite]), hreads₃,
      sectionFound_of_mode (mode_update (mode_update (mode_update (mode_update hmode₂ (by decide)) (by decide))
        (by decide)) (by decide)), rewritten_segment hzero⟩

/-- A new context finds the configuration that has been written. -/
theorem rewritten_applyTimeConfigToUci (hlib : lib.Documented "appfilter" timeKeys) {files : lib.Files}
    (hopen : lib.allocContext files = some ctx) (h : tConfig.Loaded)
    (hlist : lib.read ctx "appfilter.time.time" ≠ .notFound) : ∃ files',
      lib.applyTimeConfigToUci tConfig files = .ok files' ∧
      ∀ ctx', lib.allocContext files' = some ctx' → Rewritten tConfig (lib.read ctx) (lib.read ctx') := by
  obtain ⟨ctx₁, uci₁, happly, hreads, hsection, hrewritten⟩ := applyTimeConfigToUci_reads hlib hopen h hlist
  exact ⟨_, happly, fun ctx' hctx' => hrewritten.of_reads (hlib.afUciCommit hreads hsection hctx')⟩

/-! ### What is read there -/

theorem optionText_of_set {key : String} {value : List UInt8} (h : uci key = optionSet value)
    (hlen : value.length ≤ 127) : optionText uci key = value := by
  rw [optionText, h, optionSet]
  split
  · next hnil => rw [hnil]; rfl
  · exact List.take_of_length_le hlen

theorem int_of_set {key : String} (hn : IsInt n) (h : uci key = optionSet (printInt n)) :
    afUciGetIntValue unfit (uci key) = n := by
  rw [h, optionSet, if_neg (printed_printInt n).ne_nil]
  exact (printed_printInt n).atoi hn

theorem Rewritten.daysText (h : Rewritten tConfig uci uci₁) :
    optionText uci₁ "appfilter.time.days" = Oaf.daysText " " tConfig.days :=
  optionText_of_set h.days ((length_daysText_le rfl _).trans (by decide))

/-- The texts of the times fit their buffers. -/
structure AfTimeConfig.Printable (tConfig : AfTimeConfig) : Prop where
  periods : tConfig.timeMode = 0 → ∀ period ∈ tConfig.periods,
    period.startTime.text.length ≤ 15 ∧ period.endTime.text.length ≤ 15
  segTime : tConfig.timeMode ≠ 0 → tConfig.segTime.startTime.text.length ≤ 15 ∧ tConfig.segTime.endTime.text.length ≤ 15

theorem scanned_timeStr {time : AfTime} (h : time.Fits) :
    AfTime.scanned {} (scanNumbers unfit [':'] time.timeStr) = time := by
  rw [h.scan]
  rfl

/-- The fields that a configuration has from its options. -/
structure FromOptions (unfit : ℤ → ℤ) (uci : Uci) (tConfig : AfTimeConfig) : Prop where
  timeMode : tConfig.timeMode = (baseConfig unfit uci tConfig.days).timeMode
  denyTime : tConfig.denyTime = (baseConfig unfit uci tConfig.days).denyTime
  allowTime : tConfig.allowTime = (baseConfig unfit uci tConfig.days).allowTime
  segTime : tConfig.segTime = (baseConfig unfit uci tConfig.days).segTime
  dailyLimit : tConfig.timeMode = 0 → tConfig.dailyLimit = fun _ => {}

theorem fromOptions_of_afLoadTimeConfig (hunfit : ∀ n, IsInt (unfit n)) {r : ℤ × AfTimeConfig}
    (h : afLoadTimeConfig unfit uci = .ok r) : FromOptions unfit uci r.2 := by
  obtain ⟨days, hdays, -, ⟨-, rfl⟩ | ⟨-, state, hstate, rfl⟩⟩ := afLoadTimeConfig_eq_ok.1 h
  · exact ⟨rfl, rfl, rfl, rfl, fun _ => rfl⟩
  · have hloading := loading_foldlM hunfit (loaded_baseConfig hunfit uci (onOff_setDays hdays)) hstate
    have hsame {α : Type} (f : AfTimeConfig → α) : f state.1.rest = f (baseConfig unfit uci days).rest :=
      congrArg f hloading.rest
    dsimp only
    rw [withDailyLimit]
    split
    · next hmode =>
      exact ⟨hsame AfTimeConfig.timeMode, hsame AfTimeConfig.denyTime, hsame AfTimeConfig.allowTime,
        hsame AfTimeConfig.segTime, fun hzero => absurd (hzero.symm.trans hmode) (by decide)⟩
    · exact ⟨hsame AfTimeConfig.timeMode, hsame AfTimeConfig.denyTime, hsame AfTimeConfig.allowTime,
        hsame AfTimeConfig.segTime, fun _ => hsame AfTimeConfig.dailyLimit⟩

theorem Rewritten.baseConfig (hrewritten : Rewritten tConfig uci uci₁) (h : tConfig.Loaded) (hprint : tConfig.Printable)
    (hfrom : FromOptions unfit uci tConfig) :
    Oaf.baseConfig unfit uci₁ tConfig.days = Oaf.baseConfig unfit uci tConfig.days := by
  have hmode : afUciGetIntValue unfit (uci₁ "appfilter.time.time_mode") = tConfig.timeMode :=
    int_of_set h.timeMode hrewritten.timeMode
  have hbase : Oaf.baseConfig unfit uci tConfig.days = {
      timeMode := tConfig.timeMode, denyTime := tConfig.denyTime, allowTime := tConfig.allowTime
      segTime := tConfig.segTime, days := tConfig.days } := by
    rw [hfrom.timeMode, hfrom.denyTime, hfrom.allowTime, hfrom.segTime]
    rfl
  by_cases hzero : tConfig.timeMode = 0
  · have hothers := hrewritten.others
    rw [AfTimeConfig.writtenKeys, if_pos hzero] at hothers
    rw [Oaf.baseConfig, Oaf.baseConfig, optionText, optionText, optionText, optionText, hmode,
      hothers "appfilter.time.deny_time" (by decide) (by decide),
      hothers "appfilter.time.allow_time" (by decide) (by decide),
      hothers "appfilter.time.start_time" (by decide) (by decide),
      hothers "appfilter.time.end_time" (by decide) (by decide), hfrom.timeMode]
    rfl
  · obtain ⟨hstart, hend⟩ := hprint.segTime hzero
    have hstartFits : tConfig.segTime.startTime.Fits := ⟨h.startTime.1, h.startTime.2, hstart⟩
    have hendFits : tConfig.segTime.endTime.Fits := ⟨h.endTime.1, h.endTime.2, hend⟩
    have hlen (time : AfTime) : time.timeStr.length ≤ 127 := time.length_timeStr.trans (by decide)
    rw [hbase, Oaf.baseConfig, hmode, int_of_set h.denyTime (hrewritten.denyTime hzero),
      int_of_set h.allowTime (hrewritten.allowTime hzero), optionText_of_set (hrewritten.startTime hzero) (hlen _),
      optionText_of_set (hrewritten.endTime hzero) (hlen _), scanned_timeStr hstartFits, scanned_timeStr hendFits]
    have hseg : tConfig.segTime = { startTime := tConfig.segTime.startTime, endTime := tConfig.segTime.endTime } := by
      rw [hfrom.segTime]
      rfl
    exact congrArg (fun segTime => ({
      timeMode := tConfig.timeMode, denyTime := tConfig.denyTime, allowTime := tConfig.allowTime
      segTime := segTime, days := tConfig.days } : AfTimeConfig)) hseg.symm

theorem length_periods (h : tConfig.timeNum ≤ maxTimeList) : tConfig.periods.length = tConfig.timeNum := by
  rw [AfTimeConfig.periods, List.length_map, List.length_take, List.length_finRange, Nat.min_eq_left h]

theorem getElem_periods {k : ℕ} (hk : k < tConfig.periods.length) {i : Fin maxTimeList} (hi : i.val = k) :
    tConfig.periods[k] = tConfig.timeList i := by
  simp only [AfTimeConfig.periods, List.getElem_map, List.getElem_take, List.getElem_finRange]
  exact congrArg tConfig.timeList (Fin.ext hi.symm)

theorem fits_periods (h : tConfig.Loaded) (hprint : tConfig.Printable) (hmode : tConfig.timeMode = 0) :
    ∀ period ∈ tConfig.periods, period.Fits := by
  intro period hperiod
  obtain ⟨hstart, hend⟩ := hprint.periods hmode period hperiod
  obtain ⟨i, -, rfl⟩ := List.mem_map.1 hperiod
  have hloaded := h.periods i
  exact ⟨⟨hloaded.startTime.1, hloaded.startTime.2, hstart⟩, ⟨hloaded.endTime.1, hloaded.endTime.2, hend⟩, hloaded.days⟩

/-- The text of the list of periods. -/
def AfTimeConfig.timeListText (tConfig : AfTimeConfig) : List UInt8 :=
  (str " ").intercalate (tConfig.periods.map TimePeriod.timeStr)

theorem space_not_mem_timeStr {period : TimePeriod} (h : period.Fits) : ' '.toUInt8 ∉ period.timeStr := by
  have htime {time : AfTime} (h : time.Fits) : ' '.toUInt8 ∉ time.timeStr := by
    rw [h.timeStr, AfTime.text]
    have hnumber (n : ℤ) : ' '.toUInt8 ∉ printPadded 2 n := (printed_printPadded 2 n).not_mem (by decide) (by decide)
    simp only [List.mem_append, not_or]
    exact ⟨⟨hnumber _, by decide⟩, hnumber _⟩
  rw [TimePeriod.timeStr]
  simp only [List.mem_append, not_or]
  exact ⟨⟨⟨⟨not_mem_daysText (by decide) (by decide) (by decide) _, by decide⟩, htime h.startTime⟩, by decide⟩,
    htime h.endTime⟩

/-! ### The second load -/

/-- The same configuration; what is in the places from `timeNum` on is not used. -/
structure AfTimeConfig.Same (a b : AfTimeConfig) : Prop where
  timeMode : a.timeMode = b.timeMode
  denyTime : a.denyTime = b.denyTime
  allowTime : a.allowTime = b.allowTime
  segTime : a.segTime = b.segTime
  days : a.days = b.days
  timeNum : a.timeNum = b.timeNum
  periods : ∀ i : Fin maxTimeList, i.val < a.timeNum → a.timeList i = b.timeList i
  dailyLimit : a.dailyLimit = b.dailyLimit

theorem days_of_afLoadTimeConfig (hunfit : ∀ n, IsInt (unfit n)) {r : ℤ × AfTimeConfig} {days : Fin 7 → ℤ}
    (hdays : (tokens ' ' (optionText uci "appfilter.time.days")).foldlM (setDay unfit) (fun _ => 0) = .ok days)
    (h : LoadsPeriods unfit ((uci "appfilter.time.time").text (str " ")) (baseConfig unfit uci days)
      (withDailyLimit unfit uci) r) : r.2.days = days := by
  rcases h with ⟨-, rfl⟩ | ⟨-, state, hstate, rfl⟩
  · rfl
  · have hloading := loading_foldlM hunfit (loaded_baseConfig hunfit uci (onOff_setDays hdays)) hstate
    have hsame : state.1.rest.days = (baseConfig unfit uci days).rest.days := congrArg AfTimeConfig.days hloading.rest
    dsimp only
    rw [withDailyLimit]
    split
    · exact hsame
    · exact hsame

/-- Outside manual mode the list is left as it is, and the next load finds what this one has found. -/
theorem reload_dynamic (hunfit : ∀ n, IsInt (unfit n)) {oldVerConfig : ℤ}
    (hload : afLoadTimeConfig unfit uci = .ok (oldVerConfig, tConfig)) (hprint : tConfig.Printable)
    (hmode : tConfig.timeMode ≠ 0) (hrewritten : Rewritten tConfig uci uci₁) :
    afLoadTimeConfig unfit uci₁ = .ok (oldVerConfig, tConfig) := by
  have hloaded : tConfig.Loaded := loaded_of_afLoadTimeConfig hunfit hload
  have hfrom : FromOptions unfit uci tConfig := fromOptions_of_afLoadTimeConfig hunfit hload
  obtain ⟨days, hdays, hfits, hend⟩ := afLoadTimeConfig_eq_ok.1 hload
  obtain rfl : tConfig.days = days := days_of_afLoadTimeConfig hunfit hdays hend
  have hothers := hrewritten.others
  rw [AfTimeConfig.writtenKeys, if_neg hmode] at hothers
  have htime : uci₁ "appfilter.time.time" = uci "appfilter.time.time" :=
    hothers "appfilter.time.time" (by decide) (by decide)
  have hlimit : withDailyLimit unfit uci₁ = withDailyLimit unfit uci := by
    have hsame (weekday : Fin 7) : uci₁ ("appfilter.time.daily_limit_" ++ toString weekday.val) =
        uci ("appfilter.time.daily_limit_" ++ toString weekday.val) :=
      hothers _ (List.mem_append_right _ (List.mem_map_of_mem (List.mem_finRange weekday)))
        (by fin_cases weekday <;> decide)
    funext config
    simp only [withDailyLimit, optionText, hsame]
  refine afLoadTimeConfig_eq_ok.2 ⟨tConfig.days, ?_, ?_, ?_⟩
  · rw [hrewritten.daysText, loadDays hloaded.days]
  · rwa [htime]
  · rwa [htime, hrewritten.baseConfig hloaded hprint hfrom, hlimit]

theorem Rewritten.text (hrewritten : Rewritten tConfig uci uci₁) (hmode : tConfig.timeMode = 0) :
    (uci₁ "appfilter.time.time").text (str " ") = tConfig.timeListText := by
  obtain ⟨raw, hperiods⟩ := hrewritten.periods hmode
  rw [hperiods, optionValues, AfTimeConfig.timeListText]
  split
  · next hnil => rw [hnil]; rfl
  · rfl

theorem Rewritten.fits (hrewritten : Rewritten tConfig uci uci₁) (hmode : tConfig.timeMode = 0) :
    ListFits (str " ") maxTimeListLen (uci₁ "appfilter.time.time") ↔ tConfig.timeListText.length < maxTimeListLen := by
  obtain ⟨raw, hperiods⟩ := hrewritten.periods hmode
  rw [hperiods, optionValues, AfTimeConfig.timeListText]
  split
  · next hnil =>
    rw [hnil]
    exact iff_of_true trivial (by decide)
  · next hne => exact or_iff_right hne

theorem periodTokens_timeListText (hfits : ∀ period ∈ tConfig.periods, period.Fits)
    (hlen : tConfig.timeListText.length < maxTimeListLen) :
    periodTokens tConfig.timeListText = tConfig.periods.map TimePeriod.timeStr := by
  rw [periodTokens, List.take_of_length_le (Nat.le_sub_one_of_lt hlen)]
  refine tokens_intercalate fun text htext => ?_
  obtain ⟨period, hperiod, rfl⟩ := List.mem_map.1 htext
  exact ⟨timeStr_ne_nil period, space_not_mem_timeStr (hfits period hperiod)⟩

/-- In manual mode the list has been written anew. If it fits, it is read back, now in the new format. -/
theorem reload_manual (hunfit : ∀ n, IsInt (unfit n)) {oldVerConfig : ℤ}
    (hload : afLoadTimeConfig unfit uci = .ok (oldVerConfig, tConfig)) (hprint : tConfig.Printable)
    (hmode : tConfig.timeMode = 0) (hrewritten : Rewritten tConfig uci uci₁)
    (hlen : tConfig.timeListText.length < maxTimeListLen) :
    ∃ tConfig', afLoadTimeConfig unfit uci₁ = .ok (0, tConfig') ∧ tConfig.Same tConfig' := by
  have hloaded : tConfig.Loaded := loaded_of_afLoadTimeConfig hunfit hload
  have hfrom : FromOptions unfit uci tConfig := fromOptions_of_afLoadTimeConfig hunfit hload
  have hfits := fits_periods hloaded hprint hmode
  have hbase := hrewritten.baseConfig hloaded hprint hfrom
  have hnum := length_periods hloaded.timeNum_le
  have hdays : (tokens ' ' (optionText uci₁ "appfilter.time.days")).foldlM (setDay unfit) (fun _ => 0) =
      .ok tConfig.days := by rw [hrewritten.daysText, loadDays hloaded.days]
  have hsame (timeList : Fin maxTimeList → TimePeriod)
      (hread : ∀ i : Fin maxTimeList, i.val < tConfig.timeNum → tConfig.timeList i = timeList i) :
      tConfig.Same { baseConfig unfit uci tConfig.days with timeList, timeNum := tConfig.timeNum } :=
    ⟨hfrom.timeMode, hfrom.denyTime, hfrom.allowTime, hfrom.segTime, rfl, rfl, hread, hfrom.dailyLimit hmode⟩
  obtain ⟨timeList, hrun, -, hread⟩ := @loadPeriods_timeStr unfit tConfig.periods hfits 0
    (baseConfig unfit uci tConfig.days) (by rw [hnum]; exact (Nat.zero_add _).trans_le hloaded.timeNum_le)
  have hend : (baseConfig unfit uci tConfig.days).timeNum + tConfig.periods.length = tConfig.timeNum :=
    (Nat.zero_add _).trans hnum
  rw [hend] at hrun
  have hread' (i : Fin maxTimeList) (hi : i.val < tConfig.timeNum) : tConfig.timeList i = timeList i := by
    rw [hread i i (hnum ▸ hi) (Nat.zero_add _).symm]
    exact (getElem_periods (hnum ▸ hi) rfl).symm
  have hzero : tConfig.timeMode ≠ 2 := by
    rw [hmode]
    decide
  have hlimit (config : AfTimeConfig) (hconfig : config.timeMode = tConfig.timeMode) :
      withDailyLimit unfit uci₁ config = config := by
    rw [withDailyLimit, if_neg fun htwo => hzero (hconfig.symm.trans htwo)]
  by_cases hnil : tConfig.periods.map TimePeriod.timeStr = []
  · refine ⟨_, afLoadTimeConfig_eq_ok.2 ⟨tConfig.days, hdays, (hrewritten.fits hmode).2 hlen, .inl ⟨?_, rfl⟩⟩, ?_⟩
    · rw [hrewritten.text hmode, periodTokens_timeListText hfits hlen, hnil]
    · have hnone : tConfig.timeNum = 0 := by rw [← hnum, List.map_eq_nil_iff.1 hnil, List.length_nil]
      have hconfig := hsame (fun _ => {}) fun i hi => absurd hi (by rw [hnone]; exact Nat.not_lt_zero _)
      rw [hnone] at hconfig
      rw [hbase]
      exact hconfig
  · refine ⟨_, afLoadTimeConfig_eq_ok.2 ⟨tConfig.days, hdays, (hrewritten.fits hmode).2 hlen, ?_⟩, hsame timeList hread'⟩
    rw [hrewritten.text hmode, LoadsPeriods, periodTokens_timeListText hfits hlen, hbase]
    refine .inr ⟨hnil, _, hrun, ?_⟩
    dsimp only
    rw [hlimit]
    exact hfrom.timeMode.symm

/-- The list of a configuration of the old format is there. -/
theorem found_of_old (hload : afLoadTimeConfig unfit uci = .ok (1, tConfig)) :
    uci "appfilter.time.time" ≠ .notFound := by
  intro hnone
  obtain ⟨_, -, -, ⟨-, hresult⟩ | ⟨hne, -⟩⟩ := afLoadTimeConfig_eq_ok.1 hload
  · cases hresult
  · rw [hnone] at hne
    exact hne rfl

/-- What the daemon finds after it has written a configuration of the old format back, none of whose texts is too long
for its buffer. In manual mode it is the same configuration in the new format, unless the new list is too long for the
buffer of the loader. In the other modes it is the same configuration, still in the old format. -/
theorem rewrite_exact (hlib : lib.Documented "appfilter" timeKeys) (hunfit : ∀ n, IsInt (unfit n)) {files : lib.Files}
    (hopen : lib.allocContext files = some ctx) (hload : afLoadTimeConfig unfit (lib.read ctx) = .ok (1, tConfig))
    (hprint : tConfig.Printable) : ∃ files', lib.applyTimeConfigToUci tConfig files = .ok files' ∧
      ∀ ctx', lib.allocContext files' = some ctx' →
        (tConfig.timeMode ≠ 0 → afLoadTimeConfig unfit (lib.read ctx') = .ok (1, tConfig)) ∧
        (tConfig.timeMode = 0 →
          ((∃ r, afLoadTimeConfig unfit (lib.read ctx') = .ok r) ↔ tConfig.timeListText.length < maxTimeListLen) ∧
          ∀ r, afLoadTimeConfig unfit (lib.read ctx') = .ok r → r.1 = 0 ∧ tConfig.Same r.2) := by
  have hloaded : tConfig.Loaded := loaded_of_afLoadTimeConfig hunfit hload
  obtain ⟨files', happly, hrewritten⟩ := rewritten_applyTimeConfigToUci hlib hopen hloaded (found_of_old hload)
  refine ⟨files', happly, fun ctx' hctx' => ?_⟩
  have h : Rewritten tConfig (lib.read ctx) (lib.read ctx') := hrewritten ctx' hctx'
  refine ⟨fun hmode => reload_dynamic hunfit hload hprint hmode h, fun hmode => ?_⟩
  have hlen (r : ℤ × AfTimeConfig) (hr : afLoadTimeConfig unfit (lib.read ctx') = .ok r) :
      tConfig.timeListText.length < maxTimeListLen := by
    obtain ⟨-, -, hfits, -⟩ := afLoadTimeConfig_eq_ok.1 hr
    exact (h.fits hmode).1 hfits
  refine ⟨⟨fun ⟨r, hr⟩ => hlen r hr, fun hroom => ?_⟩, fun r hr => ?_⟩
  · obtain ⟨tConfig', hload', -⟩ := reload_manual hunfit hload hprint hmode h hroom
    exact ⟨_, hload'⟩
  · obtain ⟨tConfig', hload', hsame⟩ := reload_manual hunfit hload hprint hmode h (hlen r hr)
    rw [hload'] at hr
    rw [← Except.ok.inj hr]
    exact ⟨rfl, hsame⟩

end Written

end

/-- A library with the options under their keys: those in the files and, while the package is loaded, those of the
package. -/
structure MemoryContext where
  saved : List UInt8 → UciLookup
  loaded : Option (List UInt8 → UciLookup) := none

namespace MemoryContext

def package (ctx : MemoryContext) : List UInt8 → UciLookup := ctx.loaded.getD ctx.saved

def change (ctx : MemoryContext) (key : List UInt8) (found : UciLookup) : MemoryContext :=
  { ctx with loaded := some (Function.update ctx.package key found) }

end MemoryContext

abbrev memoryUci : LibUci where
  Files := List UInt8 → UciLookup
  Context := MemoryContext
  Ptr := List UInt8 × List UInt8
  allocContext files := some { saved := files }
  freeContext ctx := ctx.saved
  lookupPtr ctx param := (some (param.takeWhile (· ≠ '='.toUInt8), (param.dropWhile (· ≠ '='.toUInt8)).tail),
    { ctx with loaded := some ctx.package })
  found ctx ptr := ctx.package ptr.1
  set ctx ptr := (0, ctx.change ptr.1 (optionSet ptr.2))
  delete ctx ptr :=
    match ctx.package ptr.1 with
    | .notFound => (3, ctx)
    | _ => (0, ctx.change ptr.1 .notFound)
  addList ctx ptr := (0, ctx.change ptr.1 (.optionList ((ctx.package ptr.1).values ++ [ptr.2]) []))
  save ctx _ := (0, { ctx with saved := ctx.package })
  commit ctx ptr := (0, ptr, { ctx with saved := ctx.package })
  unload ctx _ := { ctx with loaded := none }

theorem equals_not_mem : ∀ key ∈ timeKeys, '='.toUInt8 ∉ str key := by decide

theorem ne_equals {key : String} (hkey : key ∈ timeKeys) : ∀ c ∈ str key, decide (c ≠ '='.toUInt8) = true :=
  fun _ hc => decide_eq_true fun heq => equals_not_mem key hkey (heq ▸ hc)

theorem lookupPtr_assignment {key : String} (hkey : key ∈ timeKeys) (ctx : MemoryContext) (value : List UInt8) :
    memoryUci.lookupPtr ctx (assignment key value) = (some (str key, value), { ctx with loaded := some ctx.package }) := by
  have hequals : '='.toUInt8 :: value = str "=" ++ value := rfl
  have hkeep := @List.takeWhile_append_of_pos _ _ (str key) ('='.toUInt8 :: value) (ne_equals hkey)
  have hdrop := @List.dropWhile_append_of_pos _ _ (str key) ('='.toUInt8 :: value) (ne_equals hkey)
  dsimp only [assignment]
  rw [List.append_assoc, ← hequals, hkeep, hdrop, List.takeWhile_cons_of_neg (by decide),
    List.dropWhile_cons_of_neg (by decide), List.append_nil]
  rfl

theorem lookupPtr_key {key : String} (hkey : key ∈ timeKeys) (ctx : MemoryContext) :
    memoryUci.lookupPtr ctx (str key) = (some (str key, []), { ctx with loaded := some ctx.package }) := by
  dsimp only
  rw [List.takeWhile_eq_self_iff.2 (ne_equals hkey), List.dropWhile_eq_nil_iff.2 (ne_equals hkey)]
  rfl

theorem read_memoryUci {key : String} (hkey : key ∈ timeKeys) (ctx : MemoryContext) :
    memoryUci.read ctx key = ctx.package (str key) := by
  rw [LibUci.read, lookupPtr_key hkey]
  rfl

/-- A change that has been saved is found again. -/
theorem reads_change {key : String} (hkey : key ∈ timeKeys) (ctx : MemoryContext) (found : UciLookup) :
    memoryUci.Reads timeKeys { saved := Function.update ctx.package (str key) found }
      (Function.update (memoryUci.read ctx) key found) := by
  have hinj : ∀ a ∈ timeKeys, ∀ b ∈ timeKeys, str a = str b → a = b := by decide +kernel
  intro other hother
  rw [read_memoryUci hother]
  change Function.update ctx.package (str key) found (str other) = _
  by_cases heq : other = key
  · rw [heq, Function.update_self, Function.update_self]
  · rw [Function.update_of_ne heq, Function.update_of_ne fun hstr => heq (hinj _ hother _ hkey hstr),
      read_memoryUci hother]

theorem documented_memoryUci : memoryUci.Documented "appfilter" timeKeys where
  set hkey _ _ := ⟨_, _, lookupPtr_assignment hkey _ _, rfl, rfl, reads_change hkey _ _⟩
  delete {ctx key} hkey hfound := by
    rw [read_memoryUci hkey] at hfound
    have hdelete : memoryUci.delete { ctx with loaded := some ctx.package } (str key, []) =
        (0, ctx.change (str key) .notFound) := by
      dsimp only
      split
      · next hnone => exact absurd hnone hfound
      · rfl
    refine ⟨_, _, lookupPtr_key hkey _, ?_⟩
    rw [hdelete]
    exact ⟨rfl, rfl, reads_change hkey _ _⟩
  addList {ctx key value} hkey _ _ _ := by
    refine ⟨[], _, _, lookupPtr_assignment hkey _ _, rfl, rfl, ?_⟩
    rw [read_memoryUci hkey]
    exact reads_change hkey _ _
  commit {ctx} _ := by
    refine ⟨_, _, rfl, fun ctx' hctx' key hkey => ?_⟩
    rw [← Option.some.inj hctx', read_memoryUci hkey, read_memoryUci hkey]
    rfl

/-- A list with a period of each format. -/
def mixedFiles : List UInt8 → UciLookup := fun key =>
  if key = str "appfilter.time.time_mode" then .optionString (str "0")
  else if key = str "appfilter.time.days" then .optionString (str "0 6")
  else if key = str "appfilter.time.time" then .optionList [str "08:00-09:30", str "1,2;10:00-11:05"] []
  else .notFound

theorem rewrite_exact_mixedFiles : ∃ tConfig files' r,
    afLoadTimeConfig (fun _ => 0) (memoryUci.read { saved := mixedFiles }) = .ok (1, tConfig) ∧
    memoryUci.applyTimeConfigToUci tConfig mixedFiles = .ok files' ∧
    afLoadTimeConfig (fun _ => 0) (memoryUci.read { saved := files' }) = .ok r ∧ r.1 = 0 ∧ tConfig.Same r.2 := by
  obtain ⟨tConfig, hload, hmode, hperiods, hroom⟩ : ∃ tConfig,
      afLoadTimeConfig (fun _ => 0) (memoryUci.read { saved := mixedFiles }) = .ok (1, tConfig) ∧
      tConfig.timeMode = 0 ∧
      (∀ period ∈ tConfig.periods, period.startTime.text.length ≤ 15 ∧ period.endTime.text.length ≤ 15) ∧
      tConfig.timeListText.length < maxTimeListLen :=
    ⟨_, rfl, by decide +kernel, by decide +kernel, by decide +kernel⟩
  have hunfit : ∀ n : ℤ, IsInt ((fun _ => 0) n) := fun _ => isInts_zero.1
  have hopen : memoryUci.allocContext mixedFiles = some { saved := mixedFiles } := rfl
  obtain ⟨files', happly, hreload⟩ := rewrite_exact documented_memoryUci hunfit hopen hload
    ⟨fun _ => hperiods, fun h => absurd hmode h⟩
  obtain ⟨hloads, hsame⟩ := (hreload _ rfl).2 hmode
  obtain ⟨r, hr⟩ := hloads.2 hroom
  exact ⟨tConfig, files', r, hload, happly, hr, hsame r hr⟩

end Oaf
