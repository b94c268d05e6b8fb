import DOpenWrt.Rtp2httpd.TimezoneIso

/-!
# Numbers and forms of time strings

What `sscanf` reads as a number, taken apart, and the five forms that `timezone_parse_to_utc` tells apart.
-/

namespace Rtp2httpd
open CString

/-! ### Numbers -/

section
variable {s r : List UInt8} {n : Int} {c : UInt8} {w w' : Nat}

/-- A sign in front of a number, which may be followed by other digits. -/
theorem scanSign_cases (hs : s ≠ []) : ∃ negative sign rest, s = sign ++ rest ∧ (∀ c ∈ sign, isSign c = true) ∧
    (negative = true → sign ≠ []) ∧ ∀ width t, t = rest ∨ (∃ d ds, t = d :: ds ∧ isdigit d = true) →
      scanSign width (sign ++ t) = (negative, width - sign.length, t) := by
  obtain ⟨c, s, rfl⟩ := List.exists_cons_of_ne_nil hs
  by_cases hminus : c.toNat = '-'.toNat
  · refine ⟨true, [c], s, rfl, fun d hd => ?_, fun _ => List.cons_ne_nil c [], fun width t _ => ?_⟩
    · rw [List.mem_singleton.1 hd]
      exact decide_eq_true (.inr hminus)
    · rw [List.singleton_append, scanSign, if_pos hminus, List.length_singleton]
  by_cases hplus : c.toNat = '+'.toNat
  · refine ⟨false, [c], s, rfl, fun d hd => ?_, fun h => absurd h Bool.false_ne_true, fun width t _ => ?_⟩
    · rw [List.mem_singleton.1 hd]
      exact decide_eq_true (.inl hplus)
    · rw [List.singleton_append, scanSign, if_neg hminus, if_pos hplus, List.length_singleton]
  · refine ⟨false, [], c :: s, rfl, fun d hd => absurd hd List.not_mem_nil, fun h => absurd h Bool.false_ne_true,
      fun width t ht => ?_⟩
    rw [List.nil_append, List.length_nil, Nat.sub_zero]
    rcases ht with rfl | ⟨d, ds, rfl, hd⟩
    · rw [scanSign, if_neg hminus, if_neg hplus]
    · exact scanSign_digits (List.forall_mem_singleton.2 hd) (List.cons_ne_nil d []) width ds

/-- The parts of a number that is read: blanks, a sign and digits. -/
structure ScannedInt (s r blanks sign ds : List UInt8) : Prop where
  text_eq : s = blanks ++ (sign ++ (ds ++ r))
  blank : ∀ c ∈ blanks, isspace c = true
  isSign : ∀ c ∈ sign, isSign c = true
  digit : ∀ c ∈ ds, isdigit c = true
  ne_nil : ds ≠ []

theorem isSign_plain (h : isSign c = true) : isspace c = false ∧ isdigit c = false := by
  unfold isSign at h
  unfold isspace isdigit
  have hplus : '+'.toNat = 43 := rfl
  have hminus : '-'.toNat = 45 := rfl
  have h0 : '0'.toNat = 48 := rfl
  have := of_decide_eq_true h
  exact ⟨decide_eq_false (by omega), decide_eq_false (by omega)⟩

theorem exists_scannedInt (h : scanInt w s = some (n, r)) : ∃ negative blanks sign ds,
    ScannedInt s r blanks sign ds ∧ ds.length ≤ w - sign.length ∧ (negative = true → sign ≠ []) ∧
    n = (if negative then -digitsVal ds else digitsVal ds : Int) ∧ ∀ w' rest, ds.length ≤ w' - sign.length →
      (ds.length = w' - sign.length ∨ rest.head?.any isdigit = false) →
        scanInt w' (blanks ++ (sign ++ (ds ++ rest))) = some (n, rest) := by
  have hne : s.dropWhile isspace ≠ [] := by
    intro hnil
    unfold scanInt at h
    rw [hnil] at h
    simp [scanSign] at h
  obtain ⟨negative, sign, number, htext, hsign, hnegative, hscan⟩ := scanSign_cases hne
  unfold scanInt at h
  rw [htext, hscan w number (.inl rfl)] at h
  dsimp only at h
  by_cases hnil : (number.take (w - sign.length)).takeWhile isdigit = []
  · rw [if_pos hnil] at h
    cases h
  rw [if_neg hnil] at h
  obtain ⟨hn, hr⟩ := Prod.mk.inj (Option.some.inj h)
  generalize hds : (number.take (w - sign.length)).takeWhile isdigit = ds at hnil hn hr
  have hdigit : ∀ c ∈ ds, isdigit c = true := fun c hc => List.mem_takeWhile_imp (hds ▸ hc)
  have hnumber : number = ds ++ r := by
    have hprefix : ds <+: number := hds ▸ (List.takeWhile_prefix _).trans (List.take_prefix _ _)
    rw [← hr]
    exact (List.prefix_append_drop hprefix)
  have hparts : s = s.takeWhile isspace ++ (sign ++ (ds ++ r)) := by
    rw [← hnumber, ← htext, List.takeWhile_append_dropWhile]
  refine ⟨negative, s.takeWhile isspace, sign, ds,
    ⟨hparts, fun c hc => List.mem_takeWhile_imp hc, hsign, hdigit, hnil⟩, ?_, hnegative, hn.symm, ?_⟩
  · rw [← hds]
    exact (List.takeWhile_prefix _).length_le.trans (List.length_take_le _ _)
  · intro w' rest hlen hend
    have hhead : ∀ rest, (s.takeWhile isspace ++ (sign ++ (ds ++ rest))).dropWhile isspace = sign ++ (ds ++ rest) := by
      intro rest
      rw [List.dropWhile_append_of_pos fun c hc => List.mem_takeWhile_imp hc]
      cases hcase : sign with
      | nil => exact dropWhile_isspace_digits hdigit hnil rest
      | cons c sign =>
        rw [List.cons_append, List.dropWhile_cons_of_neg (by simp [(isSign_plain (hsign c (hcase ▸ List.mem_cons_self))).1])]
    have hscan' : scanSign w' (sign ++ (ds ++ rest)) = (negative, w' - sign.length, ds ++ rest) := by
      obtain ⟨d, ds, rfl⟩ := List.exists_cons_of_ne_nil hnil
      exact hscan w' _ (.inr ⟨d, ds ++ rest, rfl, hdigit d List.mem_cons_self⟩)
    unfold scanInt
    rw [hhead, hscan']
    dsimp only
    rw [takeWhile_digits hdigit hlen hend, if_neg hnil, List.drop_left' rfl, hn]

/-- A number that ends at another character than a digit: it is read so with more width too, and no more digits than
the width stand at the beginning of the string. -/
theorem scanInt_ends (h : scanInt w s = some (n, c :: r)) (hc : isdigit c = false) (hw : w ≤ w') (tail : List UInt8) :
    scanInt w' (s ++ tail) = some (n, c :: (r ++ tail)) ∧ ((s ++ tail).takeWhile isdigit).length ≤ w ∧ c ∈ s := by
  obtain ⟨-, blanks, sign, ds, hparts, hlen, -, -, hscan⟩ := exists_scannedInt h
  have htext : s ++ tail = blanks ++ (sign ++ (ds ++ (c :: r ++ tail))) := by
    rw [hparts.text_eq]
    simp only [List.append_assoc]
  refine ⟨?_, ?_, ?_⟩
  · rw [htext]
    exact hscan w' _ (by omega) (.inr (by simpa using hc))
  · rw [htext]
    cases hblanks : blanks with
    | cons d blanks =>
      have hd : isdigit d = false := by
        by_contra hd
        have := (isdigit_plain (Bool.not_eq_false _ ▸ hd)).1
        rw [hparts.blank d (hblanks ▸ List.mem_cons_self)] at this
        cases this
      rw [List.cons_append, List.takeWhile_cons_of_neg (by simp [hd])]
      exact Nat.zero_le w
    | nil =>
      cases hsign : sign with
      | cons d sign =>
        have hd := (isSign_plain (hparts.isSign d (hsign ▸ List.mem_cons_self))).2
        rw [List.nil_append, List.cons_append, List.takeWhile_cons_of_neg (by simp [hd])]
        exact Nat.zero_le w
      | nil =>
        rw [List.nil_append, List.nil_append, List.takeWhile_append_of_pos hparts.digit, List.cons_append,
          List.takeWhile_cons_of_neg (by simp [hc]), List.append_nil]
        omega
  · rw [hparts.text_eq]
    simp

/-- A number of two characters. -/
theorem scanInt_two_bounds (h : scanInt 2 s = some (n, r)) : -9 ≤ n ∧ n ≤ 99 := by
  obtain ⟨negative, blanks, sign, ds, hparts, hlen, hnegative, rfl, -⟩ := exists_scannedInt h
  have hval := digitsVal_lt hparts.digit
  cases negative with
  | true =>
    have hone := List.length_pos_of_ne_nil (hnegative rfl)
    have hpow : 10 ^ ds.length ≤ 10 ^ 1 := Nat.pow_le_pow_right (by decide) (by omega)
    rw [if_pos rfl]
    omega
  | false =>
    have hpow : 10 ^ ds.length ≤ 10 ^ 2 := Nat.pow_le_pow_right (by decide) (by omega)
    rw [if_neg Bool.false_ne_true]
    omega

end

/-! ### The forms of a time -/

def capitalT : UInt8 := UInt8.ofNat 'T'.toNat

section
variable {s : List UInt8}

theorem isdigit_of_takeWhile (h : (s.takeWhile isdigit).length = s.length) : ∀ c ∈ s, isdigit c = true := by
  rw [← (List.takeWhile_prefix _).eq_of_length h]
  exact fun c hc => List.mem_takeWhile_imp hc

theorem isBasic_of_format (h : isBasicIso8601Format s = true) : s[8]? = some capitalT ∧ ∀ c ∈ s.take 8, isdigit c = true := by
  have h := of_decide_eq_true h
  exact ⟨h.2.1, List.all_eq_true.1 h.2.2.1⟩

theorem capitalT_mem_of_basic (h : isBasicIso8601Format s = true) : capitalT ∈ s :=
  List.mem_of_getElem? (isBasic_of_format h).1

/-- The five forms of a time, tried in order. -/
theorem timezoneParseToUtc_forms (s : List UInt8) (tz d : Int) :
    (s.length ≤ 10 ∧ (∀ c ∈ s, isdigit c = true) ∧ timezoneParseToUtc s tz d = .ok (some (digitsVal s + d))) ∨
    (s.length = 14 ∧ (∀ c ∈ s, isdigit c = true) ∧
      timezoneParseToUtc s tz d = .ok ((scanDigits14 s).bind fun t => toUtc t.tm tz d)) ∨
    ((∃ ds, s = ds ++ str "GMT" ∧ ds.length = 14 ∧ ∀ c ∈ ds, isdigit c = true) ∧
      timezoneParseToUtc s tz d = .ok ((scanDigits14 s).bind fun t => toUtc t.tm 0 d)) ∨
    (isBasicIso8601Format s = true ∧ timezoneParseToUtc s tz d =
      (timezoneParseBasicIso8601 s timezoneSuffixSize).map (·.bind (·.toUtc tz d))) ∨
    (isBasicIso8601Format s = false ∧ capitalT ∈ s ∧ timezoneParseToUtc s tz d =
      (timezoneParseIso8601 s timezoneSuffixSize).map (·.bind (·.toUtc tz d))) ∨
    isBasicIso8601Format s = false ∧ capitalT ∉ s ∧ timezoneParseToUtc s tz d = .ok none := by
  rw [timezoneParseToUtc]
  by_cases hunix : s.length ≤ 10 ∧ (s.takeWhile isdigit).length = s.length
  · exact .inl ⟨hunix.1, isdigit_of_takeWhile hunix.2, if_pos hunix⟩
  rw [if_neg hunix]
  by_cases hplain : s.length = 14 ∧ (s.takeWhile isdigit).length = 14
  · refine .inr (.inl ⟨hplain.1, isdigit_of_takeWhile (hplain.2.trans hplain.1.symm), ?_⟩)
    rw [if_pos (.inl hplain), if_neg (by omega)]
  by_cases hgmt : s.length = 17 ∧ (s.takeWhile isdigit).length = 14 ∧ s.drop 14 = str "GMT"
  · have htake : s.takeWhile isdigit = s.take 14 := hgmt.2.1 ▸ List.prefix_iff_eq_take.1 (List.takeWhile_prefix _)
    refine .inr (.inr (.inl ⟨⟨s.take 14, ?_, htake ▸ hgmt.2.1, fun c hc => ?_⟩, ?_⟩))
    · rw [← hgmt.2.2, List.take_append_drop]
    · exact List.mem_takeWhile_imp (htake ▸ hc)
    · rw [if_pos (.inr hgmt), if_pos hgmt.1]
  rw [if_neg (not_or.2 ⟨hplain, hgmt⟩)]
  by_cases hbasic : isBasicIso8601Format s = true
  · exact .inr (.inr (.inr (.inl ⟨hbasic, if_pos hbasic⟩)))
  rw [if_neg hbasic]
  rw [Bool.not_eq_true] at hbasic
  by_cases hT : capitalT ∈ s
  · exact .inr (.inr (.inr (.inr (.inl ⟨hbasic, hT, if_pos hT⟩))))
  · exact .inr (.inr (.inr (.inr (.inr ⟨hbasic, hT, if_neg hT⟩))))

end

end Rtp2httpd
