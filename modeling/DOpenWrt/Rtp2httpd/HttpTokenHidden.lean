import DOpenWrt.Rtp2httpd.HttpRequest

/-!
# The access token in forwarded headers

A `Cookie` header never carries the token on. A `User-Agent` header carries a marker on exactly when nothing but
the marker stands in it, or when taking out the first one leaves another.
-/

namespace Rtp2httpd
open CString

def cookieSeparator : UInt8 := UInt8.ofNat ';'.toNat

/-! ### Cookies -/

/-- The cookies of a header value. -/
def cookiesOf (value : List UInt8) : List (List UInt8) := (value.splitOn cookieSeparator).map (·.dropWhile isBlank)

def cookieNamed (name cookie : List UInt8) : Prop :=
  cookie[name.length]? = some (UInt8.ofNat '='.toNat) ∧ startsWithCase name cookie = true

instance cookieNamed.decidable (name cookie : List UInt8) : Decidable (cookieNamed name cookie) :=
  inferInstanceAs (Decidable (_ ∧ _))

theorem cookiesOf_self {cookie : List UInt8} (hsemi : cookieSeparator ∉ cookie) (hblank : cookie.head?.any isBlank = false) :
    cookiesOf cookie = [cookie] := by
  rw [cookiesOf, List.splitOn_eq_singleton hsemi, List.map_singleton]
  cases cookie with
  | nil => rfl
  | cons c cookie =>
    have : isBlank c = false := by simpa using hblank
    rw [List.dropWhile_cons_of_neg (by simp [this])]

/-- Appending a cookie behind a separator. -/
theorem cookiesOf_append (output : List UInt8) {cookie : List UInt8} (hsemi : cookieSeparator ∉ cookie)
    (hblank : cookie.head?.any isBlank = false) :
    cookiesOf (output ++ str "; " ++ cookie) = cookiesOf output ++ [cookie] := by
  have hsep : output ++ str "; " ++ cookie = output ++ cookieSeparator :: (UInt8.ofNat ' '.toNat :: cookie) := by
    rw [List.append_assoc]
    rfl
  have hspace : cookieSeparator ∉ UInt8.ofNat ' '.toNat :: cookie := by
    rw [List.mem_cons, not_or]
    exact ⟨by decide, hsemi⟩
  have hself := cookiesOf_self hsemi hblank
  rw [cookiesOf, List.splitOn_eq_singleton hsemi] at hself
  rw [hsep, cookiesOf, List.splitOn_append_cons_self, List.map_append, List.splitOn_eq_singleton hspace, ← cookiesOf,
    List.map_singleton, List.dropWhile_cons_of_pos (by decide)]
  exact congrArg _ hself

theorem startsWithCase_mono {p a b : List UInt8} (hab : a <+: b) (h : startsWithCase p a = true) :
    startsWithCase p b = true :=
  startsWithCase_iff.2 ((startsWithCase_iff.1 h).trans (hab.map tolower))

theorem head_takeWhile_dropWhile (s : List UInt8) (p : UInt8 → Bool) :
    ((s.dropWhile isBlank).takeWhile p).head?.any isBlank = false := by
  cases hs : s.dropWhile isBlank with
  | nil => rfl
  | cons c t =>
    have hc : isBlank c = false := by
      have := List.head?_dropWhile_not isBlank s
      rw [hs] at this
      simpa using this
    rw [List.takeWhile_cons]
    split
    · simp [hc]
    · rfl

/-- Every cookie the loop puts out was not the excluded one. -/
theorem filterCookieLoop_spec (excludeName : List UInt8) (outputSize fuel : Nat) :
    ∀ {pos output result : List UInt8} {firstCookie : Bool},
      filterCookieLoop excludeName outputSize fuel pos output firstCookie = some result →
      0 ∉ pos → 0 ∉ output → (∀ c ∈ cookiesOf output, ¬ cookieNamed excludeName c) →
      (firstCookie = true → output = []) →
      0 ∉ result ∧ ∀ c ∈ cookiesOf result, ¬ cookieNamed excludeName c := by
  induction fuel with
  | zero =>
    intro pos output result firstCookie h _ hnul hout _
    cases h
    exact ⟨hnul, hout⟩
  | succ fuel ih =>
    intro pos output result firstCookie h hpos hnul hout hfirst
    rw [filterCookieLoop] at h
    dsimp only at h
    split at h
    · cases h
      exact ⟨hnul, hout⟩
    · next hne =>
      set text := pos.dropWhile isBlank with htext
      set cookie := text.takeWhile (· ≠ UInt8.ofNat ';'.toNat) with hcookie
      have hposText : 0 ∉ text := fun h0 => hpos ((List.dropWhile_sublist _).subset h0)
      have hcookieNul : 0 ∉ cookie := fun h0 => hposText ((List.takeWhile_sublist _).subset h0)
      have hprefix : cookie <+: text := List.takeWhile_prefix _
      have hsemi : cookieSeparator ∉ cookie := fun hs => by
        simpa [cookieSeparator] using List.all_eq_true.1 List.all_takeWhile _ hs
      have hblank : cookie.head?.any isBlank = false := by
        rw [hcookie, htext]
        exact head_takeWhile_dropWhile ..
      have hrest : ∀ c rest, text.dropWhile (· ≠ UInt8.ofNat ';'.toNat) = c :: rest → 0 ∉ rest := by
        intro c rest heq h0
        exact hposText ((List.dropWhile_sublist _).subset (heq ▸ List.mem_cons_of_mem _ h0))
      split at h
      · next hkeep =>
        -- the cookie is kept
        have hnamed : ¬ cookieNamed excludeName cookie := fun hn => by
          have hlen : excludeName.length < cookie.length := (List.getElem?_eq_some_iff.1 hn.1).1
          refine hkeep.1 ⟨hlen, ?_, startsWithCase_mono hprefix hn.2⟩
          obtain ⟨t, ht⟩ := hprefix
          rw [← ht, List.getElem?_append_left hlen]
          exact hn.1
        split at h
        · cases h
        · generalize hgen : (if firstCookie = true then output else output ++ str "; ") = out at h
          have hout' : 0 ∉ out ++ cookie ∧ ∀ c ∈ cookiesOf (out ++ cookie), ¬ cookieNamed excludeName c := by
            rw [← hgen]
            cases firstCookie with
            | true =>
              rw [if_pos rfl, hfirst rfl, List.nil_append, cookiesOf_self hsemi hblank]
              exact ⟨hcookieNul, fun c hc => List.mem_singleton.1 hc ▸ hnamed⟩
            | false =>
              rw [if_neg Bool.false_ne_true, cookiesOf_append _ hsemi hblank]
              refine ⟨?_, List.forall_mem_append.2 ⟨hout, fun c hc => List.mem_singleton.1 hc ▸ hnamed⟩⟩
              rw [List.mem_append, List.mem_append, not_or, not_or]
              exact ⟨⟨hnul, by decide⟩, hcookieNul⟩
          split at h
          · cases h
          · split at h
            · cases h
              exact hout'
            · next c rest heq => exact ih h (hrest c rest heq) hout'.1 hout'.2 nofun
      · split at h
        · cases h
          exact ⟨hnul, hout⟩
        · next c rest heq => exact ih h (hrest c rest heq) hnul hout hfirst

theorem httpFilterCookie_spec {value excludeName result : List UInt8} {outputSize : Nat} (hvalue : 0 ∉ value)
    (h : httpFilterCookie value excludeName outputSize = some result) :
    0 ∉ result ∧ ∀ c ∈ cookiesOf result, ¬ cookieNamed excludeName c := by
  refine filterCookieLoop_spec _ _ _ h hvalue nofun (fun c hc => ?_) fun _ => rfl
  obtain rfl : c = [] := by simpa [cookiesOf] using hc
  rintro ⟨hget, -⟩
  cases hget

/-! ### Markers -/

/-- The text before the first marker and the text behind its token. -/
def firstMarker (userAgent : List UInt8) : Option (List UInt8 × List UInt8) :=
  (strcasestr r2hToken userAgent).map fun i =>
    (userAgent.take i, (userAgent.drop (i + 9)).dropWhile fun c => ¬ isBlank c)

def endsInBlank (before : List UInt8) : Bool := before.getLast?.any isBlank

/-- At most one blank stands beside the marker. -/
def MarkerAlone (before after : List UInt8) : Prop :=
  (before ++ after).length ≤ 1 ∧ (before ++ after).all isBlank = true

/-- A second marker follows, or one forms where the texts around the first are joined without a blank. -/
def MarkerAgain (before after : List UInt8) : Prop :=
  ContainsCase r2hToken after ∨ ¬ endsInBlank before ∧ ContainsCase r2hToken (before ++ after.tail)

instance MarkerAlone.decidable (before after : List UInt8) : Decidable (MarkerAlone before after) :=
  inferInstanceAs (Decidable (_ ∧ _))

instance MarkerAgain.decidable (before after : List UInt8) : Decidable (MarkerAgain before after) :=
  inferInstanceAs (Decidable (_ ∨ _))

section Marker

variable {userAgent before after : List UInt8}

theorem marker_not_before (h : firstMarker userAgent = some (before, after)) : ¬ ContainsCase r2hToken before := by
  obtain ⟨i, hi, heq⟩ := Option.map_eq_some_iff.1 h
  obtain ⟨rfl, -⟩ := Prod.ext_iff.1 heq
  obtain ⟨hle, -, hfirst⟩ := strcasestr_some hi
  rw [← strcasestr_none]
  cases hj : strcasestr r2hToken (userAgent.take i) with
  | none => rfl
  | some j =>
    -- a marker inside the text before would begin earlier
    exfalso
    obtain ⟨-, hat, -⟩ := strcasestr_some hj
    have hlen := (startsWithCase_iff.1 hat).length_le
    have hnine : (r2hToken.map tolower).length = 9 := by decide
    rw [hnine, List.length_map, List.length_drop, List.length_take] at hlen
    have hprefix : (userAgent.take i).drop j <+: userAgent.drop j := by
      rw [List.drop_take]
      exact List.take_prefix ..
    have hno := hfirst j (by omega)
    rw [startsWithCase_mono hprefix hat] at hno
    cases hno

theorem head_after (h : firstMarker userAgent = some (before, after)) : after = [] ∨ after.head?.any isBlank = true := by
  obtain ⟨i, -, heq⟩ := Option.map_eq_some_iff.1 h
  obtain ⟨-, rfl⟩ := Prod.ext_iff.1 heq
  cases hs : (userAgent.drop (i + 9)).dropWhile fun c => ¬ isBlank c with
  | nil => exact .inl rfl
  | cons c t =>
    have := List.head?_dropWhile_not (fun c => decide ¬ isBlank c = true) (userAgent.drop (i + 9))
    rw [hs] at this
    exact .inr (by simpa using this)

/-- A marker does not reach over a blank. -/
theorem containsCase_blank {c : UInt8} (hc : isBlank c = true) (a b : List UInt8) :
    ContainsCase r2hToken (a ++ c :: b) ↔ ContainsCase r2hToken a ∨ ContainsCase r2hToken b := by
  unfold ContainsCase
  rw [List.map_append, List.map_cons]
  refine infix_append_cons ?_
  have hcases : c = 32 ∨ c = 9 := by
    unfold isBlank at hc
    rw [decide_eq_true_eq] at hc
    rcases hc with hc | hc
    · exact .inl (UInt8.toNat_inj.1 hc)
    · exact .inr (UInt8.toNat_inj.1 hc)
  rcases hcases with rfl | rfl <;> decide

theorem not_containsCase_nil : ¬ ContainsCase r2hToken [] := by decide

theorem length_firstMarker (h : firstMarker userAgent = some (before, after)) :
    before.length + after.length ≤ userAgent.length := by
  obtain ⟨i, hi, heq⟩ := Option.map_eq_some_iff.1 h
  obtain ⟨rfl, rfl⟩ := Prod.ext_iff.1 heq
  have hafter := (List.dropWhile_sublist (l := userAgent.drop (i + 9)) fun c => ¬ isBlank c).length_le
  have hle := (strcasestr_some hi).1
  rw [List.length_drop] at hafter
  rw [List.length_take]
  dsimp only at hafter ⊢
  omega

theorem subset_firstMarker (h : firstMarker userAgent = some (before, after)) :
    before ⊆ userAgent ∧ after ⊆ userAgent := by
  obtain ⟨i, -, heq⟩ := Option.map_eq_some_iff.1 h
  obtain ⟨rfl, rfl⟩ := Prod.ext_iff.1 heq
  exact ⟨List.take_subset .., List.Subset.trans (List.dropWhile_sublist _).subset (List.drop_subset ..)⟩

/-- What the filter leaves, in terms of the texts around the marker. -/
def withoutMarker (before after : List UInt8) : List UInt8 :=
  (if endsInBlank before then before.dropLast else before) ++
    if ¬ endsInBlank before ∧ after.head?.any isBlank = true then after.tail else after

theorem httpFilterUserAgentToken_eq (h : firstMarker userAgent = some (before, after)) {outputSize : Nat}
    (hlen : userAgent.length < outputSize) :
    httpFilterUserAgentToken userAgent outputSize = some (withoutMarker before after) := by
  have hle := length_firstMarker h
  obtain ⟨i, hi, heq⟩ := Option.map_eq_some_iff.1 h
  obtain ⟨hbefore, hafter⟩ := Prod.ext_iff.1 heq
  unfold httpFilterUserAgentToken
  rw [hi]
  dsimp only at hbefore hafter ⊢
  rw [hbefore, hafter]
  have hfit : (withoutMarker before after).length ≤ before.length + after.length := by
    unfold withoutMarker
    rw [List.length_append]
    refine Nat.add_le_add ?_ ?_ <;> split <;> simp
  have hsize : (withoutMarker before after).length < outputSize := by omega
  unfold withoutMarker at hsize ⊢
  rw [List.length_append] at hsize
  exact if_neg (Nat.not_le.2 hsize)

theorem withoutMarker_nil (h : firstMarker userAgent = some (before, after)) :
    withoutMarker before after = [] ↔ MarkerAlone before after := by
  unfold withoutMarker MarkerAlone
  rcases List.eq_nil_or_concat before with rfl | ⟨p, b, rfl⟩
  · rcases head_after h with rfl | hblank
    · simp [endsInBlank]
    · cases after with
      | nil => cases hblank
      | cons c after =>
        have hc : isBlank c = true := by simpa using hblank
        simp only [endsInBlank, List.getLast?_nil, Option.any_none, Bool.false_eq_true, if_false, not_false_eq_true,
          List.head?_cons, Option.any_some, hc, and_self, if_true, List.nil_append, List.tail_cons, List.length_cons,
          List.all_cons, Bool.true_and]
        constructor
        · rintro rfl
          exact ⟨Nat.le_refl 1, rfl⟩
        · exact fun hle => List.length_eq_zero_iff.1 (by omega)
  · rw [List.concat_eq_append]
    by_cases hb : isBlank b = true
    · simp only [endsInBlank, List.getLast?_concat, Option.any_some, hb, if_true, List.dropLast_concat,
        not_true_eq_false, false_and, if_false, List.append_eq_nil_iff, List.length_append, List.length_singleton]
      constructor
      · rintro ⟨rfl, rfl⟩
        exact ⟨Nat.le_refl 1, by simp [hb]⟩
      · exact fun hle => ⟨List.length_eq_zero_iff.1 (by omega), List.length_eq_zero_iff.1 (by omega)⟩
    · simp [endsInBlank, hb]

theorem containsCase_withoutMarker (h : firstMarker userAgent = some (before, after)) :
    ContainsCase r2hToken (withoutMarker before after) ↔ MarkerAgain before after := by
  have hbefore := marker_not_before h
  unfold withoutMarker MarkerAgain
  rcases head_after h with rfl | hblank
  · -- the marker ends the text
    have hpre : ¬ ContainsCase r2hToken (if endsInBlank before then before.dropLast else before) := by
      split
      · exact fun hc => hbefore (hc.trans ((List.dropLast_prefix _).isInfix.map _))
      · exact hbefore
    refine iff_of_false (by simpa using hpre) ?_
    rintro (hc | ⟨-, hc⟩)
    · exact not_containsCase_nil hc
    · exact hbefore (by simpa using hc)
  · cases after with
    | nil => cases hblank
    | cons c after =>
      have hc : isBlank c = true := by simpa using hblank
      have hafter : ContainsCase r2hToken (c :: after) ↔ ContainsCase r2hToken after := by
        have := containsCase_blank hc [] after
        rwa [List.nil_append, or_iff_right not_containsCase_nil] at this
      by_cases hend : endsInBlank before
      · have hpre : ¬ ContainsCase r2hToken before.dropLast :=
          fun hc => hbefore (hc.trans ((List.dropLast_prefix _).isInfix.map _))
        simp only [hend, if_true, not_true_eq_false, false_and, if_false, or_false, containsCase_blank hc, hafter]
        exact or_iff_right hpre
      · rw [if_neg hend, if_pos ⟨hend, hblank⟩, List.tail_cons, hafter]
        refine ⟨fun hin => .inr ⟨hend, hin⟩, fun hor => hor.elim (fun hin => ?_) And.right⟩
        exact hin.trans (List.map_append ▸ (List.suffix_append ..).isInfix)

theorem length_withoutMarker (h : firstMarker userAgent = some (before, after)) (hagain : MarkerAgain before after) :
    (withoutMarker before after).length = before.length + after.length - 1 := by
  rcases head_after h with rfl | hblank
  · exfalso
    rcases hagain with hc | ⟨-, hc⟩
    · exact not_containsCase_nil hc
    · exact marker_not_before h (by simpa using hc)
  · cases after with
    | nil => cases hblank
    | cons c after =>
      unfold withoutMarker
      by_cases hend : endsInBlank before
      · have : before ≠ [] := by rintro rfl; cases hend
        have := List.length_pos_iff.2 this
        simp [hend]
        omega
      · rw [if_neg hend, if_pos ⟨hend, hblank⟩, List.length_append, List.tail_cons, List.length_cons]
        rfl

end Marker

/-! ### Requests -/

def RawHeader.TokenHidden (line : RawHeader) : Prop :=
  (eqIgnoreCase line.name (str "Cookie") = true → ∀ c ∈ cookiesOf line.value, ¬ cookieNamed (str "r2h-token") c) ∧
    (eqIgnoreCase line.name (str "User-Agent") = true → ¬ ContainsCase r2hToken line.value)

instance RawHeader.decidableTokenHidden (line : RawHeader) : Decidable line.TokenHidden :=
  inferInstanceAs (Decidable (_ ∧ _))

def HttpRequest.TokenHidden (req : HttpRequest) : Prop := ∀ line ∈ req.rawHeaders, line.TokenHidden

instance HttpRequest.decidableTokenHidden (req : HttpRequest) : Decidable req.TokenHidden :=
  inferInstanceAs (Decidable (∀ line ∈ req.rawHeaders, _))

/-- There is room for a line with a value of `n` bytes. -/
def HttpRequest.Fits (req : HttpRequest) (name : List UInt8) (n : Nat) : Prop :=
  req.rawBytes.length + (name.length + 2 + n + 2) < rawHeadersSize - 1

instance HttpRequest.decidableFits (req : HttpRequest) (name : List UInt8) (n : Nat) : Decidable (req.Fits name n) :=
  inferInstanceAs (Decidable (_ < _))

/-- Where a `User-Agent` holds nothing but a marker, or another one beside the first, there is no room to keep it. -/
def HttpRequest.MarkerSafe (req : HttpRequest) (header : PhrHeader) : Prop :=
  ∀ name ∈ header.name, eqIgnoreCase name (str "User-Agent") = true →
    ∀ m ∈ firstMarker (httpHeadersCopyToken httpCookieBufferSize header.value),
      (MarkerAlone m.1 m.2 → ¬ req.Fits name header.value.length) ∧
        (MarkerAgain m.1 m.2 → ¬ req.Fits name (m.1.length + m.2.length - 1))

instance HttpRequest.decidableMarkerSafe (req : HttpRequest) (header : PhrHeader) :
    Decidable (req.MarkerSafe header) :=
  inferInstanceAs (Decidable (∀ name ∈ header.name, _ → ∀ m ∈ firstMarker _, _ ∧ _))

theorem httpHeaderNameIs_some {header : PhrHeader} {n : List UInt8} (hn : header.name = some n) (name : List UInt8) :
    httpHeaderNameIs header name = eqIgnoreCase n name := by
  unfold httpHeaderNameIs
  rw [hn, Bool.eq_iff_iff, decide_eq_true_eq]
  constructor
  · rintro ⟨hlen, h⟩
    rwa [startsWithCase, ← hlen, List.take_length] at h
  · intro h
    have hlen : n.length = name.length := by
      simpa using congrArg List.length (of_decide_eq_true h)
    exact ⟨hlen, by rwa [startsWithCase, ← hlen, List.take_length]⟩

theorem readHeader_rawHeaders (req : HttpRequest) (header : PhrHeader) :
    (readHeader req header).rawHeaders = req.rawHeaders := by
  unfold readHeader
  cases httpHeaderValueLong header <;> simp only [apply_ite HttpRequest.rawHeaders, ite_self]

theorem httpRequestAppendRawHeader_hidden {req : HttpRequest} {name : List UInt8} (hname : 0 ∉ name)
    (value : List UInt8) :
    (httpRequestAppendRawHeader req name value).TokenHidden ↔
      req.TokenHidden ∧ (value ≠ [] → req.Fits name value.length → RawHeader.TokenHidden ⟨name, cstr value⟩) := by
  unfold httpRequestAppendRawHeader HttpRequest.Fits
  dsimp only
  split
  · next hnil => simp [hnil]
  · next hne =>
    split
    · next hfull => simp [Nat.not_lt.2 hfull]
    · next hfits =>
      rw [cstr_eq_self hname]
      have hlt := Nat.lt_of_not_le hfits
      simp only [HttpRequest.TokenHidden, List.forall_mem_append, List.mem_singleton, forall_eq, ne_eq, hne,
        not_false_eq_true, hlt, true_imp_iff]

theorem httpHeadersCopyToken_length (value : List UInt8) :
    (httpHeadersCopyToken httpCookieBufferSize value).length < httpCookieBufferSize := by
  have hsub := (List.takeWhile_sublist (l := value.take (httpCookieBufferSize - 1)) fun c => c ≠ 0).length_le
  rw [List.length_take] at hsub
  unfold httpHeadersCopyToken cstr httpCookieBufferSize at *
  omega

/-- The copy loses nothing of a value that has room as it is. -/
theorem httpHeadersCopyToken_fits {req : HttpRequest} {name value : List UInt8} (h : req.Fits name value.length) :
    httpHeadersCopyToken httpCookieBufferSize value = cstr value := by
  unfold HttpRequest.Fits rawHeadersSize at h
  rw [httpHeadersCopyToken, List.take_of_length_le]
  unfold httpCookieBufferSize
  omega

section Consume

variable {token : List UInt8} {req : HttpRequest} {header : PhrHeader} {name : List UInt8}

/-- A cookie header leaves a line without the token. -/
theorem keepRawHeader_cookie (htoken : token ≠ []) (hname : header.name = some name)
    (h : eqIgnoreCase name (str "Cookie") = true) :
    (keepRawHeader (some token) req header name).TokenHidden ↔ req.TokenHidden := by
  have hnul := header.name_ne_nul name hname
  have hnot : notForwarded.any (httpHeaderNameIs header) = false := by
    simp only [notForwarded, List.any_cons, List.any_nil, httpHeaderNameIs_some hname, eqIgnoreCase_congr h]
    decide
  have hagent : eqIgnoreCase name (str "User-Agent") = false := eqIgnoreCase_congr h _ ▸ by decide
  unfold keepRawHeader
  simp only [hnot, httpHeaderNameIs_some hname, h, Option.any_some, htoken, ne_eq, not_false_eq_true, decide_true,
    Bool.false_eq_true, if_false, and_self, if_true]
  split
  · next filtered hfiltered =>
    split
    · obtain ⟨hvalue, hcookies⟩ := httpFilterCookie_spec (nul_not_mem_cstr _) hfiltered
      rw [httpRequestAppendRawHeader_hidden hnul, cstr_eq_self hvalue]
      refine and_iff_left fun _ _ => ⟨fun _ => hcookies, fun hc => ?_⟩
      rw [hagent] at hc
      cases hc
    · exact Iff.rfl
  · exact Iff.rfl

/-- A header of another name leaves a line that may hold anything. -/
theorem keepRawHeader_other (hname : header.name = some name) (hcookie : eqIgnoreCase name (str "Cookie") = false)
    (hagent : eqIgnoreCase name (str "User-Agent") = false) :
    (keepRawHeader (some token) req header name).TokenHidden ↔ req.TokenHidden := by
  have hnul := header.name_ne_nul name hname
  unfold keepRawHeader
  simp only [httpHeaderNameIs_some hname, hcookie, hagent, Bool.false_eq_true, false_and, if_false]
  split
  · exact Iff.rfl
  · split
    · rw [httpRequestAppendRawHeader_hidden hnul]
      refine and_iff_left fun _ _ => ⟨fun hc => ?_, fun hc => ?_⟩
      · rw [hcookie] at hc
        cases hc
      · rw [hagent] at hc
        cases hc
    · exact Iff.rfl

theorem containsCase_of_firstMarker {userAgent : List UInt8} {m : List UInt8 × List UInt8}
    (h : firstMarker userAgent = some m) : ContainsCase r2hToken userAgent := by
  obtain ⟨i, hi, -⟩ := Option.map_eq_some_iff.1 h
  by_contra hc
  rw [strcasestr_none.2 hc] at hi
  cases hi

theorem tokenHidden_agent (hagent : eqIgnoreCase name (str "User-Agent") = true) (value : List UInt8) :
    RawHeader.TokenHidden ⟨name, value⟩ ↔ ¬ ContainsCase r2hToken value := by
  have hcookie : eqIgnoreCase name (str "Cookie") = false := eqIgnoreCase_congr hagent _ ▸ by decide
  unfold RawHeader.TokenHidden
  simp only [hcookie, hagent, Bool.false_eq_true, false_imp_iff, true_and, true_imp_iff]

theorem keepRawHeader_agent_eq (htoken : token ≠ []) (hname : header.name = some name)
    (hagent : eqIgnoreCase name (str "User-Agent") = true) :
    keepRawHeader (some token) req header name = keepUserAgent req header name
      (httpFilterUserAgentToken (httpHeadersCopyToken httpCookieBufferSize header.value) httpCookieBufferSize) := by
  have hnot : notForwarded.any (httpHeaderNameIs header) = false := by
    simp only [notForwarded, List.any_cons, List.any_nil, httpHeaderNameIs_some hname, eqIgnoreCase_congr hagent]
    decide
  have hcookie : eqIgnoreCase name (str "Cookie") = false := eqIgnoreCase_congr hagent _ ▸ by decide
  unfold keepRawHeader
  simp only [hnot, httpHeaderNameIs_some hname, hagent, hcookie, Option.any_some, htoken, ne_eq, not_false_eq_true,
    decide_true, Bool.false_eq_true, if_false, and_self, false_and, if_true]

/-- The value as it came. -/
theorem appendUnfiltered_hidden (hname : header.name = some name)
    (hagent : eqIgnoreCase name (str "User-Agent") = true) :
    (keepUserAgent req header name (some [])).TokenHidden ↔
      req.TokenHidden ∧ (req.Fits name header.value.length →
        ¬ ContainsCase r2hToken (httpHeadersCopyToken httpCookieBufferSize header.value)) := by
  have hnul := header.name_ne_nul name hname
  show (if _ then _ else _ : HttpRequest).TokenHidden ↔ _
  split
  · next hpos =>
    rw [httpRequestAppendRawHeader_hidden hnul, tokenHidden_agent hagent]
    refine and_congr_right fun _ => ?_
    rw [imp_iff_right (List.length_pos_iff.1 hpos)]
    exact forall_congr' fun hfits => by rw [httpHeadersCopyToken_fits hfits]
  · next hzero =>
    refine (and_iff_left fun _ => ?_).symm
    rw [List.eq_nil_of_length_eq_zero (Nat.eq_zero_of_not_pos hzero)]
    exact not_containsCase_nil

theorem keepRawHeader_agent (htoken : token ≠ []) (hname : header.name = some name)
    (hagent : eqIgnoreCase name (str "User-Agent") = true) :
    (keepRawHeader (some token) req header name).TokenHidden ↔ req.TokenHidden ∧ req.MarkerSafe header := by
  have hnul := header.name_ne_nul name hname
  have hsafe : req.MarkerSafe header ↔ ∀ m ∈ firstMarker (httpHeadersCopyToken httpCookieBufferSize header.value),
      (MarkerAlone m.1 m.2 → ¬ req.Fits name header.value.length) ∧
        (MarkerAgain m.1 m.2 → ¬ req.Fits name (m.1.length + m.2.length - 1)) := by
    unfold HttpRequest.MarkerSafe
    rw [hname]
    simp only [Option.mem_def, Option.some.injEq, forall_eq', hagent, true_imp_iff]
  rw [keepRawHeader_agent_eq htoken hname hagent, hsafe]
  have hraw := @appendUnfiltered_hidden req header name hname hagent
  have hlen := httpHeadersCopyToken_length header.value
  have hvalueNul : 0 ∉ httpHeadersCopyToken httpCookieBufferSize header.value := nul_not_mem_cstr _
  generalize httpHeadersCopyToken httpCookieBufferSize header.value = userAgent at *
  cases hm : firstMarker userAgent with
  | none =>
    have hnone : strcasestr r2hToken userAgent = none := Option.map_eq_none_iff.1 hm
    have hno := strcasestr_none.1 hnone
    have hfilter : httpFilterUserAgentToken userAgent httpCookieBufferSize = some userAgent := by
      unfold httpFilterUserAgentToken
      rw [hnone]
      exact if_neg (Nat.not_le.2 hlen)
    rw [hfilter]
    cases userAgent with
    | nil =>
      rw [hraw]
      exact and_congr_right fun _ => iff_of_true (fun _ => hno) nofun
    | cons c userAgent =>
      rw [keepUserAgent, httpRequestAppendRawHeader_hidden hnul, tokenHidden_agent hagent, cstr_eq_self hvalueNul]
      exact and_congr_right fun _ => iff_of_true (fun _ _ => hno) nofun
  | some m =>
    obtain ⟨before, after⟩ := m
    have hnil := withoutMarker_nil hm
    have hagain := containsCase_withoutMarker hm
    have hlength := length_withoutMarker hm
    have hclean : 0 ∉ withoutMarker before after := fun h0 => by
      obtain ⟨hb, ha⟩ := subset_firstMarker hm
      unfold withoutMarker at h0
      rcases List.mem_append.1 h0 with h0 | h0
      · refine hvalueNul (hb ?_)
        split at h0
        · exact List.mem_of_mem_dropLast h0
        · exact h0
      · refine hvalueNul (ha ?_)
        split at h0
        · exact List.mem_of_mem_tail h0
        · exact h0
    rw [httpFilterUserAgentToken_eq hm hlen]
    simp only [Option.mem_def, Option.some.injEq, forall_eq']
    generalize withoutMarker before after = w at *
    cases w with
    | nil =>
      rw [hraw]
      have halone := hnil.1 rfl
      have hnone : ¬ MarkerAgain before after := fun h => not_containsCase_nil (hagain.2 h)
      simp only [containsCase_of_firstMarker hm, not_true_eq_false, imp_false, halone, hnone, true_imp_iff,
        false_imp_iff, and_true]
    | cons c w =>
      have halone : ¬ MarkerAlone before after := fun h => by cases hnil.2 h
      rw [keepUserAgent, httpRequestAppendRawHeader_hidden hnul, tokenHidden_agent hagent, cstr_eq_self hclean, hagain]
      simp only [ne_eq, reduceCtorEq, not_false_eq_true, true_imp_iff, halone, false_imp_iff, true_and]
      refine and_congr_right fun _ => ?_
      rw [imp_not_comm]
      exact forall_congr' fun h => by rw [hlength h]

/-- What one header does. -/
theorem httpRequestConsumeHeader_hidden (htoken : token ≠ []) (req : HttpRequest) (header : PhrHeader) :
    (httpRequestConsumeHeader (some token) req header).TokenHidden ↔ req.TokenHidden ∧ req.MarkerSafe header := by
  unfold httpRequestConsumeHeader
  cases hname : header.name with
  | none =>
    refine (and_iff_left fun name h => ?_).symm
    rw [hname] at h
    cases h
  | some name =>
    have hread : (readHeader (keepRawHeader (some token) req header name) header).TokenHidden ↔
        (keepRawHeader (some token) req header name).TokenHidden := by
      unfold HttpRequest.TokenHidden
      rw [readHeader_rawHeaders]
    dsimp only
    rw [hread]
    by_cases hagent : eqIgnoreCase name (str "User-Agent") = true
    · exact keepRawHeader_agent htoken hname hagent
    · have hsafe : req.MarkerSafe header := fun n hn hn' => by
        rw [hname] at hn
        cases hn
        exact absurd hn' hagent
      rw [and_iff_left hsafe]
      by_cases hcookie : eqIgnoreCase name (str "Cookie") = true
      · exact keepRawHeader_cookie htoken hname hcookie
      · exact keepRawHeader_other hname (Bool.eq_false_iff.2 hcookie) (Bool.eq_false_iff.2 hagent)

end Consume

/-- The token stays hidden exactly when no header brings a marker that the filter does not deal with. -/
theorem http_token_hidden {token : List UInt8} (htoken : token ≠ []) (headers : List PhrHeader) :
    (headers.foldl (httpRequestConsumeHeader (some token)) httpRequestInit).TokenHidden ↔
      Run.Meets (httpRequestConsumeHeader (some token)) HttpRequest.MarkerSafe httpRequestInit headers :=
  (Run.meets_iff_end (P := HttpRequest.TokenHidden) (httpRequestConsumeHeader_hidden htoken)).trans
    (and_iff_right nofun)

def phrHeader (name value : String) (h : ∀ n ∈ some (str name), 0 ∉ n) : PhrHeader := ⟨str name, str value, h⟩

/-- A marker between other texts, and the token among other cookies. -/
theorem http_token_hidden_between :
    let headers := [phrHeader "User-Agent" "VLC R2HTOKEN/abc LibVLC" (by decide),
      phrHeader "Cookie" "lang=en; R2H-Token=abc" (by decide)]
    let req := headers.foldl (httpRequestConsumeHeader (some (str "abc"))) httpRequestInit
    req.TokenHidden ∧ req.rawBytes = str "User-Agent: VLC LibVLC\r\nCookie: lang=en\r\n" :=
  ⟨(http_token_hidden (by decide) _).2 (by decide +kernel), by decide +kernel⟩

/-- The header holds nothing but the marker. -/
theorem http_token_forwarded :
    let headers := [phrHeader "User-Agent" "R2HTOKEN/abc" (by decide)]
    let req := headers.foldl (httpRequestConsumeHeader (some (str "abc"))) httpRequestInit
    req.rawBytes = str "User-Agent: R2HTOKEN/abc\r\n" ∧ ¬ req.TokenHidden := by
  decide +kernel

end Rtp2httpd
