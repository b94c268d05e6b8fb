import DOpenWrt.Oaf.Dpi

/-!
# The inspection stays inside the payload

The HTTP scanner looks ahead from every line end up to the first blank line; it leaves a payload that ends too soon
after one of them, and takes an empty host name as the length -1. Everything else that reads the payload stays inside
it.
-/

namespace Oaf
open CString (str cstr)

/-- The computation neither reads nor writes outside. -/
def Inside {α : Type} (x : Except DpiFault α) : Prop := ∃ a, x = .ok a

theorem inside_ok {α : Type} (a : α) : Inside (.ok a : Except DpiFault α) := ⟨a, rfl⟩

theorem Inside.bind {α β : Type} {x : Except DpiFault α} {f : α → Except DpiFault β} (hx : Inside x)
    (hf : ∀ a, x = .ok a → Inside (f a)) : Inside (x >>= f) := by
  obtain ⟨a, rfl⟩ := hx
  exact hf a rfl

/-- A span that is reported lies inside the payload. -/
def SpanInside (size : ℕ) (pos : Option ℕ) (len : ℤ) : Prop := ∀ p ∈ pos, 0 ≤ len ∧ p + len ≤ size

section

variable {d : List UInt8} {i : ℕ}

theorem rd_inside (h : i < d.length) : Inside (rd d i) := by
  rw [rd, List.getElem?_eq_getElem h]
  exact inside_ok _

theorem rd_eq_ok {c : UInt8} : rd d i = .ok c ↔ d[i]? = some c := by
  rw [rd]
  cases d[i]? <;> simp

theorem rd_eq_error : rd d i = .error .read ↔ d[i]? = none := by
  rw [rd]
  cases d[i]? <;> simp

theorem memEq_inside {pos : ℕ} {s : List UInt8} (h : pos + s.length ≤ d.length) : Inside (memEq d pos s) := by
  rw [memEq, if_pos h]
  exact inside_ok _

/-! ### Line ends -/

/-- CR LF at `i`. -/
def crlf (d : List UInt8) (i : ℕ) : Prop := d[i]? = some 0x0d ∧ d[i + 1]? = some 0x0a

/-- A line end followed by a blank line. -/
def blankLine (d : List UInt8) (i : ℕ) : Prop := crlf d i ∧ crlf d (i + 2)

instance decidableCrlf (d : List UInt8) (i : ℕ) : Decidable (crlf d i) := inferInstanceAs (Decidable (_ ∧ _))

instance decidableBlankLine (d : List UInt8) (i : ℕ) : Decidable (blankLine d i) := inferInstanceAs (Decidable (_ ∧ _))

/-- Where the line of position `i` starts. -/
def lineStart (d : List UInt8) : ℕ → ℕ
  | 0 => 0
  | i + 1 => if crlf d i then i + 2 else lineStart d i

/-- No blank line comes before position `i`. -/
def inHeader (d : List UInt8) (i : ℕ) : Prop := ∀ j < i, ¬ blankLine d j

/-- What the scanner reads at a CR lies inside the payload: the next byte, and after a line end the first five bytes of
the line and one byte more, or two if the first is a CR. -/
def LineEndInside (d : List UInt8) (i : ℕ) : Prop :=
  d[i]? = some 0x0d → i + 1 < d.length ∧
    (crlf d i → lineStart d i + 5 ≤ d.length ∧ i + 2 < d.length ∧ (d[i + 2]? = some 0x0d → i + 3 < d.length))

/-- A line of the header that starts with `Host:`, up to its end at `i`. -/
def HostLine (d : List UInt8) (i : ℕ) : Prop :=
  crlf d i ∧ inHeader d i ∧ (d.drop (lineStart d i)).take 5 = str "Host:"

/-- The payloads on which the HTTP scanner is safe: it stays inside up to the first blank line, and the last host line
is not empty. -/
structure HttpSafe (d : List UInt8) : Prop where
  lineEnds : ∀ i, inHeader d i → LineEndInside d i
  host : ∀ i, HostLine d i → (∀ k > i, ¬ HostLine d k) → lineStart d i + 5 < i

theorem lineStart_le_succ (d : List UInt8) (i : ℕ) : lineStart d i ≤ i + 1 := by
  induction i with
  | zero => exact Nat.zero_le _
  | succ i ih =>
    rw [lineStart]
    split <;> omega

/-- At a CR the line has started: the byte before is not the CR of a line end. -/
theorem lineStart_le (h : d[i]? = some 0x0d) : lineStart d i ≤ i := by
  cases i with
  | zero => exact Nat.zero_le _
  | succ i =>
    rw [lineStart]
    split
    · next hcrlf =>
      rw [hcrlf.2] at h
      cases h
    · exact lineStart_le_succ d i

/-! ### The HTTP scanner -/

/-- What `httpLine` makes of a line that lies inside the payload. -/
def lineValue (d : List UInt8) (i start : ℕ) (http : HttpProto) : HttpProto :=
  if (d.drop start).take 5 = str "POST " then
    { http with
      matched := true
      method := some .post
      urlPos := some (start + 5)
      urlLen := i - start - 5 }
  else if (d.drop start).take 4 = str "GET " then
    { http with
      matched := true
      method := some .get
      urlPos := some (start + 4)
      urlLen := i - start - 4 }
  else if (d.drop start).take 5 = str "Host:" then
    { http with
      hostPos := some (start + 6)
      hostLen := i - start - 6 }
  else http

theorem httpLine_eq (i start : ℕ) (http : HttpProto) :
    httpLine d i start http = if start + 5 ≤ d.length then .ok (lineValue d i start http) else .error .read := by
  have h5 : (str "POST ").length = 5 := by decide
  have h4 : (str "GET ").length = 4 := by decide
  have h5' : (str "Host:").length = 5 := by decide
  split
  · next h =>
    have hpost : memEq d start (str "POST ") = .ok (decide ((d.drop start).take 5 = str "POST ")) := by
      rw [memEq, h5, if_pos h]
    have hget : memEq d start (str "GET ") = .ok (decide ((d.drop start).take 4 = str "GET ")) := by
      rw [memEq, h4, if_pos (by omega)]
    have hhost : memEq d start (str "Host:") = .ok (decide ((d.drop start).take 5 = str "Host:")) := by
      rw [memEq, h5', if_pos h]
    simp only [httpLine, hpost, hget, hhost, Bind.bind, Except.bind, lineValue, decide_eq_true_eq]
    split
    · rfl
    split
    · rfl
    split <;> rfl
  · next h =>
    have hpost : memEq d start (str "POST ") = .error .read := by rw [memEq, h5, if_neg h]
    rw [httpLine, hpost]
    rfl

/-- What the scanner knows after the line end at `i`, if there is one. -/
def afterLine (d : List UInt8) (i : ℕ) (http : HttpProto) : HttpProto :=
  if crlf d i then lineValue d i (lineStart d i) http else http

/-- One turn of the scanner. -/
theorem httpLoop_succ {n : ℕ} {http r : HttpProto} (hi : i < d.length) :
    httpLoop d (n + 1) i (lineStart d i) http = .ok r ↔ LineEndInside d i ∧
      if blankLine d i then r = { afterLine d i http with dataPos := some (i + 4), dataLen := d.length - i - 4 }
      else httpLoop d n (i + 1) (lineStart d (i + 1)) (afterLine d i http) = .ok r := by
  obtain ⟨c, hc⟩ : ∃ c, d[i]? = some c := ⟨_, List.getElem?_eq_getElem hi⟩
  rw [httpLoop, rd_eq_ok.2 hc]
  simp only [Bind.bind, Except.bind]
  by_cases hcr : c = 0x0d; swap
  · have hno : ¬ crlf d i := fun h => hcr (Option.some.inj (hc.symm.trans h.1))
    have hin : LineEndInside d i := fun h => absurd (Option.some.inj (hc.symm.trans h)) hcr
    rw [if_pos hcr, if_neg fun h => hno h.1, afterLine, if_neg hno, lineStart, if_neg hno]
    exact (and_iff_right hin).symm
  subst hcr
  rw [if_neg (not_not.2 rfl)]
  cases h1 : d[i + 1]? with
  | none =>
    rw [rd_eq_error.2 h1]
    exact iff_of_false nofun fun h => by
      have := List.getElem?_eq_none_iff.1 h1
      have := (h.1 hc).1
      omega
  | some c1 =>
  have hlt1 := (List.getElem?_eq_some_iff.1 h1).1
  rw [rd_eq_ok.2 h1]
  by_cases hlf : c1 = 0x0a; swap
  · have hno : ¬ crlf d i := fun h => hlf (Option.some.inj (h1.symm.trans h.2))
    have hin : LineEndInside d i := fun _ => ⟨hlt1, fun h => absurd h hno⟩
    simp only [if_pos hlf]
    rw [if_neg fun h => hno h.1, afterLine, if_neg hno, lineStart, if_neg hno]
    exact (and_iff_right hin).symm
  subst hlf
  have hcrlf : crlf d i := ⟨hc, h1⟩
  simp only [ne_eq, not_true_eq_false, if_false, httpLine_eq, afterLine, if_pos hcrlf]
  by_cases hstart : lineStart d i + 5 ≤ d.length; swap
  · rw [if_neg hstart]
    exact iff_of_false nofun fun h => hstart ((h.1 hc).2 hcrlf).1
  rw [if_pos hstart]
  cases h2 : d[i + 2]? with
  | none =>
    rw [rd_eq_error.2 h2]
    exact iff_of_false nofun fun h => by
      have := List.getElem?_eq_none_iff.1 h2
      have := ((h.1 hc).2 hcrlf).2.1
      omega
  | some c2 =>
  have hlt2 := (List.getElem?_eq_some_iff.1 h2).1
  rw [rd_eq_ok.2 h2]
  have hnext : lineStart d (i + 1) = i + 2 := by rw [lineStart, if_pos hcrlf]
  by_cases hcr2 : c2 = 0x0d; swap
  · have hno : ¬ blankLine d i := fun h => hcr2 (Option.some.inj (h2.symm.trans h.2.1))
    have hin : LineEndInside d i := fun _ =>
      ⟨hlt1, fun _ => ⟨hstart, hlt2, fun h => absurd (Option.some.inj (h2.symm.trans h)) hcr2⟩⟩
    simp only [hcr2, not_false_eq_true, if_true]
    rw [if_neg hno, hnext]
    exact (and_iff_right hin).symm
  subst hcr2
  simp only [not_true_eq_false, if_false]
  cases h3 : d[i + 3]? with
  | none =>
    rw [rd_eq_error.2 h3]
    exact iff_of_false nofun fun h => by
      have := List.getElem?_eq_none_iff.1 h3
      have := ((h.1 hc).2 hcrlf).2.2 h2
      omega
  | some c3 =>
  have hlt3 := (List.getElem?_eq_some_iff.1 h3).1
  have hin : LineEndInside d i := fun _ => ⟨hlt1, fun _ => ⟨hstart, hlt2, fun _ => hlt3⟩⟩
  rw [rd_eq_ok.2 h3, and_iff_right hin]
  by_cases hlf3 : c3 = 0x0a
  · subst hlf3
    rw [if_pos ⟨hcrlf, h2, h3⟩]
    simp only [not_true_eq_false, if_false]
    exact ⟨fun h => (Except.ok.inj h).symm, fun h => by rw [h]; rfl⟩
  · simp only [hlf3, not_false_eq_true, if_true]
    rw [if_neg fun h => hlf3 (Option.some.inj (h3.symm.trans h.2.2)), hnext]

theorem inHeader_succ (h : inHeader d i) (hb : ¬ blankLine d i) : inHeader d (i + 1) := by
  intro j hj
  rcases Nat.lt_succ_iff_lt_or_eq.1 hj with hj | rfl
  · exact h j hj
  · exact hb

theorem lineEndInside_end (h : d.length ≤ i) : LineEndInside d i := fun hc => by
  rw [List.getElem?_eq_none h] at hc
  cases hc

/-- The scanner stays inside the payload if and only if every line end of the header does. -/
theorem httpLoop_inside_iff (n : ℕ) (http : HttpProto) (hn : i + n = d.length) (hi : inHeader d i) :
    Inside (httpLoop d n i (lineStart d i) http) ↔ ∀ k ≥ i, inHeader d k → LineEndInside d k := by
  induction n generalizing i http with
  | zero => exact iff_of_true (inside_ok _) fun k hk _ => lineEndInside_end (by omega)
  | succ n ih =>
    have hturn : Inside (httpLoop d (n + 1) i (lineStart d i) http) ↔ LineEndInside d i ∧
        (blankLine d i ∨ Inside (httpLoop d n (i + 1) (lineStart d (i + 1)) (afterLine d i http))) := by
      by_cases hb : blankLine d i
      · simp only [Inside, httpLoop_succ (show i < d.length by omega), hb, if_true, true_or, and_true]
        exact ⟨fun ⟨r, h, _⟩ => h, fun h => ⟨_, h, rfl⟩⟩
      · simp only [Inside, httpLoop_succ (show i < d.length by omega), hb, if_false, false_or, exists_and_left]
    rw [hturn]
    constructor
    · rintro ⟨hline, hrest⟩ k hk hhead
      rcases eq_or_lt_of_le hk with rfl | hlt
      · exact hline
      · have hb : ¬ blankLine d i := hhead i hlt
        exact (ih _ (by omega) (inHeader_succ hi hb)).1 (hrest.resolve_left hb) k hlt hhead
    · intro h
      refine ⟨h i le_rfl hi, ?_⟩
      by_cases hb : blankLine d i
      · exact .inl hb
      · exact .inr ((ih _ (by omega) (inHeader_succ hi hb)).2 fun k hk hhead => h k (by omega) hhead)

/-- A text without CR that a line starts with ends before the line does. -/
theorem prefix_le {s : List UInt8} {start : ℕ} (hs : (d.drop start).take s.length = s) (hcr : 0x0d ∉ s)
    (hi : d[i]? = some 0x0d) (hle : start ≤ i) : start + s.length ≤ i := by
  by_contra hlt
  refine hcr (List.mem_of_getElem? (i := i - start) ?_)
  rw [← hs, List.getElem?_take_of_lt (by omega), List.getElem?_drop, Nat.add_sub_cancel' hle]
  exact hi

theorem afterLine_url {http : HttpProto} (h : SpanInside d.length http.urlPos http.urlLen) :
    SpanInside d.length (afterLine d i http).urlPos (afterLine d i http).urlLen := by
  rw [afterLine]
  split; swap
  · exact h
  next hcrlf =>
  have hlt : i < d.length := (List.getElem?_eq_some_iff.1 hcrlf.1).1
  have hle := lineStart_le hcrlf.1
  rw [lineValue]
  split
  · next hpost =>
    have := prefix_le (s := str "POST ") hpost (by decide) hcrlf.1 hle
    rintro p ⟨⟩
    simp only [show (str "POST ").length = 5 by decide] at this
    push_cast
    omega
  split
  · next hget =>
    have := prefix_le (s := str "GET ") hget (by decide) hcrlf.1 hle
    rintro p ⟨⟩
    simp only [show (str "GET ").length = 4 by decide] at this
    push_cast
    omega
  split <;> exact h

theorem afterLine_data (http : HttpProto) :
    (afterLine d i http).dataPos = http.dataPos ∧ (afterLine d i http).dataLen = http.dataLen := by
  rw [afterLine, lineValue]
  split
  · split
    · exact ⟨rfl, rfl⟩
    split
    · exact ⟨rfl, rfl⟩
    split <;> exact ⟨rfl, rfl⟩
  · exact ⟨rfl, rfl⟩

/-- A host line sets the host span, no other line does. -/
theorem afterLine_host (http : HttpProto) (hi : inHeader d i) :
    (¬ HostLine d i ∧ (afterLine d i http).hostPos = http.hostPos ∧ (afterLine d i http).hostLen = http.hostLen) ∨
      HostLine d i ∧ (afterLine d i http).hostPos = some (lineStart d i + 6) ∧
        (afterLine d i http).hostLen = i - lineStart d i - 6 := by
  rw [afterLine]
  split; swap
  · next h => exact .inl ⟨fun hh => h hh.1, rfl, rfl⟩
  next hcrlf =>
  rw [lineValue]
  split
  · next hpost =>
    refine .inl ⟨fun hh => ?_, rfl, rfl⟩
    have := hpost.symm.trans hh.2.2
    exact absurd this (by decide)
  split
  · next hget =>
    refine .inl ⟨fun hh => ?_, rfl, rfl⟩
    have h4 := congrArg (List.take 4) hh.2.2
    rw [List.take_take, show min 4 5 = 4 by decide, hget] at h4
    exact absurd h4 (by decide)
  split
  · next hhost => exact .inr ⟨⟨hcrlf, hi, hhost⟩, rfl, rfl⟩
  · next hhost => exact .inl ⟨fun hh => hhost hh.2.2, rfl, rfl⟩

/-- The host span comes from the last host line, if there is one from `i` on. -/
structure HostFrom (d : List UInt8) (i : ℕ) (http r : HttpProto) : Prop where
  none : (∀ k ≥ i, ¬ HostLine d k) → r.hostPos = http.hostPos ∧ r.hostLen = http.hostLen
  last : ∀ k ≥ i, HostLine d k → (∀ k' > k, ¬ HostLine d k') →
    r.hostPos = some (lineStart d k + 6) ∧ r.hostLen = k - lineStart d k - 6

theorem not_hostLine_end (h : d.length ≤ i) : ¬ HostLine d i := fun hh => by
  have := (List.getElem?_eq_some_iff.1 hh.1.1).1
  omega

/-- What the scanner reports from `i` on. -/
structure HttpFrom (d : List UInt8) (i : ℕ) (http r : HttpProto) : Prop where
  host : HostFrom d i http r
  url : SpanInside d.length http.urlPos http.urlLen → SpanInside d.length r.urlPos r.urlLen
  data : SpanInside d.length http.dataPos http.dataLen → SpanInside d.length r.dataPos r.dataLen

theorem httpLoop_result (n : ℕ) {http r : HttpProto} (hn : i + n = d.length) (hi : inHeader d i)
    (h : httpLoop d n i (lineStart d i) http = .ok r) : HttpFrom d i http r := by
  induction n generalizing i http with
  | zero =>
    cases h
    exact ⟨⟨fun _ => ⟨rfl, rfl⟩, fun k hk hh _ => absurd hh (not_hostLine_end (by omega))⟩, id, id⟩
  | succ n ih =>
    obtain ⟨hline, hrest⟩ := (httpLoop_succ (by omega)).1 h
    have hafter := afterLine_host http hi
    by_cases hb : blankLine d i
    · rw [if_pos hb] at hrest
      subst hrest
      have hlast : ∀ k > i, ¬ HostLine d k := fun k hk hh => hh.2.1 i hk hb
      refine ⟨⟨fun hnone => ?_, fun k hk hh _ => ?_⟩, fun hu => afterLine_url (i := i) hu, fun _ => ?_⟩
      · rcases hafter with ⟨-, heq⟩ | ⟨hh, -⟩
        · exact heq
        · exact absurd hh (hnone i le_rfl)
      · obtain rfl : k = i := le_antisymm (not_lt.1 fun hlt => hlast k hlt hh) hk
        rcases hafter with ⟨hno, -⟩ | ⟨-, heq⟩
        · exact absurd hh hno
        · exact heq
      · have hlt : i + 3 < d.length := (List.getElem?_eq_some_iff.1 hb.2.2).1
        rintro p ⟨⟩
        push_cast
        omega
    · rw [if_neg hb] at hrest
      obtain ⟨hhost, hurl, hdata⟩ := ih (by omega) (inHeader_succ hi hb) hrest
      refine ⟨⟨fun hnone => ?_, fun k hk hh hlast => ?_⟩, fun hu => hurl (afterLine_url hu), fun hd => hdata ?_⟩
      · obtain ⟨hpos, hlen⟩ := hhost.none fun k hk => hnone k (by omega)
        rcases hafter with ⟨-, hpos', hlen'⟩ | ⟨hh, -⟩
        · exact ⟨hpos.trans hpos', hlen.trans hlen'⟩
        · exact absurd hh (hnone i le_rfl)
      · rcases eq_or_lt_of_le hk with rfl | hlt
        · obtain ⟨hpos, hlen⟩ := hhost.none fun k' hk' => hlast k' hk'
          rcases hafter with ⟨hno, -⟩ | ⟨-, hpos', hlen'⟩
          · exact absurd hh hno
          · exact ⟨hpos.trans hpos', hlen.trans hlen'⟩
        · exact hhost.last k hlt hh hlast
      · obtain ⟨hpos, hlen⟩ := afterLine_data (d := d) (i := i) http
        rw [hpos, hlen]
        exact hd

theorem exists_last_hostLine (h : ∃ k, HostLine d k) : ∃ k, HostLine d k ∧ ∀ k' > k, ¬ HostLine d k' := by
  classical
  obtain ⟨k, hk⟩ := h
  have hlt : ∀ k', HostLine d k' → k' ≤ d.length := fun k' hk' => by
    by_contra hgt
    exact not_hostLine_end (by omega) hk'
  refine ⟨Nat.findGreatest (HostLine d) d.length, Nat.findGreatest_spec (hlt k hk) hk, fun k' hgt hk' => ?_⟩
  exact absurd (Nat.le_findGreatest (hlt k' hk') hk') (not_le.2 hgt)

theorem inHeader_zero (d : List UInt8) : inHeader d 0 := fun _ hj => absurd hj (Nat.not_lt_zero _)

/-- The whole scan: it stays inside and its host span is not negative exactly on the safe payloads. -/
theorem httpLoop_safe_iff : (∃ r, httpLoop d d.length 0 0 {} = .ok r ∧ SpanInside d.length r.hostPos r.hostLen) ↔
    HttpSafe d := by
  have hinside := httpLoop_inside_iff (d := d) d.length {} (Nat.zero_add _) (inHeader_zero d)
  constructor
  · rintro ⟨r, hr, hspan⟩
    have hfrom := (httpLoop_result d.length (Nat.zero_add _) (inHeader_zero d) hr).host
    refine ⟨fun i => hinside.1 ⟨r, hr⟩ i (Nat.zero_le i), fun i hi hlast => ?_⟩
    obtain ⟨hpos, hlen⟩ := hfrom.last i (Nat.zero_le i) hi hlast
    have := (hspan _ hpos).1
    omega
  · intro h
    obtain ⟨r, hr⟩ := hinside.2 fun i _ => h.lineEnds i
    have hfrom := (httpLoop_result d.length (Nat.zero_add _) (inHeader_zero d) hr).host
    refine ⟨r, hr, ?_⟩
    by_cases hex : ∃ k, HostLine d k
    · obtain ⟨k, hk, hlast⟩ := exists_last_hostLine hex
      obtain ⟨hpos, hlen⟩ := hfrom.last k (Nat.zero_le k) hk hlast
      have hlt : k < d.length := (List.getElem?_eq_some_iff.1 hk.1.1).1
      have := h.host k hk hlast
      intro p hp
      rw [hpos] at hp
      cases hp
      push_cast
      omega
    · obtain ⟨hpos, -⟩ := hfrom.none fun k _ hk => hex ⟨k, hk⟩
      intro p hp
      rw [hpos] at hp
      cases hp

/-! ### The TLS scanner -/

theorem checkDomain_inside (pos len : ℕ) (h : pos + len ≤ d.length) : Inside (checkDomain d pos len) := by
  induction len generalizing pos with
  | zero => exact inside_ok _
  | succ len ih =>
    rw [checkDomain]
    refine (rd_inside (by omega)).bind fun c _ => ?_
    split
    · exact ih (pos + 1) (by omega)
    · exact inside_ok _

theorem atServerName_inside (h : i + 3 < d.length) : Inside (atServerName d i) := by
  rw [atServerName]
  refine (rd_inside (by omega)).bind fun c _ => ?_
  split
  · exact inside_ok _
  refine (rd_inside (by omega)).bind fun c _ => ?_
  split
  · exact inside_ok _
  refine (rd_inside (by omega)).bind fun c _ => ?_
  split
  · exact inside_ok _
  exact (rd_inside (by omega)).bind fun c _ => inside_ok _

theorem serverNameLen_inside (h : i + httpsUrlOffset < d.length) : Inside (serverNameLen d i) := by
  rw [httpsUrlOffset] at h
  rw [serverNameLen, httpsLenOffset]
  refine (rd_inside (by omega)).bind fun hi _ => ?_
  exact (rd_inside (by omega)).bind fun lo _ => inside_ok _

/-- What the TLS scanner leaves alone, and the server name it reports. -/
structure HttpsFrom (flow r : DpiFlow) : Prop where
  data : r.l4Data = flow.l4Data
  http : r.http = flow.http
  url : r.https = flow.https ∨ SpanInside flow.l4Data.length r.https.urlPos r.https.urlLen

theorem httpsLoop_spec (flow : DpiFlow) (n i : ℕ) : ∃ r, httpsLoop flow n i = .ok r ∧ HttpsFrom flow r := by
  induction n generalizing i with
  | zero => exact ⟨flow, rfl, rfl, rfl, .inl rfl⟩
  | succ n ih =>
    rw [httpsLoop]
    split
    · exact ⟨_, rfl, rfl, rfl, .inl rfl⟩
    next hlt =>
    have hlt : i + httpsUrlOffset < flow.l4Data.length := not_le.1 hlt
    have h9 : httpsUrlOffset = 9 := rfl
    obtain ⟨name, hname⟩ := atServerName_inside (d := flow.l4Data) (i := i) (by omega)
    rw [hname]
    simp only [Bind.bind, Except.bind]
    split; swap
    · exact ih (i + 1)
    obtain ⟨urlLen, hlen⟩ := serverNameLen_inside hlt
    rw [hlen]
    simp only
    split
    · exact ih (i + 1)
    split; swap
    · exact ih (i + 1)
    next hin =>
    obtain ⟨valid, hvalid⟩ := checkDomain_inside (d := flow.l4Data) (i + httpsUrlOffset) urlLen hin.le
    rw [hvalid]
    simp only
    split; swap
    · exact ih (i + 1)
    refine ⟨_, rfl, rfl, rfl, .inr ?_⟩
    rintro p ⟨⟩
    push_cast
    omega

theorem dpiHttpsProto_spec (flow : DpiFlow) : ∃ r, dpiHttpsProto flow = .ok r ∧ HttpsFrom flow r := by
  rw [dpiHttpsProto]
  split
  · exact ⟨flow, rfl, rfl, rfl, .inl rfl⟩
  next hlt =>
  obtain ⟨p0, h0⟩ := rd_inside (d := flow.l4Data) (i := 0) (by omega)
  obtain ⟨p1, h1⟩ := rd_inside (d := flow.l4Data) (i := 1) (by omega)
  obtain ⟨p5, h5⟩ := rd_inside (d := flow.l4Data) (i := 5) (by omega)
  rw [h0, h1, h5]
  simp only [Bind.bind, Except.bind]
  split
  · exact httpsLoop_spec flow _ 0
  · exact ⟨flow, rfl, rfl, rfl, .inl rfl⟩

/-! ### Matching -/

theorem afMatchQuic_inside (flow : DpiFlow) : Inside (afMatchQuic flow) := by
  rw [afMatchQuic]
  split
  · exact inside_ok _
  split
  · exact inside_ok _
  refine (rd_inside (by omega)).bind fun c _ => ?_
  split
  · exact inside_ok _
  refine (rd_inside (by omega)).bind fun b1 _ => ?_
  refine (rd_inside (by omega)).bind fun b2 _ => ?_
  refine (rd_inside (by omega)).bind fun b3 _ => ?_
  refine (rd_inside (by omega)).bind fun b4 _ => ?_
  dsimp only
  split <;> exact inside_ok _

theorem kMemstr_inside (d s : List UInt8) : Inside (kMemstr d s) := by
  have hfrom : ∀ n pos, (n = 0 ∨ pos + n + s.length ≤ d.length + 1) → Inside (kMemstrFrom d s pos n) := by
    intro n
    induction n with
    | zero => exact fun pos _ => inside_ok _
    | succ n ih =>
      intro pos h
      rw [kMemstrFrom]
      refine (memEq_inside (by omega)).bind fun b _ => ?_
      split
      · exact inside_ok _
      · exact ih (pos + 1) (by omega)
  exact hfrom _ 0 (by omega)

theorem matchPosInfo_inside (flow : DpiFlow) (infos : List AfPosInfo) : Inside (matchPosInfo flow infos) := by
  induction infos with
  | nil => exact inside_ok _
  | cons info rest ih =>
    rw [matchPosInfo]
    split
    · exact inside_ok _
    · refine (rd_inside (by omega)).bind fun c _ => ?_
      split
      · exact inside_ok _
      · exact ih

theorem afMatchByPos_inside (flow : DpiFlow) (node : AfFeatureNode) : Inside (afMatchByPos flow node) := by
  rw [afMatchByPos]
  split
  · exact inside_ok _
  refine (matchPosInfo_inside flow _).bind fun b _ => ?_
  split
  · split
    · exact (kMemstr_inside _ _).bind fun r _ => inside_ok _
    · exact inside_ok _
  · exact inside_ok _

theorem strncpy_inside {size pos n : ℕ} (hsize : n ≤ size) (hin : pos + n ≤ d.length) : Inside (strncpy d size pos n) := by
  rw [strncpy, if_neg (by omega), if_pos (.inr hin)]
  exact inside_ok _

/-- A span inside the payload is copied within both buffers. -/
theorem copyUrl_inside {pos : ℕ} {len : ℤ} (h : 0 ≤ len ∧ pos + len ≤ d.length) : Inside (copyUrl d pos len) := by
  have h64 : maxUrlMatchLen = 64 := rfl
  rw [copyUrl]
  split
  · exact strncpy_inside (by omega) (by omega)
  · have hmod : len % 2 ^ 64 = len := Int.emod_eq_of_lt h.1 (by omega)
    rw [hmod]
    exact strncpy_inside (by omega) (by omega)

/-- All spans that are reported lie inside the payload. -/
structure SpansInside (flow : DpiFlow) : Prop where
  url : SpanInside flow.l4Data.length flow.http.urlPos flow.http.urlLen
  host : SpanInside flow.l4Data.length flow.http.hostPos flow.http.hostLen
  data : SpanInside flow.l4Data.length flow.http.dataPos flow.http.dataLen
  serverName : SpanInside flow.l4Data.length flow.https.urlPos flow.https.urlLen

theorem SpansInside.copyHost {flow : DpiFlow} (h : SpansInside flow) : Inside (copyHost flow) := by
  rw [Oaf.copyHost]
  split
  · next pos _ hpos => exact copyUrl_inside (h.serverName pos hpos)
  · next hpos _ => exact copyUrl_inside (h.host _ hpos)
  · exact inside_ok _

theorem SpansInside.matchByUrl {flow : DpiFlow} (h : SpansInside flow)
    (regexpMatch : List UInt8 → List UInt8 → Bool) (node : AfFeatureNode) :
    Inside (afMatchByUrl flow regexpMatch node) := by
  rw [afMatchByUrl]
  refine h.copyHost.bind fun url _ => ?_
  split
  · exact inside_ok _
  split
  · next pos _ hpos => exact (copyUrl_inside (h.url pos hpos)).bind fun url _ => inside_ok _
  · exact inside_ok _

theorem u32_le {z : ℤ} (h : 0 ≤ z) : (u32 z : ℤ) ≤ z := by
  rw [u32]
  omega

theorem SpansInside.updateUrl {flow : DpiFlow} (h : SpansInside flow) : Inside (updateUrlVisitingInfo flow) := by
  have hcopy : ∀ (pos : ℕ) (len : ℤ), 0 ≤ len ∧ pos + len ≤ flow.l4Data.length → ¬ u32 len ≥ maxReportUrlLen →
      Inside (some <$> memcpy flow.l4Data maxReportUrlLen pos (u32 len)) := by
    intro pos len hspan hlt
    have hle := u32_le hspan.1
    rw [memcpy, if_neg (by omega), if_pos (by omega)]
    exact inside_ok _
  rw [updateUrlVisitingInfo]
  split
  · exact inside_ok _
  next host len hspan =>
  split
  · exact inside_ok _
  next hlen =>
  have hlt : ¬ len ≥ maxReportUrlLen := fun hge => hlen (.inr hge)
  split at hspan
  · obtain ⟨pos, hpos, heq⟩ := Option.map_eq_some_iff.1 hspan
    cases heq
    exact hcopy _ _ (h.serverName _ hpos) hlt
  split at hspan
  · obtain ⟨pos, hpos, heq⟩ := Option.map_eq_some_iff.1 hspan
    cases heq
    exact hcopy _ _ (h.host _ hpos) hlt
  · cases hspan

end

/-- What is asked of the inspection of a flow. -/
structure InspectionInside (flow : DpiFlow) : Prop where
  main : ∃ r, dpiMain flow = .ok r ∧ SpansInside r ∧ Inside (updateUrlVisitingInfo r) ∧
    ∀ node, Inside (afMatchByPos r node) ∧ ∀ regexpMatch, Inside (afMatchByUrl r regexpMatch node)
  quic : Inside (afMatchQuic flow)
  memstr : ∀ node : AfFeatureNode, Inside (kMemstr flow.l4Data node.searchStr)

theorem dpiHttpProto_of_safe (flow : DpiFlow) (hflow : flow.http = {})
    (h : flow.l4Protocol = ipprotoTcp → minHttpDataLen ≤ flow.l4Data.length → HttpSafe flow.l4Data) :
    ∃ r : HttpProto, dpiHttpProto flow = .ok { flow with http := r } ∧ SpanInside flow.l4Data.length r.urlPos r.urlLen ∧
      SpanInside flow.l4Data.length r.hostPos r.hostLen ∧ SpanInside flow.l4Data.length r.dataPos r.dataLen := by
  have hempty : ∀ len : ℤ, SpanInside flow.l4Data.length none len := fun len p hp => by cases hp
  rw [dpiHttpProto]
  split
  · exact ⟨{}, by rw [← hflow], hempty _, hempty _, hempty _⟩
  next htcp =>
  split
  · exact ⟨{}, by rw [← hflow], hempty _, hempty _, hempty _⟩
  next hlen =>
  obtain ⟨r, hr, hhost⟩ := httpLoop_safe_iff.2 (h (not_not.1 htcp) (not_lt.1 hlen))
  obtain ⟨-, hurl, hdata⟩ := httpLoop_result _ (Nat.zero_add _) (inHeader_zero _) hr
  refine ⟨r, ?_, hurl (hempty _), hhost, hdata (hempty _)⟩
  rw [hflow, hr]
  rfl

/-- The inspection of a flow stays inside its payload and its buffers exactly if the HTTP scanner, where it runs, meets
a safe payload. -/
theorem inspection_inside_iff (l4Protocol dport : ℕ) (payload : List UInt8) (clientHello : Bool) :
    InspectionInside ⟨l4Protocol, dport, payload, clientHello, {}, {}⟩ ↔
      (l4Protocol = ipprotoTcp → minHttpDataLen ≤ payload.length → HttpSafe payload) := by
  constructor
  · intro h htcp hlen
    obtain ⟨r, hr, hspans, -⟩ := h.main
    rw [dpiMain, dpiHttpProto, if_neg (not_not.2 htcp), if_neg (not_lt.2 hlen)] at hr
    cases hloop : httpLoop payload payload.length 0 0 {} with
    | error e =>
      rw [hloop] at hr
      cases hr
    | ok http =>
      rw [hloop] at hr
      obtain ⟨r', hr', hfrom⟩ := dpiHttpsProto_spec ⟨l4Protocol, dport, payload, clientHello, http, {}⟩
      obtain rfl : r' = r := Except.ok.inj (hr'.symm.trans hr)
      have hhost := hspans.host
      rw [hfrom.data, hfrom.http] at hhost
      exact httpLoop_safe_iff.1 ⟨http, hloop, hhost⟩
  · intro h
    refine ⟨?_, afMatchQuic_inside _, fun node => kMemstr_inside _ _⟩
    obtain ⟨http, hhttp, hurl, hhost, hdata⟩ :=
      dpiHttpProto_of_safe ⟨l4Protocol, dport, payload, clientHello, {}, {}⟩ rfl h
    obtain ⟨r, hr, hfrom⟩ := dpiHttpsProto_spec ⟨l4Protocol, dport, payload, clientHello, http, {}⟩
    have hspans : SpansInside r := by
      have hd := hfrom.data
      have hh := hfrom.http
      refine ⟨?_, ?_, ?_, ?_⟩ <;> rw [hd]
      · rwa [hh]
      · rwa [hh]
      · rwa [hh]
      · rcases hfrom.url with hs | hs
        · rw [hs]
          intro p hp
          cases hp
        · exact hs
    refine ⟨r, ?_, hspans, hspans.updateUrl, fun node => ⟨afMatchByPos_inside r node, fun regexpMatch =>
      hspans.matchByUrl regexpMatch node⟩⟩
    rw [dpiMain, hhttp]
    exact hr

/-- A TCP payload of one line without a blank line after it. -/
def oneLine : List UInt8 := str "GET / HTTP/1.1" ++ [0x0d, 0x0a]

/-- A request whose host line is empty. -/
def emptyHost : List UInt8 := str "GET / HTTP/1.1" ++ [0x0d, 0x0a] ++ str "Host:" ++ [0x0d, 0x0a, 0x0d, 0x0a]

/-- The scanner reads the byte after the line, and takes an empty host as the length -1, with which `strncpy` is
called. -/
theorem oneLine_reads_outside :
    dpiMain ⟨6, 80, oneLine, false, {}, {}⟩ = .error .read ∧
      (∃ r, dpiMain ⟨6, 80, emptyHost, false, {}, {}⟩ = .ok r ∧ r.http.hostLen = -1 ∧ copyHost r = .error .write) ∧
      ¬ InspectionInside ⟨6, 80, oneLine, false, {}, {}⟩ := by
  have hread : dpiMain ⟨6, 80, oneLine, false, {}, {}⟩ = .error .read := by decide +kernel
  refine ⟨hread, ?_, fun h => ?_⟩
  · have hmain : dpiMain ⟨6, 80, emptyHost, false, {}, {}⟩ =
        .ok ⟨6, 80, emptyHost, false, ⟨true, some .get, some 4, 10, some 22, -1, some 25, 0⟩, {}⟩ := by decide +kernel
    exact ⟨_, hmain, rfl, by decide +kernel⟩
  · obtain ⟨r, hr, -⟩ := h.main
    rw [hread] at hr
    cases hr

end Oaf
