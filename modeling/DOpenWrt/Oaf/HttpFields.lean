import Mathlib.Data.Bool.AllAny
import DOpenWrt.Oaf.DpiBounds

/-!
# The fields of a request

`dpi_http_proto` on a well-formed request: the scan goes line by line to the empty line, and the only header line that
has an effect is one that starts with `Host:`, whose value it takes to begin one character behind the colon.
-/

namespace Oaf
open CString (str isBlank eqIgnoreCase)

def crlfText : List UInt8 := [0x0d, 0x0a]

/-- A line that can be part of a header section. -/
structure IsLine (line : List UInt8) : Prop where
  ne_nil : line ≠ []
  noCr : 0x0d ∉ line

/-- The lines, each with its line end. -/
def lineBlock (lines : List (List UInt8)) : List UInt8 := (lines.map (· ++ crlfText)).flatten

/-- The effect of a line at `pos`. -/
def lineEffect (pos : ℕ) (line : List UInt8) (http : HttpProto) : HttpProto :=
  if str "POST " <+: line then
    { http with
      matched := true
      method := some .post
      urlPos := some (pos + 5)
      urlLen := (pos + line.length : ℕ) - pos - 5 }
  else if str "GET " <+: line then
    { http with
      matched := true
      method := some .get
      urlPos := some (pos + 4)
      urlLen := (pos + line.length : ℕ) - pos - 4 }
  else if str "Host:" <+: line then
    { http with
      hostPos := some (pos + 6)
      hostLen := (pos + line.length : ℕ) - pos - 6 }
  else http

def linesEffect : ℕ → List (List UInt8) → HttpProto → HttpProto
  | _, [], http => http
  | pos, line :: lines, http => linesEffect (pos + line.length + 2) lines (lineEffect pos line http)

/-! ### The scan -/

section
variable {d pre line tail : List UInt8} {http : HttpProto} {m : ℕ}

theorem getElem?_of_isPrefix {α : Type} {p l : List α} (h : p <+: l) {i : ℕ} (hi : i < p.length) : p[i]? = l[i]? := by
  obtain ⟨t, rfl⟩ := h
  exact (List.getElem?_append_left hi).symm

theorem prefix_of_prefix_append_cons {p line t : List UInt8} {c : UInt8} (hc : c ∉ p) (h : p <+: line ++ c :: t) :
    p <+: line := by
  rcases Nat.lt_or_ge line.length p.length with hlt | hge
  · have hget : p[line.length]? = some c := by
      rw [getElem?_of_isPrefix h hlt, List.getElem?_append_right (Nat.le_refl _), Nat.sub_self]; rfl
    exact absurd (List.mem_of_getElem? hget) hc
  · exact List.prefix_of_prefix_length_le h (List.prefix_append ..) hge

/-- A text without CR that stands before a CR stands in the line. -/
theorem take_append_cr {p : List UInt8} (hp : 0x0d ∉ p) (line t : List UInt8) :
    (line ++ 0x0d :: t).take p.length = p ↔ p <+: line := by
  have hsplit : (line ++ 0x0d :: t).take p.length = p ↔ p <+: line ++ 0x0d :: t :=
    ⟨fun h => h ▸ List.take_prefix .., fun h => (List.prefix_iff_eq_take.1 h).symm⟩
  rw [hsplit]
  exact ⟨prefix_of_prefix_append_cons hp, fun h => h.trans (List.prefix_append ..)⟩

theorem lineValue_eq (hd : d = pre ++ line ++ 0x0d :: tail) :
    lineValue d (pre.length + line.length) pre.length http = lineEffect pre.length line http := by
  have hdrop : d.drop pre.length = line ++ 0x0d :: tail := by rw [hd, List.append_assoc, List.drop_left]
  have hpost : (d.drop pre.length).take 5 = str "POST " ↔ str "POST " <+: line := by
    rw [hdrop]
    exact @take_append_cr (str "POST ") (by decide) line tail
  have hget : (d.drop pre.length).take 4 = str "GET " ↔ str "GET " <+: line := by
    rw [hdrop]
    exact @take_append_cr (str "GET ") (by decide) line tail
  have hhost : (d.drop pre.length).take 5 = str "Host:" ↔ str "Host:" <+: line := by
    rw [hdrop]
    exact @take_append_cr (str "Host:") (by decide) line tail
  rw [lineValue, lineEffect]
  simp only [hpost, hget, hhost]

/-- Bytes other than CR are passed over. -/
theorem httpLoop_skip (hd : d = pre ++ line ++ tail) (hline : 0x0d ∉ line) (start : ℕ) :
    httpLoop d (line.length + m) pre.length start http = httpLoop d m (pre.length + line.length) start http := by
  induction line generalizing pre with
  | nil => rw [List.length_nil, Nat.zero_add, Nat.add_zero]
  | cons c line ih =>
    rw [List.mem_cons, not_or] at hline
    have hget : d[pre.length]? = some c := by
      rw [hd, List.append_assoc, List.getElem?_append_right (Nat.le_refl _), Nat.sub_self]; rfl
    have hnext : d = (pre ++ [c]) ++ line ++ tail := by rw [hd]; simp
    have hrest := ih hnext hline.2
    rw [List.length_append, List.length_singleton] at hrest
    rw [List.length_cons, Nat.add_right_comm, httpLoop, rd_eq_ok.2 hget]
    simp only [Bind.bind, Except.bind]
    rw [if_pos (Ne.symm hline.1), hrest, Nat.add_assoc pre.length, Nat.add_comm 1]

/-- The end of a line at `i`: it is evaluated, and the scan goes on behind the CR or ends. -/
theorem httpLoop_lineEnd {c : UInt8} (hd : d = pre ++ line ++ 0x0d :: 0x0a :: c :: tail)
    (hlength : pre.length + 5 ≤ d.length) : httpLoop d (m + 1) (pre.length + line.length) pre.length http =
      if c ≠ 0x0d then httpLoop d m (pre.length + line.length + 1) (pre.length + line.length + 2)
        (lineEffect pre.length line http)
      else do
        if (← rd d (pre.length + line.length + 3)) ≠ 0x0a then
          httpLoop d m (pre.length + line.length + 1) (pre.length + line.length + 2) (lineEffect pre.length line http)
        else return { lineEffect pre.length line http with
          dataPos := some (pre.length + line.length + 4)
          dataLen := d.length - (pre.length + line.length : ℕ) - 4 } := by
  have hget (k : ℕ) : d[pre.length + line.length + k]? = (0x0d :: 0x0a :: c :: tail)[k]? := by
    rw [hd, ← List.length_append, List.getElem?_append_right (Nat.le_add_right ..), Nat.add_sub_cancel_left]
  have h0 : rd d (pre.length + line.length) = .ok 0x0d := rd_eq_ok.2 (hget 0)
  have h1 : rd d (pre.length + line.length + 1) = .ok 0x0a := rd_eq_ok.2 (hget 1)
  have h2 : rd d (pre.length + line.length + 2) = .ok c := rd_eq_ok.2 (hget 2)
  rw [httpLoop, h0, h1, h2, httpLine_eq, if_pos hlength, lineValue_eq hd]
  rfl

/-- A line with another line behind it. -/
theorem httpLoop_line {c : UInt8} (hd : d = pre ++ line ++ 0x0d :: 0x0a :: c :: tail) (hline : IsLine line)
    (hc : c ≠ 0x0d) (hlength : pre.length + 5 ≤ d.length) :
    httpLoop d (line.length + (m + 2)) pre.length pre.length http =
      httpLoop d m (pre.length + line.length + 2) (pre.length + line.length + 2) (lineEffect pre.length line http) := by
  have hlf : d = (pre ++ line ++ [0x0d]) ++ [0x0a] ++ c :: tail := by rw [hd]; simp
  have hskip := @httpLoop_skip d (pre ++ line ++ [0x0d]) [0x0a] (c :: tail) (lineEffect pre.length line http) m hlf
    (by decide) (pre.length + line.length + 2)
  rw [List.length_append, List.length_append, List.length_singleton, List.length_singleton, Nat.add_comm 1 m] at hskip
  rw [httpLoop_skip hd hline.noCr, httpLoop_lineEnd hd hlength, if_pos hc, hskip]

/-- The line before the empty line. -/
theorem httpLoop_last (hd : d = pre ++ line ++ 0x0d :: 0x0a :: 0x0d :: 0x0a :: tail) (hline : IsLine line) :
    httpLoop d (line.length + (m + 1)) pre.length pre.length http =
      .ok { lineEffect pre.length line http with
        dataPos := some (d.length - tail.length), dataLen := tail.length } := by
  have hlength : d.length = pre.length + line.length + 4 + tail.length := by
    rw [hd, List.length_append, List.length_append]
    simp only [List.length_cons]
    omega
  have hpos := List.length_pos_iff.2 hline.ne_nil
  have h3 : rd d (pre.length + line.length + 3) = .ok 0x0a := by
    rw [rd_eq_ok, hd, ← List.length_append, List.getElem?_append_right (Nat.le_add_right ..), Nat.add_sub_cancel_left]
    rfl
  have hdata : d.length - tail.length = pre.length + line.length + 4 := by omega
  have hlen : (d.length : ℤ) - (pre.length + line.length : ℕ) - 4 = tail.length := by omega
  rw [httpLoop_skip hd hline.noCr, httpLoop_lineEnd hd (by omega), if_neg (not_not.2 rfl), h3, hlen, hdata]
  rfl

/-- The whole header section. -/
theorem httpLoop_lines {lines : List (List UInt8)} {body : List UInt8} (hne : lines ≠ [])
    (hlines : ∀ line ∈ lines, IsLine line) (hd : d = pre ++ lineBlock lines ++ crlfText ++ body)
    (hm : pre.length + m = d.length) : httpLoop d m pre.length pre.length http =
      .ok { linesEffect pre.length lines http with dataPos := some (d.length - body.length), dataLen := body.length } := by
  induction lines generalizing pre http m with
  | nil => exact absurd rfl hne
  | cons line lines ih =>
    have hline := hlines line List.mem_cons_self
    have hpos := List.length_pos_iff.2 hline.ne_nil
    cases lines with
    | nil =>
      have hlast : d = pre ++ line ++ 0x0d :: 0x0a :: 0x0d :: 0x0a :: body := by
        rw [hd]
        simp [lineBlock, crlfText]
      have hlength : d.length = pre.length + line.length + 4 + body.length := by
        rw [hlast, List.length_append, List.length_append]
        simp only [List.length_cons]
        omega
      obtain ⟨k, hk⟩ : ∃ k, m = line.length + (k + 1) := ⟨3 + body.length, by omega⟩
      rw [hk, httpLoop_last hlast hline]; rfl
    | cons next lines =>
      have hnext := hlines next (List.mem_cons_of_mem _ List.mem_cons_self)
      obtain ⟨c, next', hcons⟩ := List.exists_cons_of_ne_nil hnext.ne_nil
      have hc : c ≠ 0x0d := fun heq => hnext.noCr (hcons ▸ heq ▸ List.mem_cons_self)
      have hmore : d = pre ++ line ++ 0x0d :: 0x0a :: c ::
          (next' ++ crlfText ++ lineBlock lines ++ crlfText ++ body) := by
        rw [hd, hcons]
        simp [lineBlock, crlfText]
      have hpre : d = (pre ++ line ++ crlfText) ++ lineBlock (next :: lines) ++ crlfText ++ body := by
        rw [hd]
        simp [lineBlock]
      have hlength : (pre ++ line ++ crlfText).length = pre.length + line.length + 2 := by
        rw [List.length_append, List.length_append]; rfl
      have htotal : pre.length + line.length + 2 ≤ d.length := by
        rw [← hlength, hpre]
        simp only [List.length_append]
        omega
      have hfive : pre.length + 5 ≤ d.length := by
        rw [hmore, List.length_append, List.length_append]
        simp only [List.length_cons, List.length_append, crlfText]
        omega
      obtain ⟨k, hk⟩ : ∃ k, m = line.length + (k + 2) := ⟨m - line.length - 2, by omega⟩
      have hrest := @ih (pre ++ line ++ crlfText) (lineEffect pre.length line http) k (List.cons_ne_nil _ _)
        (fun line hmem => hlines line (List.mem_cons_of_mem _ hmem)) hpre (by rw [hlength]; omega)
      rw [hlength] at hrest
      rw [hk, httpLoop_line hmore hline hc hfive, hrest]; rfl

end

/-! ### Requests -/

/-- A header field: a name of visible bytes, a colon and a value on the same line. -/
structure HeaderField where
  name : List UInt8
  value : List UInt8
  name_ne_nil : name ≠ []
  name_visible : ∀ c ∈ name, 0x20 < c ∧ c ≠ 0x3a
  value_noCr : 0x0d ∉ value
  value_noLf : 0x0a ∉ value

namespace HeaderField

variable (f : HeaderField)

def line : List UInt8 := f.name ++ 0x3a :: f.value

/-- Field names are compared without regard to case. -/
def IsHost : Prop := eqIgnoreCase f.name (str "Host")

/-- The white space between the colon and the value. -/
def blanks : ℕ := (f.value.takeWhile isBlank).length

/-- The length of the value behind it. -/
def valueLength : ℕ := (f.value.dropWhile isBlank).length

end HeaderField

def methodWord : HttpMethod → List UInt8
  | .get => str "GET "
  | .post => str "POST "

/-- A request of HTTP/1.1 with a complete header section, which has one `Host` field. -/
structure HttpRequest where
  method : HttpMethod
  target : List UInt8
  before : List HeaderField
  host : HeaderField
  after : List HeaderField
  target_ne_nil : target ≠ []
  target_visible : ∀ c ∈ target, 0x20 < c
  host_isHost : host.IsHost
  before_other : ∀ f ∈ before, ¬ f.IsHost
  after_other : ∀ f ∈ after, ¬ f.IsHost

namespace HttpRequest

variable (r : HttpRequest)

/-- The request line behind the method. -/
def behindMethod : List UInt8 := r.target ++ str " HTTP/1.1"

def requestLine : List UInt8 := methodWord r.method ++ r.behindMethod

def lines : List (List UInt8) := r.requestLine :: (r.before ++ r.host :: r.after).map HeaderField.line

/-- Everything up to the body. -/
def text : List UInt8 := lineBlock r.lines ++ crlfText

/-- Where the line of the `Host` field starts. -/
def hostLine : ℕ := (lineBlock (r.requestLine :: r.before.map HeaderField.line)).length

/-- What there is to find in the request. -/
def fields (body : List UInt8) : HttpProto where
  matched := true
  method := some r.method
  urlPos := some (methodWord r.method).length
  urlLen := r.behindMethod.length
  hostPos := some (r.hostLine + r.host.name.length + 1 + r.host.blanks)
  hostLen := r.host.valueLength
  dataPos := some r.text.length
  dataLen := body.length

end HttpRequest

/-! ### The effect of the lines -/

section
variable {pos : ℕ} {http : HttpProto}

theorem length_lineBlock_cons (line : List UInt8) (l : List (List UInt8)) :
    (lineBlock (line :: l)).length = line.length + 2 + (lineBlock l).length := by
  rw [lineBlock, List.map_cons, List.flatten_cons, List.length_append, List.length_append]; rfl

theorem linesEffect_append (l l' : List (List UInt8)) : linesEffect pos (l ++ l') http =
    linesEffect (pos + (lineBlock l).length) l' (linesEffect pos l http) := by
  induction l generalizing pos http with
  | nil => rfl
  | cons line l ih =>
    rw [List.cons_append, linesEffect, ih, linesEffect, length_lineBlock_cons]
    simp only [Nat.add_assoc]

namespace HeaderField

variable (f : HeaderField)

/-- A text with a blank in it does not start a header field. -/
theorem not_prefix_line {p : List UInt8} (hblank : 0x20 ∈ p) (hcolon : 0x3a ∉ p) : ¬ p <+: f.line := fun h => by
  have hname : p <+: f.name := prefix_of_prefix_append_cons hcolon h
  exact absurd (f.name_visible 0x20 (hname.subset hblank)).1 (by decide)

theorem host_prefix_line : str "Host:" <+: f.line ↔ f.name = str "Host" := by
  have hsplit : str "Host:" = str "Host" ++ [0x3a] := by decide
  rw [hsplit]
  refine ⟨fun h => ?_, fun h => ⟨f.value, by rw [line, h, List.append_assoc]; rfl⟩⟩
  obtain ⟨more, hmore⟩ : str "Host" <+: f.name :=
    prefix_of_prefix_append_cons (by decide) ((List.prefix_append ..).trans h)
  cases more with
  | nil => rw [← hmore, List.append_nil]
  | cons c more =>
    rw [line, ← hmore, List.append_assoc, List.prefix_append_right_inj, List.cons_append, List.cons_prefix_cons] at h
    exact absurd h.1.symm (f.name_visible c (hmore ▸ by simp)).2

theorem line_isLine : IsLine f.line where
  ne_nil := by rw [line]; simp
  noCr h := by
    rw [line, List.mem_append, List.mem_cons] at h
    rcases h with h | h | h
    · exact absurd (f.name_visible _ h).1 (by decide)
    · exact absurd h (by decide)
    · exact f.value_noCr h

theorem length_line : f.line.length = f.name.length + 1 + f.value.length := by
  rw [line, List.length_append, List.length_cons]
  omega

theorem blanks_add_valueLength : f.blanks + f.valueLength = f.value.length := by
  rw [blanks, valueLength, ← List.length_append, List.takeWhile_append_dropWhile]

theorem lineEffect_line : lineEffect pos f.line http = if f.name = str "Host" then
    { http with hostPos := some (pos + 6), hostLen := (pos + f.line.length : ℕ) - pos - 6 } else http := by
  rw [lineEffect, if_neg (f.not_prefix_line (by decide) (by decide)),
    if_neg (f.not_prefix_line (by decide) (by decide))]
  simp only [host_prefix_line]

theorem isHost_of_name (h : f.name = str "Host") : f.IsHost := by
  rw [IsHost, h]
  decide

end HeaderField

/-- Fields with other names leave no trace. -/
theorem linesEffect_other {fs : List HeaderField} (hfs : ∀ f ∈ fs, ¬ f.IsHost) :
    linesEffect pos (fs.map HeaderField.line) http = http := by
  induction fs generalizing pos with
  | nil => rfl
  | cons f fs ih =>
    rw [List.map_cons, linesEffect, f.lineEffect_line,
      if_neg fun h => hfs f List.mem_cons_self (f.isHost_of_name h)]
    exact ih fun g hg => hfs g (List.mem_cons_of_mem _ hg)

end

namespace HttpRequest

variable (r : HttpRequest)

theorem requestLine_isLine : IsLine r.requestLine where
  ne_nil h := r.target_ne_nil (by
    rw [requestLine, behindMethod, List.append_eq_nil_iff, List.append_eq_nil_iff] at h
    exact h.2.1)
  noCr h := by
    rw [requestLine, behindMethod, List.mem_append, List.mem_append] at h
    rcases h with h | h | h
    · cases hm : r.method <;> rw [hm] at h <;> exact absurd h (by decide)
    · exact absurd (r.target_visible _ h) (by decide)
    · exact absurd h (by decide)

theorem lines_isLine : ∀ line ∈ r.lines, IsLine line := by
  intro line hline
  rw [lines, List.mem_cons, List.mem_map] at hline
  rcases hline with rfl | ⟨f, -, rfl⟩
  · exact r.requestLine_isLine
  · exact f.line_isLine

theorem lineEffect_requestLine : lineEffect 0 r.requestLine {} =
    { matched := true, method := some r.method, urlPos := some (methodWord r.method).length
      urlLen := r.behindMethod.length } := by
  have hlength : r.requestLine.length = (methodWord r.method).length + r.behindMethod.length := by
    rw [requestLine, List.length_append]
  cases hm : r.method with
  | post =>
    have hpost : str "POST " <+: r.requestLine := by rw [requestLine, hm]; exact List.prefix_append ..
    have hword : (methodWord .post).length = 5 := by decide
    have hurl : ((0 + r.requestLine.length : ℕ) : ℤ) - (0 : ℕ) - 5 = r.behindMethod.length := by
      rw [hm, hword] at hlength
      omega
    rw [lineEffect, if_pos hpost, hurl, hword]
  | get =>
    have hget : str "GET " <+: r.requestLine := by rw [requestLine, hm]; exact List.prefix_append ..
    have hnot : ¬ str "POST " <+: r.requestLine := fun h => by
      have hfirst := getElem?_of_isPrefix h (show 0 < _ by decide)
      rw [← getElem?_of_isPrefix hget (show 0 < _ by decide)] at hfirst
      exact absurd hfirst (by decide)
    have hword : (methodWord .get).length = 4 := by decide
    have hurl : ((0 + r.requestLine.length : ℕ) : ℤ) - (0 : ℕ) - 4 = r.behindMethod.length := by
      rw [hm, hword] at hlength
      omega
    rw [lineEffect, if_neg hnot, if_pos hget, hurl, hword]

/-- What the scan finds. -/
def scanned (body : List UInt8) : HttpProto :=
  if r.host.name = str "Host" then
    { r.fields body with hostPos := some (r.hostLine + 6), hostLen := r.host.value.length - 1 }
  else { r.fields body with hostPos := none, hostLen := 0 }

theorem linesEffect_lines (body : List UInt8) :
    { linesEffect 0 r.lines {} with dataPos := some r.text.length, dataLen := body.length } = r.scanned body := by
  have hsplit : r.lines =
      (r.requestLine :: r.before.map HeaderField.line) ++ r.host.line :: r.after.map HeaderField.line := by
    rw [lines, List.map_append, List.map_cons, List.cons_append]
  rw [hsplit, linesEffect_append, linesEffect, linesEffect, linesEffect_other r.before_other,
    linesEffect_other r.after_other, Nat.zero_add, ← hostLine, r.lineEffect_requestLine, r.host.lineEffect_line, scanned]
  split
  · next hname =>
    have hfour : r.host.name.length = 4 := by rw [hname]; decide
    have hlen : ((r.hostLine + r.host.line.length : ℕ) : ℤ) - r.hostLine - 6 = r.host.value.length - 1 := by
      rw [r.host.length_line, hfour]
      omega
    rw [hlen]; rfl
  · rfl

theorem minHttpDataLen_le_text : minHttpDataLen ≤ r.text.length := by
  have htarget := List.length_pos_iff.2 r.target_ne_nil
  have hword : 4 ≤ (methodWord r.method).length := by cases r.method <;> decide
  have hversion : (str " HTTP/1.1").length = 9 := by decide
  have hline : r.requestLine.length = (methodWord r.method).length + (r.target.length + 9) := by
    rw [requestLine, behindMethod, List.length_append, List.length_append, hversion]
  rw [text, lines, List.length_append, length_lineBlock_cons, hline, minHttpDataLen]
  omega

/-- The result for any request and any body. -/
theorem dpiHttpProto_text (body : List UInt8) (dport : ℕ) (clientHello : Bool) (https : HttpsProto) :
    dpiHttpProto ⟨ipprotoTcp, dport, r.text ++ body, clientHello, {}, https⟩ =
      .ok ⟨ipprotoTcp, dport, r.text ++ body, clientHello, r.scanned body, https⟩ := by
  have hlength : (r.text ++ body).length - body.length = r.text.length := by
    rw [List.length_append, Nat.add_sub_cancel]
  have hmin : minHttpDataLen ≤ (r.text ++ body).length := by
    rw [List.length_append]
    exact Nat.le_add_right_of_le r.minHttpDataLen_le_text
  have hlines := @httpLoop_lines (r.text ++ body) [] {} (r.text ++ body).length r.lines body (List.cons_ne_nil _ _)
    r.lines_isLine rfl (Nat.zero_add _)
  rw [hlength] at hlines
  have hloop := hlines.trans (congrArg _ (r.linesEffect_lines body))
  rw [List.length_nil] at hloop
  rw [dpiHttpProto, if_neg (not_not.2 rfl), if_neg (Nat.not_lt.2 hmin), hloop]; rfl

theorem scanned_eq_fields (body : List UInt8) :
    r.scanned body = r.fields body ↔ r.host.name = str "Host" ∧ r.host.blanks = 1 := by
  have hvalue := r.host.blanks_add_valueLength
  rw [scanned]
  split
  · next hname =>
    have hfour : r.host.name.length = 4 := by rw [hname]; decide
    rw [fields, HttpProto.mk.injEq, and_iff_right hname, hfour]
    constructor
    · intro h
      have hpos := Option.some.inj h.2.2.2.2.1
      omega
    · intro hone
      refine ⟨rfl, rfl, rfl, rfl, by rw [hone], ?_, rfl, rfl⟩
      omega
  · next hname =>
    refine iff_of_false (fun h => ?_) fun h => hname h.1
    have hpos := congrArg HttpProto.hostPos h
    exact absurd hpos (by simp [fields])

end HttpRequest

/-! ### Correctness -/

/-- The scan finds the parts of a request if and only if the `Host` field is written in this case and has one blank
behind the colon. Whatever the body is, what it says of the method, the target and the host does not depend on it. -/
theorem httpFields_iff (r : HttpRequest) (dport : ℕ) (clientHello : Bool) (https : HttpsProto) :
    ((∀ body, dpiHttpProto ⟨ipprotoTcp, dport, r.text ++ body, clientHello, {}, https⟩ =
        .ok ⟨ipprotoTcp, dport, r.text ++ body, clientHello, r.fields body, https⟩) ↔
      r.host.name = str "Host" ∧ r.host.blanks = 1) ∧
    ∃ found : List UInt8 → HttpProto, ∀ body,
      dpiHttpProto ⟨ipprotoTcp, dport, r.text ++ body, clientHello, {}, https⟩ =
        .ok ⟨ipprotoTcp, dport, r.text ++ body, clientHello, found body, https⟩ ∧
      found body = { found [] with dataLen := body.length } := by
  refine ⟨⟨fun h => ?_, fun h body => ?_⟩, r.scanned, fun body => ⟨r.dpiHttpProto_text body dport clientHello https, ?_⟩⟩
  · have hfields := (r.dpiHttpProto_text [] dport clientHello https).symm.trans (h [])
    exact (r.scanned_eq_fields []).1 (congrArg DpiFlow.http (Except.ok.inj hfields))
  · rw [r.dpiHttpProto_text, (r.scanned_eq_fields body).2 h]
  · rw [HttpRequest.scanned, HttpRequest.scanned]
    split <;> rfl

theorem hostName_visible : ∀ c ∈ str "Host", 0x20 < c ∧ c ≠ 0x3a := List.all_iff_forall_prop.1 rfl

theorem rootTarget_visible : ∀ c ∈ str "/", (0x20 : UInt8) < c := List.all_iff_forall_prop.1 rfl

theorem hostName_isHost : eqIgnoreCase (str "Host") (str "Host") := by decide

theorem exampleName_inline : 0x0d ∉ str "example.com" ∧ 0x0a ∉ str "example.com" := by decide

def tightHost : HeaderField where
  name := str "Host"
  value := str "example.com"
  name_ne_nil := List.cons_ne_nil _ _
  name_visible := hostName_visible
  value_noCr := exampleName_inline.1
  value_noLf := exampleName_inline.2

/-- A `Host` field without a blank: its first letter is left out. -/
def tightRequest : HttpRequest where
  method := .get
  target := str "/"
  before := []
  host := tightHost
  after := []
  target_ne_nil := List.cons_ne_nil _ _
  target_visible := rootTarget_visible
  host_isHost := hostName_isHost
  before_other := List.forall_mem_nil _
  after_other := List.forall_mem_nil _

theorem tightRequest_host :
    (dpiHttpProto ⟨ipprotoTcp, 80, tightRequest.text ++ [], false, {}, {}⟩).toOption.map DpiFlow.http ≠
      some (tightRequest.fields []) := by
  decide +kernel

end Oaf
