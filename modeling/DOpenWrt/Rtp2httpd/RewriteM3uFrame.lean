import Mathlib.Data.Bool.AllAny
import DOpenWrt.Rtp2httpd.M3uNames
import DOpenWrt.Rtp2httpd.RewriteM3uAttributes

/-!
# What rewriting leaves alone (`rewrite_m3u_content`)

A playlist keeps its lines where what a line becomes has no newline inside: it does not end in a line end, so with the
newline that is put back it is one line again. A newline can only come out of the context. The carriage return before the
newline is not put back, and the URL of another scheme is taken for a relative one; the lines are as they should be where
none of this happens.
-/

namespace Rtp2httpd
open CString

/-- The carriage returns and newlines at the end of a line. -/
def terminator (line : List UInt8) : List UInt8 := line.rtakeWhile isLineEnd

/-- The URL of a line that is no comment. -/
def lineUrl (line : List UInt8) : List UInt8 := (lineBody line).dropWhile isspace

/-- The URL begins with a scheme: a letter, then letters, digits and `+-.`, then a colon. -/
def hasScheme (url : List UInt8) : Bool :=
  (url.head?.any fun c => isalnum c ∧ ¬ isdigit c) ∧
    (url.dropWhile fun c => isalnum c ∨ c ∈ str "+-.").head? = some (byte ':')

def isHttpOrRelative (url : List UInt8) : Bool := startsWithCase (str "http://") url ∨ ¬ hasScheme url

section
variable {text init line : List UInt8}

end

/-! ### The proxy form -/

/-- The text does not end in a line end. -/
def EndsClean (text : List UInt8) : Prop := ∀ c ∈ text.getLast?, isLineEnd c = false

theorem EndsClean.append {a b : List UInt8} (ha : EndsClean a) (hb : EndsClean b) : EndsClean (a ++ b) := by
  intro c hc
  rw [List.getLast?_append] at hc
  cases hlast : b.getLast? with
  | none =>
    rw [hlast] at hc
    exact ha c hc
  | some d =>
    rw [hlast] at hc
    exact hb c (hlast.trans hc)

theorem EndsClean.append_left {a b : List UInt8} (hb : b ≠ []) (h : EndsClean b) : EndsClean (a ++ b) := by
  intro c hc
  rw [List.getLast?_append_of_ne_nil _ hb] at hc
  exact h c hc

theorem EndsClean.of_append {a b : List UInt8} (h : EndsClean (a ++ b)) : EndsClean b := by
  intro c hc
  refine h c ?_
  rw [List.getLast?_append, Option.mem_def.1 hc]
  rfl

theorem endsClean_of_forall {text : List UInt8} (h : ∀ c ∈ text, isLineEnd c = false) : EndsClean text :=
  fun c hc => h c (List.mem_of_getLast? hc)

theorem isLineEnd_iff {c : UInt8} : isLineEnd c = true ↔ c.toNat = 13 ∨ c.toNat = 10 := by
  rw [isLineEnd, decide_eq_true_eq, ← UInt8.toNat_inj, ← UInt8.toNat_inj]
  rfl

theorem httpUrlEncode_clean {token : List UInt8} : ∀ c ∈ httpUrlEncode token, isLineEnd c = false := by
  have hhex : ∀ n < 16, isLineEnd (hexChars.getD n 0) = false := by decide
  intro c hc
  obtain ⟨d, -, hd⟩ := List.mem_flatMap.1 hc
  have hlt := d.toNat_lt
  split at hd
  · next hplain =>
    obtain rfl := List.mem_singleton.1 hd
    rw [Bool.eq_false_iff, ne_eq, isLineEnd_iff]
    rcases hplain with halnum | hmem
    · simp [isalnum, isdigit] at halnum
      omega
    · simp [str] at hmem
      rcases hmem with rfl | rfl | rfl | rfl | rfl <;> decide
  · rcases List.mem_cons.1 hd with rfl | hd
    · decide
    rcases List.mem_cons.1 hd with rfl | hd
    · exact hhex _ (by omega)
    · rw [List.mem_singleton.1 hd]
      exact hhex _ (by omega)

/-- What the token adds to a URL. -/
def tokenSuffix (ctx : RewriteContext) (hostStart : List UInt8) : List UInt8 :=
  if ctx.r2hToken = [] then []
  else (if byte '?' ∈ hostStart then str "&r2h-token=" else str "?r2h-token=") ++ httpUrlEncode ctx.r2hToken

section
variable {ctx : RewriteContext} {url hostStart out : List UInt8} {outputSize : Nat}

theorem tokenSuffix_clean : ∀ c ∈ tokenSuffix ctx hostStart, isLineEnd c = false := by
  intro c hc
  unfold tokenSuffix at hc
  split at hc
  · cases hc
  · rcases List.mem_append.1 hc with hc | hc
    · have hamp : ∀ c ∈ str "&r2h-token=", isLineEnd c = false := List.all_iff_forall_prop.1 rfl
      have hask : ∀ c ∈ str "?r2h-token=", isLineEnd c = false := List.all_iff_forall_prop.1 rfl
      split at hc
      · exact hamp c hc
      · exact hask c hc
    · exact httpUrlEncode_clean c hc

theorem printed_eq_some {size : Nat} {text : List UInt8} (h : printed size text = some out) : out = text := by
  unfold printed at h
  split at h
  · exact (Option.some.inj h).symm
  · cases h

theorem httpProxyBuildUrl_eq (h : httpProxyBuildUrl ctx url outputSize = some out) :
    out = ctx.baseUrl ++ str "http/" ++ url.drop 7 ++ tokenSuffix ctx (url.drop 7) := by
  unfold httpProxyBuildUrl at h
  split at h
  · cases h
  · rw [printed_eq_some h, tokenSuffix]
    split
    · rw [List.append_nil]
    · simp only [List.append_assoc]

/-- What the proxy form of a URL takes from the context: the base URL, and for a relative URL the host and the directory. -/
def contextText (ctx : RewriteContext) (url : List UInt8) : List UInt8 :=
  if startsWithCase (str "http://") url then ctx.baseUrl
  else if url.head? = some (byte '/') then ctx.baseUrl ++ ctx.upstreamHost
  else ctx.baseUrl ++ ctx.upstreamHost ++ dirPath ctx.upstreamPath

theorem newline_not_mem_decimalInt (n : Int) : newline ∉ decimalInt n := by
  intro hmem
  rcases List.mem_append.1 hmem with hmem | hmem
  · split at hmem
    · exact absurd hmem (by decide)
    · cases hmem
  · exact absurd (mem_decimal hmem) (by decide)

theorem newline_mem_formatHostPortForUrl {host : List UInt8} {port defaultPort : Int}
    (h : formatHostPortForUrl host port defaultPort outputSize = some out) : newline ∈ out ↔ newline ∈ host := by
  obtain ⟨bracketed, hbracketed, h⟩ := Option.bind_eq_some_iff.1 h
  have hb : newline ∈ bracketed ↔ newline ∈ host := by
    rw [printed_eq_some hbracketed]
    split
    · rw [List.mem_append, List.mem_append, or_iff_left (by decide), or_iff_right (by decide)]
    · exact Iff.rfl
  rw [printed_eq_some h]
  split
  · exact hb
  · rw [List.mem_append, List.mem_append, or_iff_left (newline_not_mem_decimalInt port), or_iff_left (by decide), hb]

/-- The proxy form of an absolute URL. -/
theorem proxyForm_http (hhttp : startsWithCase (str "http://") url = true)
    (h : rewriteUrlToProxyFormat ctx url outputSize = some out) :
    out = ctx.baseUrl ++ str "http/" ++ url.drop 7 ++ tokenSuffix ctx (url.drop 7) := by
  unfold rewriteUrlToProxyFormat at h
  split at h
  · next hnil =>
    subst hnil
    exact absurd hhttp (by decide)
  split at h
  · cases h
  obtain ⟨absolute, habsolute, hbuild⟩ := Option.bind_eq_some_iff.1 h
  rw [httpProxyBuildUrl_eq hbuild, printed_eq_some habsolute]

/-- The proxy form of a URL that is taken for a relative one. -/
theorem proxyForm_relative (hne : url ≠ []) (hhttp : startsWithCase (str "http://") url = false)
    (h : rewriteUrlToProxyFormat ctx url outputSize = some out) :
    ∃ authority token, out = ctx.baseUrl ++ str "http/" ++ authority ++ url ++ token ∧
      (newline ∈ ctx.baseUrl ++ authority ↔ newline ∈ contextText ctx url) ∧ ∀ c ∈ token, isLineEnd c = false := by
  unfold rewriteUrlToProxyFormat at h
  rw [if_neg hne] at h
  split at h
  · cases h
  rw [if_neg (by rw [hhttp]; exact Bool.false_ne_true)] at h
  obtain ⟨absolute, habsolute, h⟩ := Option.bind_eq_some_iff.1 h
  obtain ⟨authority, hauthority, habsolute⟩ := Option.bind_eq_some_iff.1 habsolute
  have hline := newline_mem_formatHostPortForUrl hauthority
  have hdrop : ∀ text : List UInt8, (str "http://" ++ text).drop 7 = text := fun text => List.drop_left' rfl
  have hcontext : contextText ctx url = if url.head? = some (byte '/') then ctx.baseUrl ++ ctx.upstreamHost
      else ctx.baseUrl ++ ctx.upstreamHost ++ dirPath ctx.upstreamPath :=
    if_neg (by rw [hhttp]; exact Bool.false_ne_true)
  rw [httpProxyBuildUrl_eq h, printed_eq_some habsolute, hcontext]
  by_cases hroot : url.head? = some (byte '/')
  · rw [if_pos hroot, if_pos hroot]
    refine ⟨authority, tokenSuffix ctx (authority ++ url), ?_, ?_, tokenSuffix_clean⟩
    · simp only [List.append_assoc, hdrop]
    · rw [List.mem_append, List.mem_append, hline]
  · rw [if_neg hroot, if_neg hroot]
    refine ⟨authority ++ dirPath ctx.upstreamPath, tokenSuffix ctx (authority ++ dirPath ctx.upstreamPath ++ url), ?_, ?_,
      tokenSuffix_clean⟩
    · simp only [List.append_assoc, hdrop]
    · simp only [List.mem_append, hline, or_assoc]

/-- What a URL leaves in its proxy form: no newline but those of the context, and an end that is no line end. -/
theorem proxyForm_clean (hne : url ≠ []) (hline : newline ∉ url)
    (h : rewriteUrlToProxyFormat ctx url outputSize = some out) :
    (newline ∈ out ↔ newline ∈ contextText ctx url) ∧ out ≠ [] ∧ (EndsClean url → EndsClean out) := by
  have hhttpEnd : EndsClean (str "http/") := endsClean_of_forall (List.all_iff_forall_prop.1 rfl)
  have hclean : ∀ {token : List UInt8}, (∀ c ∈ token, isLineEnd c = false) → newline ∉ token := by
    intro token htoken hmem
    exact absurd (htoken _ hmem) (by decide)
  cases hhttp : startsWithCase (str "http://") url with
  | true =>
    rw [proxyForm_http hhttp h, contextText, if_pos hhttp]
    refine ⟨?_, by simp [str], fun hend => ?_⟩
    · rw [List.mem_append, or_iff_left (hclean tokenSuffix_clean), List.mem_append,
        or_iff_left fun hmem => hline (List.mem_of_mem_drop hmem), List.mem_append, or_iff_left (by decide)]
    · refine EndsClean.append ?_ (endsClean_of_forall tokenSuffix_clean)
      rw [List.append_assoc]
      refine EndsClean.append_left (by simp [str]) (hhttpEnd.append ?_)
      rw [← List.take_append_drop 7 url] at hend
      exact hend.of_append
  | false =>
    obtain ⟨authority, token, rfl, hcontext, htoken⟩ := proxyForm_relative hne hhttp h
    refine ⟨?_, by simp [hne], fun hend => ?_⟩
    · rw [← hcontext, List.mem_append, or_iff_left (hclean htoken), List.mem_append, or_iff_left hline, List.mem_append,
        List.mem_append, or_iff_left (show newline ∉ str "http/" by decide), List.mem_append]
    · exact EndsClean.append (EndsClean.append_left hne hend) (endsClean_of_forall htoken)

end

/-! ### Bodies -/

section
variable {ctx : RewriteContext} {urls : List (List UInt8)} {line line' : List UInt8}

theorem NewValue.clean {value value' : List UInt8} (h : NewValue ctx urls value value') (hline : newline ∉ value) :
    (newline ∈ value' ↔ ∃ url ∈ urls, newline ∈ contextText ctx url) ∧ (value ≠ [] → value' ≠ []) ∧
      (EndsClean value → EndsClean value') := by
  rcases h with ⟨rfl, rfl⟩ | ⟨rfl, hne, h⟩
  · exact ⟨iff_of_false hline (by simp), id, id⟩
  · obtain ⟨hline', hne', hend'⟩ := proxyForm_clean hne hline h
    exact ⟨hline'.trans (by simp), fun _ => hne', hend'⟩

/-- A line of attributes gets newlines from the context alone, and its end is no line end. -/
theorem AttributesRewritten.clean (h : AttributesRewritten ctx urls line line') (hline : newline ∉ line)
    (hend : EndsClean line) : (newline ∈ line' ↔ ∃ url ∈ urls, newline ∈ contextText ctx url) ∧ EndsClean line' := by
  induction h with
  | kept => exact ⟨iff_of_false hline (by simp), hend⟩
  | @value urls urls' pre quotes value value' rest rest' hkey hvalue hnew hrest ih =>
    simp only [List.mem_append, not_or] at hline
    obtain ⟨⟨⟨⟨hpre, hquotes⟩, hval⟩, -⟩, hre⟩ := hline
    obtain ⟨hrest₁, hrest₂⟩ := ih hre hend.of_append
    obtain ⟨hval₁, hval₂, hval₃⟩ := hnew.clean hval
    refine ⟨?_, ?_⟩
    · simp only [List.mem_append, hpre, hquotes, false_or, or_false, hval₁, hrest₁, or_and_right, exists_or]
    · refine EndsClean.append ?_ hrest₂
      rcases hvalue with ⟨rfl, -⟩ | ⟨rfl, hne, -, hends, -⟩
      · exact EndsClean.append_left (by decide) (endsClean_of_forall (List.all_iff_forall_prop.1 rfl))
      · have hvalue : EndsClean value := endsClean_of_forall fun c hc => by
          by_contra hend
          rw [Bool.not_eq_false, isLineEnd, decide_eq_true_eq] at hend
          rcases hend with rfl | rfl
          · exact hends _ hc (by decide)
          · exact hends _ hc (by decide)
        rw [List.append_nil, List.append_nil]
        exact EndsClean.append_left (hval₂ hne) (hval₃ hvalue)

end

/-! ### A line -/

section
variable {allocates : Nat → Bool} {ctx : RewriteContext} {init line rewritten : List UInt8}

/-- The URLs that give way to their proxy forms if the line is rewritten. -/
def rewrittenUrls (ctx : RewriteContext) (line : List UInt8) : List (List UInt8) :=
  if isCommentLine (lineBody line) then rewrittenValues ctx ((lineBody line).length + 1) (lineBody line)
  else [lineUrl line]

end

/-! ### The output -/

section
variable {rewriteM3uLine : List UInt8 → Option (List UInt8)} {allocates : Nat → Bool} {b b' : RewriteBuffer}
  {line input : List UInt8} {fuel : Nat}

end

/-! ### The frame -/

/-- What is put back is the terminator, the URL is one that is to be rewritten, and the context has no newline in what the
proxy forms take from it. -/
structure Rewritable (ctx : RewriteContext) (line : List UInt8) : Prop where
  terminator_ok : byte '\r' ∉ terminator line
  url_ok : isCommentLine (lineBody line) = true ∨ isHttpOrRelative (lineUrl line) = true
  context_ok : ∀ url ∈ rewrittenUrls ctx line, newline ∉ contextText ctx url

instance Rewritable.decidable (ctx : RewriteContext) (line : List UInt8) : Decidable (Rewritable ctx line) :=
  decidable_of_iff (byte '\r' ∉ terminator line ∧
    (isCommentLine (lineBody line) = true ∨ isHttpOrRelative (lineUrl line) = true) ∧
    ∀ url ∈ rewrittenUrls ctx line, newline ∉ contextText ctx url) ⟨fun h => ⟨h.1, h.2.1, h.2.2⟩, fun h => ⟨h.1, h.2, h.3⟩⟩

section
variable {allocates : Nat → Bool} {ctx : RewriteContext} {input out init line rewritten : List UInt8}

end

end Rtp2httpd
