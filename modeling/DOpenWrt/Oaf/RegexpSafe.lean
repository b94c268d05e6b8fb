import DOpenWrt.Oaf.Regexp
import DOpenWrt.Oaf.Dpi

/-!
# Malformed patterns

`ListText` and `PatternText` are the patterns that `compile` takes without an access outside the pattern or a list. A
pattern in error makes `regexp_match` return -1, which `af_match_by_url` takes for a match.
-/

namespace Oaf
open CString (str)

/-- The rest of a bracket list up to its `]`, with the character before it and the number of characters in the list: the
list never holds more than its buffer, and has room for the NUL at the end. -/
inductive ListText : UInt8 → ℕ → List UInt8 → List UInt8 → Prop
  | close {prev : UInt8} {fill : ℕ} {rest : List UInt8} (room : fill < cclSize) : ListText prev fill (chr ']' :: rest) rest
  | char {prev c : UInt8} {fill : ℕ} {cs rest : List UInt8} (close : c ≠ chr ']') (dash : c ≠ chr '-')
      (room : fill < cclSize) (tail : ListText c (fill + 1) cs rest) : ListText prev fill (c :: cs) rest
  | range {prev b : UInt8} {fill : ℕ} {cs rest : List UInt8} (first : fill ≠ 0) (last : b ≠ chr ']')
      (below : prev.toNat ≤ fill + b.toNat) (above : fill + b.toNat - prev.toNat ≤ cclSize)
      (tail : ListText b (fill + b.toNat - prev.toNat) cs rest) : ListText prev fill (chr '-' :: b :: cs) rest

/-- Every backslash has a character other than `d` and `D` behind it, and every bracket list is a `ListText`. -/
inductive PatternText : List UInt8 → Prop
  | nil : PatternText []
  | char {c : UInt8} {cs : List UInt8} (escape : c ≠ chr '\\') (list : c ≠ chr '[') (tail : PatternText cs) :
      PatternText (c :: cs)
  | escape {e : UInt8} {cs : List UInt8} (digit : ¬(e = chr 'd' ∨ e = chr 'D')) (tail : PatternText cs) :
      PatternText (chr '\\' :: e :: cs)
  | list {cs rest : List UInt8} (body : ListText (chr '[') 0 (listStart cs).2 rest) (tail : PatternText rest) :
      PatternText (chr '[' :: cs)

/-! ### Lists -/

section
variable {cs rest ccl ccl' : List UInt8} {prev : UInt8}

theorem length_creatList_range (start stop : ℕ) : (creatList start stop).length = stop + 1 - start := by
  rw [creatList, List.length_map, List.length_range]

theorem listBody_of_text {fill : ℕ} (h : ListText prev fill cs rest) (ccl : List UInt8) (hfill : ccl.length = fill) :
    ∃ ccl', listBody cs prev ccl = .ok (some (ccl', rest)) := by
  induction h generalizing ccl with
  | close room => exact ⟨ccl, (listBody_close ..).trans (if_pos (hfill ▸ room))⟩
  | char close dash room tail ih =>
    rw [listBody_char ⟨dash, close⟩, if_pos (hfill ▸ room)]
    exact ih _ (by rw [List.length_append, hfill]; rfl)
  | @range prev b fill cs rest first last below above tail ih =>
    have hne : ccl ≠ [] := fun hnil => first (by rw [← hfill, hnil]; rfl)
    have hdash : chr '-' ≠ chr ']' := by decide
    rw [listBody.eq_def]
    simp only [ne_eq, hdash, not_true_eq_false, if_false, hne, last]
    by_cases hup : prev.toNat ≤ b.toNat
    · rw [if_pos hup, if_pos (by omega)]
      exact ih _ (by rw [List.length_append, length_creatList_range]; omega)
    · rw [if_neg hup, if_pos (by omega)]
      exact ih _ (by rw [List.length_take]; omega)

theorem text_of_listBody (hsize : ccl.length ≤ cclSize) (h : listBody cs prev ccl = .ok (some (ccl', rest))) :
    ListText prev ccl.length cs rest := by
  fun_induction listBody cs prev ccl with
  | case1 => cases h
  | case2 cs prev ccl room =>
    cases h
    exact .close room
  | case3 => cases h
  | case4 c cs prev ccl hclose hdash room ih =>
    have := ih (by rw [List.length_append, List.length_singleton]; omega) h
    rw [List.length_append] at this
    exact .char hclose hdash room this
  | case5 => cases h
  | case6 => cases h
  | case7 => cases h
  | case8 => cases h
  | case9 => cases h
  | case10 c prev ccl hclose hdash hne b cs hlast hup room ih =>
    have hlength : (ccl ++ creatList (prev.toNat + 1) b.toNat).length = ccl.length + b.toNat - prev.toNat := by
      rw [List.length_append, length_creatList_range]
      omega
    rw [not_not.1 hdash]
    refine .range (fun heq => hne (List.length_eq_zero_iff.1 heq)) hlast (by omega) (by omega) ?_
    rw [← hlength]
    exact ih (by omega) h
  | case11 => cases h
  | case12 c prev ccl hclose hdash hne b cs hlast hup room ih =>
    have hlength : (ccl.take (ccl.length - (prev.toNat - b.toNat))).length = ccl.length + b.toNat - prev.toNat := by
      rw [List.length_take]
      omega
    rw [not_not.1 hdash]
    refine .range (fun heq => hne (List.length_eq_zero_iff.1 heq)) hlast (by omega) (by omega) ?_
    rw [← hlength]
    exact ih (by omega) h
  | case13 => cases h

end

/-! ### Patterns -/

section
variable {fresh : ℕ → ℤ} {k : ℕ}

def Compiles (fresh : ℕ → ℤ) (k : ℕ) (pattern : List UInt8) : Prop :=
  ∃ nodes, compile fresh k pattern = .ok (some nodes)

theorem consNode_compiles {node : Re} {x : Except RegexpFault (Option (List Re))} :
    (∃ nodes, consNode node x = .ok (some nodes)) ↔ ∃ nodes, x = .ok (some nodes) := by
  constructor
  · rintro ⟨nodes, h⟩
    rw [consNode] at h
    match x, h with
    | .ok (some rest), _ => exact ⟨rest, rfl⟩
  · rintro ⟨nodes, rfl⟩
    exact ⟨node :: nodes, rfl⟩

/-- A character that is neither a backslash nor a bracket is one node. -/
theorem compile_one {c : UInt8} (hescape : c ≠ chr '\\') (hlist : c ≠ chr '[') (cs : List UInt8) :
    ∃ node, compile fresh k (c :: cs) = consNode node (compile fresh (k + 1) cs) := by
  rw [compile.eq_def]
  simp only [hescape, hlist, if_false]
  split_ifs
  all_goals exact ⟨_, rfl⟩

/-- The patterns that compile. -/
theorem compiles_iff (pattern : List UInt8) : Compiles fresh k pattern ↔ PatternText pattern := by
  constructor
  · intro h
    induction hn : pattern.length using Nat.strongRecOn generalizing pattern k with
    | ind n ih =>
    subst hn
    cases pattern with
    | nil => exact .nil
    | cons c cs =>
      by_cases hescape : c = chr '\\'
      · subst hescape
        cases cs with
        | nil =>
          obtain ⟨nodes, h⟩ := h
          rw [compile.eq_def] at h
          simp at h
        | cons e cs =>
          rw [Compiles, compile_esc] at h
          by_cases hdigit : e = chr 'd' ∨ e = chr 'D'
          · obtain ⟨nodes, h⟩ := h
            rw [if_pos hdigit] at h
            cases h
          · rw [if_neg hdigit, consNode_compiles] at h
            exact .escape hdigit (ih cs.length (by simp only [List.length_cons]; omega) cs h rfl)
      by_cases hlist : c = chr '['
      · subst hlist
        rw [Compiles, compile_list] at h
        cases hbody : listBody (listStart cs).2 (chr '[') [] with
        | error fault =>
          obtain ⟨nodes, h⟩ := h
          rw [hbody] at h
          cases h
        | ok body =>
          cases body with
          | none =>
            obtain ⟨nodes, h⟩ := h
            rw [hbody] at h
            cases h
          | some body =>
            obtain ⟨ccl, rest⟩ := body
            rw [hbody] at h
            have hlt := listBody_length hbody
            have hle := listStart_length cs
            refine .list (text_of_listBody (Nat.zero_le _) hbody) (ih rest.length ?_ rest (consNode_compiles.1 h) rfl)
            simp only [List.length_cons]
            omega
      · obtain ⟨node, hone⟩ := @compile_one fresh k c hescape hlist cs
        rw [Compiles, hone, consNode_compiles] at h
        exact .char hescape hlist (ih cs.length (by simp only [List.length_cons]; omega) cs h rfl)
  · intro h
    induction h generalizing k with
    | nil => exact ⟨[], by rw [compile]⟩
    | @char c cs hescape hlist tail ih =>
      obtain ⟨node, hone⟩ := @compile_one fresh k c hescape hlist cs
      rw [Compiles, hone, consNode_compiles]
      exact ih
    | @escape e cs hdigit tail ih =>
      rw [Compiles, compile_esc, if_neg hdigit, consNode_compiles]
      exact ih
    | @list cs rest body tail ih =>
      obtain ⟨ccl, hbody⟩ := listBody_of_text body [] rfl
      rw [Compiles, compile_list, hbody]
      exact consNode_compiles.2 ih

/-- A pattern is compiled or refused within its bounds, in the same way whatever the memory held. -/
def CompileInside (fresh : ℕ → ℤ) (pattern : List UInt8) : Prop := ∃ result, compile fresh 0 pattern = .ok result

theorem regexpMatch_of_refused {pattern : List UInt8} (h : compile fresh 0 pattern = .ok none) (text : List UInt8) :
    regexpMatch fresh pattern text = .ok (-1) := by
  rw [regexpMatch, h]; rfl

end

/-! ### The match -/

/-- `regexp_match` as `af_match_by_url` takes it: any value but 0 is true. -/
def urlMatches (fresh : ℕ → ℤ) (reg text : List UInt8) : Bool :=
  match regexpMatch fresh reg text with
  | .ok result => result ≠ 0
  | .error _ => false

/-- The patterns of a feature are compiled within their bounds, and if one does not compile the feature matches no URL. -/
structure FeatureHarmless (fresh : ℕ → ℤ) (node : AfFeatureNode) : Prop where
  host : CompileInside fresh node.hostUrl
  request : CompileInside fresh node.requestUrl
  noMatch : ¬(Compiles fresh 0 node.hostUrl ∧ Compiles fresh 0 node.requestUrl) →
    ∀ flow, afMatchByUrl flow (urlMatches fresh) node ≠ .ok true

section
variable {fresh : ℕ → ℤ} {node : AfFeatureNode}

theorem Compiles.inside {pattern : List UInt8} (h : Compiles fresh 0 pattern) : CompileInside fresh pattern := by
  obtain ⟨nodes, h⟩ := h
  exact ⟨some nodes, h⟩

/-- A pattern that is refused matches every text. -/
theorem urlMatches_of_refused {pattern : List UInt8} (hinside : CompileInside fresh pattern)
    (hnot : ¬Compiles fresh 0 pattern) (text : List UInt8) : urlMatches fresh pattern text = true := by
  obtain ⟨result, hresult⟩ := hinside
  cases result with
  | none =>
    rw [urlMatches, regexpMatch_of_refused hresult]
    exact decide_eq_true (by decide)
  | some nodes => exact absurd ⟨nodes, hresult⟩ hnot

theorem ne_nil_of_refused {pattern : List UInt8} (hnot : ¬Compiles fresh 0 pattern) : pattern ≠ [] := fun hnil =>
  hnot (hnil ▸ (compiles_iff []).2 .nil)

/-- A request of one character, to a host of one. -/
def oneCharFlow : DpiFlow where
  l4Protocol := 6
  dport := 80
  l4Data := str "ab"
  clientHello := false
  http := { matched := true, method := some .get, urlPos := some 0, urlLen := 1, hostPos := some 1, hostLen := 1 }

theorem copyHost_oneChar : copyHost oneCharFlow = .ok (str "b") := by decide +kernel

theorem copyUrl_oneChar : copyUrl oneCharFlow.l4Data 0 oneCharFlow.http.urlLen = .ok (str "a") := by decide +kernel

theorem matchByUrl_host (h : urlMatches fresh node.hostUrl (str "b") = true) (hne : node.hostUrl ≠ []) :
    afMatchByUrl oneCharFlow (urlMatches fresh) node = .ok true := by
  have hurl : str "b" ≠ [] := by decide
  rw [afMatchByUrl, copyHost_oneChar]
  exact if_pos ⟨hurl, hne, h⟩

theorem matchByUrl_request (h : urlMatches fresh node.requestUrl (str "a") = true) (hne : node.requestUrl ≠ []) :
    afMatchByUrl oneCharFlow (urlMatches fresh) node = .ok true := by
  have hurl : str "a" ≠ [] := by decide
  rw [afMatchByUrl, copyHost_oneChar]
  change (if _ then Except.ok true else _) = _
  split
  · rfl
  · change (copyUrl oneCharFlow.l4Data 0 oneCharFlow.http.urlLen >>= fun url => _) = _
    rw [copyUrl_oneChar]
    exact congrArg Except.ok (decide_eq_true ⟨hurl, hne, h⟩)

end

/-- Malformed patterns are harmless exactly where there are none: a pattern that is refused matches every URL. -/
theorem featureHarmless_iff (fresh : ℕ → ℤ) (node : AfFeatureNode) :
    FeatureHarmless fresh node ↔ PatternText node.hostUrl ∧ PatternText node.requestUrl := by
  rw [← @compiles_iff fresh 0, ← @compiles_iff fresh 0]
  constructor
  · intro h
    by_contra hnot
    have hnever := h.noMatch hnot oneCharFlow
    rcases not_and_or.1 hnot with hhost | hrequest
    · exact hnever (matchByUrl_host (urlMatches_of_refused h.host hhost _) (ne_nil_of_refused hhost))
    · exact hnever (matchByUrl_request (urlMatches_of_refused h.request hrequest _) (ne_nil_of_refused hrequest))
  · intro h
    exact ⟨h.1.inside, h.2.inside, fun hnot => absurd h hnot⟩

/-- `[a-]` is refused and then matches a URL; behind an unclosed list the pattern is read past its NUL. -/
theorem refusedPattern_matches :
    regexpMatch (fun _ => 0) (str "[a-]") (str "b") = .ok (-1) ∧
      afMatchByUrl oneCharFlow (urlMatches fun _ => 0) ⟨str "[a-]", [], [], [], by decide⟩ = .ok true ∧
      compile (fun _ => 0) 0 (str "[a") = .error .read := by
  have hrefused : compile (fun _ => 0) 0 (str "[a-]") = .ok none := by
    rw [show str "[a-]" = chr '[' :: str "a-]" by decide, compile_list]; rfl
  have hread : compile (fun _ => 0) 0 (str "[a") = .error .read := by
    rw [show str "[a" = chr '[' :: str "a" by decide, compile_list]; rfl
  refine ⟨regexpMatch_of_refused hrefused _, ?_, hread⟩
  have hmatch : urlMatches (fun _ => 0) (str "[a-]") (str "b") = true := by
    rw [urlMatches, regexpMatch_of_refused hrefused]
    exact decide_eq_true (by decide)
  exact matchByUrl_host hmatch (by decide)

end Oaf
