import DOpenWrt.Rtp2httpd.M3uNames
import DOpenWrt.Rtp2httpd.UrlTemplateNeeds

/-!
# A URL as rendering reads it

Rendering takes a URL apart into characters that it copies and placeholders that it replaces; a placeholder that is
too long for its buffer ends it. Where it stops and what its result depends on is read off these tokens.
-/

namespace Rtp2httpd

/-- Rendering replaces the placeholder. -/
def Replaced (x : Placeholder) : Prop := (classifyTemplatePlaceholder x).hasTemplate = true ∧ ¬ Misread x

instance Replaced.decidable (x : Placeholder) : Decidable (Replaced x) := inferInstanceAs (Decidable (_ ∧ _))

theorem replaced_iff {x : Placeholder} :
    Replaced x ↔ ∃ r, recipeOf x = some r ∧ r.Follows (classifyTemplatePlaceholder x) := by
  constructor
  · rintro ⟨hknown, hread⟩
    cases h : recipeOf x with
    | none =>
      rcases recipeOf_eq_none h with hno | hmis
      · rw [hno] at hknown
        cases hknown
      · exact absurd hmis hread
    | some r => exact ⟨r, rfl, (recipeOf_follows h).1⟩
  · rintro ⟨r, h, hfollows⟩
    exact ⟨hfollows.hasTemplate, (recipeOf_follows h).2⟩

/-- A piece of a URL. The last one has the rest of the URL. -/
inductive Token where
  | lit (c : UInt8)
  | value (x : Placeholder)
  | tooLong (p : List UInt8)
deriving DecidableEq, Repr

namespace Token

def source : Token → List UInt8
  | lit c => [c]
  | value x => x.text
  | tooLong p => p

def isLit : Token → Bool
  | lit _ => true
  | value _ | tooLong _ => false

def needs : Token → SeekTime → Bool
  | value x, time => (classifyTemplatePlaceholder x).needs time
  | lit _, _ | tooLong _, _ => false

/-- A placeholder that is replaced, and that ends at the first brace. -/
def Ok : Token → Prop
  | value x => Replaced x ∧ closeBrace ∉ x.inner
  | lit _ | tooLong _ => True

def render (ctx : SeekTimes) : Token → Except RenderError (List UInt8)
  | lit c => .ok [c]
  | value x =>
    match recipeOf x with
    | none => .ok x.text
    | some r => r.render ctx
  | tooLong _ => .error .tooLong

end Token

/-- The tokens of `p`, which follows `prev`. -/
def tokensLoop : Nat → Option UInt8 → List UInt8 → List Token
  | 0, _, _ => []
  | _ + 1, _, [] => []
  | fuel + 1, prev, c :: rest =>
    match opening prev (c :: rest) with
    | none => .lit c :: tokensLoop fuel (some c) rest
    | some (isShortSyntax, innerStart) =>
      match splitClosing innerStart with
      | none => .lit c :: tokensLoop fuel (some c) rest
      | some (inner, after) =>
        if IsTooLong inner then [.tooLong (c :: rest)]
        else if Replaced ⟨isShortSyntax, inner⟩ then
          .value ⟨isShortSyntax, inner⟩ :: tokensLoop fuel (some closeBrace) after
        else .lit c :: tokensLoop fuel (some c) rest

def tokens (url : List UInt8) : List Token := tokensLoop (url.length + 1) none url

def renderTokens (ctx : SeekTimes) : List Token → Except RenderError (List UInt8)
  | [] => .ok []
  | t :: ts =>
    match t.render ctx with
    | .error e => .error e
    | .ok value => (renderTokens ctx ts).map (value ++ ·)

/-- Rendering at these times comes to the token. -/
inductive Reaches (ctx : SeekTimes) : List Token → Token → Prop
  | head {t : Token} {ts : List Token} : Reaches ctx (t :: ts) t
  | tail {s t : Token} {ts : List Token} {value : List UInt8} (hs : s.render ctx = .ok value)
      (h : Reaches ctx ts t) : Reaches ctx (s :: ts) t

section
variable {ctx : SeekTimes} {prev : Option UInt8} {p innerStart inner after rest : List UInt8} {c : UInt8}
  {isShortSyntax : Bool} {fuel : Nat}

/-! ### The tokens spell the URL -/

theorem opening_eq_some (h : opening prev p = some (isShortSyntax, innerStart)) :
    p = (if isShortSyntax then [openBrace] else [dollar, openBrace]) ++ innerStart := by
  rcases p with _ | ⟨c, rest⟩
  · cases h
  · rw [opening] at h
    by_cases hdollar : c = dollar ∧ rest.head? = some openBrace
    · rw [if_pos hdollar] at h
      cases h
      rw [hdollar.1, if_neg Bool.false_ne_true]
      exact congrArg (dollar :: ·) (List.eq_cons_of_mem_head? hdollar.2)
    · rw [if_neg hdollar] at h
      by_cases hbrace : c = openBrace ∧ prev ≠ some dollar
      · rw [if_pos hbrace] at h
        cases h
        rw [hbrace.1]
        rfl
      · rw [if_neg hbrace] at h
        cases h

theorem tokensLoop_source (hfuel : p.length < fuel) : (tokensLoop fuel prev p).flatMap Token.source = p := by
  induction fuel generalizing prev p with
  | zero => exact absurd hfuel (Nat.not_lt_zero _)
  | succ fuel ih =>
    rcases p with _ | ⟨c, rest⟩
    · rfl
    · have hrest : rest.length < fuel := Nat.lt_of_succ_lt_succ hfuel
      have hlit : (Token.lit c :: tokensLoop fuel (some c) rest).flatMap Token.source = c :: rest := by
        rw [List.flatMap_cons, ih hrest]
        rfl
      unfold tokensLoop
      split
      · exact hlit
      · next isShortSyntax innerStart hopen =>
        split
        · exact hlit
        · next inner after hsplit =>
          have hp := opening_eq_some hopen
          obtain ⟨rfl, -⟩ := splitClosing_eq_some.1 hsplit
          split_ifs
          · exact List.append_nil _
          · have hafter : after.length < fuel := by
              have hlen := congrArg List.length hp
              simp only [List.length_append, List.length_cons] at hlen
              omega
            rw [List.flatMap_cons, ih hafter, hp]
            simp [Token.source, Placeholder.text]
          · exact hlit

theorem tokensLoop_ok : ∀ t ∈ tokensLoop fuel prev p, t.Ok := by
  induction fuel generalizing prev p with
  | zero => intro t ht; cases ht
  | succ fuel ih =>
    rcases p with _ | ⟨c, rest⟩
    · intro t ht
      cases ht
    · have hlit : ∀ t ∈ Token.lit c :: tokensLoop fuel (some c) rest, t.Ok :=
        List.forall_mem_cons.2 ⟨trivial, ih⟩
      unfold tokensLoop
      split
      · exact hlit
      · split
        · exact hlit
        · next inner after hsplit =>
          split_ifs with hlong hreplaced
          · exact List.forall_mem_singleton.2 trivial
          · exact List.forall_mem_cons.2 ⟨⟨hreplaced, (splitClosing_eq_some.1 hsplit).2⟩, ih⟩
          · exact hlit

/-! ### Rendering goes by the tokens -/

theorem map_append_map (value output : List UInt8) (r : Except RenderError (List UInt8)) :
    (r.map (value ++ ·)).map (output ++ ·) = r.map ((output ++ value) ++ ·) := by
  cases r with
  | error e => rfl
  | ok rest => exact congrArg Except.ok (List.append_assoc output value rest).symm

theorem renderTemplateLoop_eq (output : List UInt8) :
    renderTemplateLoop ctx fuel prev p output =
      (renderTokens ctx (tokensLoop fuel prev p)).map (output ++ ·) := by
  induction fuel generalizing prev p output with
  | zero => exact congrArg Except.ok (List.append_nil output).symm
  | succ fuel ih =>
    rcases p with _ | ⟨c, rest⟩
    · exact congrArg Except.ok (List.append_nil output).symm
    · have hlit : renderTemplateLoop ctx fuel (some c) rest (output ++ [c]) =
          (renderTokens ctx (.lit c :: tokensLoop fuel (some c) rest)).map (output ++ ·) := by
        rw [ih]
        exact (map_append_map [c] output _).symm
      unfold renderTemplateLoop tokensLoop
      cases hopen : opening prev (c :: rest) with
      | none => exact hlit
      | some x =>
        obtain ⟨useShort, innerStart⟩ := x
        cases hsplit : splitClosing innerStart with
        | none =>
          simp only [hsplit, renderPlaceholder_open hsplit]
          exact hlit
        | some x =>
          obtain ⟨inner, after⟩ := x
          simp only [hsplit, renderPlaceholder_eq hsplit]
          by_cases hlong : IsTooLong inner
          · rw [if_pos hlong, if_pos hlong]
            rfl
          · rw [if_neg hlong, if_neg hlong]
            by_cases hreplaced : Replaced ⟨useShort, inner⟩
            · obtain ⟨r, hr, -⟩ := replaced_iff.1 hreplaced
              rw [if_pos hreplaced, hr, renderTokens, Token.render, hr]
              dsimp only
              cases r.render ctx with
              | error e => rfl
              | ok value => exact (ih _).trans (map_append_map value output _).symm
            · have hnone : recipeOf ⟨useShort, inner⟩ = none := by
                cases hr : recipeOf ⟨useShort, inner⟩ with
                | none => rfl
                | some r => exact absurd (replaced_iff.2 ⟨r, hr, (recipeOf_follows hr).1⟩) hreplaced
              rw [if_neg hreplaced, hnone]
              exact hlit

/-- `render_template_url` renders the tokens of the URL, one after the other. -/
theorem renderTemplateUrl_eq (url : List UInt8) (ctx : SeekTimes) :
    renderTemplateUrl url ctx = renderTokens ctx (tokens url) := by
  rw [renderTemplateUrl, renderTemplateLoop_eq, tokens]
  cases renderTokens ctx (tokensLoop (url.length + 1) none url) <;> rfl

end

end Rtp2httpd
