import DOpenWrt.Rtp2httpd.UrlTemplateTokens

/-!
# Which times rendering needs

The rendering of a URL does without a time if and only if no placeholder that it comes to needs the time. It leaves
the URL as it is if and only if it replaces nothing: a value never has a closing brace, and every placeholder has one.
-/

namespace Rtp2httpd
open CString

/-- The times without one of them. The end is only missed where there is a beginning. -/
def SeekTimes.without (ctx : SeekTimes) : SeekTime → SeekTimes
  | .beginning => { ctx with beginUtc := none }
  | .ending => { ctx with beginUtc := some (ctx.beginUtc.getD 0), endUtc := none }

/-- Rendering is the same for all values of the time, and does not fail for lack of it. -/
def RendersWithout (url : List UInt8) (time : SeekTime) : Prop :=
  (∀ ctx value, renderTemplateUrl url (ctx.set value time) = renderTemplateUrl url ctx) ∧
    ∀ ctx, renderTemplateUrl url ctx ≠ .error (.lacks time)

/-- Rendering leaves the URL as it is. -/
def Unchanged (url : List UInt8) : Prop := ∀ ctx, renderTemplateUrl url ctx = .ok url

/-! ### One placeholder -/

section
variable {ctx : SeekTimes} {time : SeekTime} {r : Recipe} {out : List UInt8} {o : Option (List UInt8)} {t : Token}
  {ts : List Token}

theorem fitsValue_eq_ok : fitsValue o = .ok out ↔ o = some out := by
  unfold fitsValue
  cases o with
  | none => exact ⟨(nomatch ·), (nomatch ·)⟩
  | some w => exact ⟨fun h => congrArg some (Except.ok.inj h), fun h => congrArg Except.ok (Option.some.inj h)⟩

theorem fitsValue_ne_lacks : fitsValue o ≠ .error (.lacks time) := by
  unfold fitsValue
  cases o with
  | none => cases time <;> exact (nomatch ·)
  | some w => exact (nomatch ·)

namespace Recipe

theorem render_set (h : r.needs time = false) (ctx : SeekTimes) (value : Option Int) :
    r.render (ctx.set value time) = r.render ctx := by
  cases r <;> cases time <;> first | rfl | cases h

theorem render_ne_lacks (h : r.needs time = false) (ctx : SeekTimes) : r.render ctx ≠ .error (.lacks time) := by
  cases r with
  | ofBegin f =>
    cases time with
    | beginning => cases h
    | ending =>
      unfold render
      cases ctx.beginUtc with
      | none => exact (nomatch ·)
      | some _ => exact fitsValue_ne_lacks
  | ofEnd f =>
    cases time with
    | beginning =>
      unfold render
      cases ctx.endUtc with
      | none => exact (nomatch ·)
      | some _ => exact fitsValue_ne_lacks
    | ending => cases h
  | ofBoth f => cases h
  | ofNow f => exact fitsValue_ne_lacks

theorem render_lacks (h : r.needs time = true) (ctx : SeekTimes) :
    r.render (ctx.without time) = .error (.lacks time) := by
  cases r <;> cases time <;> first | rfl | cases h

/-- What can be rendered can be rendered without a time that it does not need. -/
theorem render_without (h : r.needs time = false) (hok : r.render ctx = .ok out) :
    r.render (ctx.without time) = .ok out := by
  cases time with
  | beginning =>
    have hset : r.render (ctx.set none .beginning) = r.render ctx := render_set h ctx none
    exact hset.trans hok
  | ending =>
    rw [← hok]
    cases r with
    | ofBegin f =>
      unfold render at hok ⊢
      unfold SeekTimes.without
      cases hbegin : ctx.beginUtc with
      | none =>
        rw [hbegin] at hok
        cases hok
      | some _ => rfl
    | ofEnd f => cases h
    | ofBoth f => cases h
    | ofNow f => rfl

end Recipe

namespace Token

theorem exists_recipe {x : Placeholder} (h : (value x).Ok) :
    ∃ r, recipeOf x = some r ∧ (∀ ctx, (value x).render ctx = r.render ctx) ∧
      ∀ time, (value x).needs time = r.needs time := by
  obtain ⟨r, hr, hfollows⟩ := replaced_iff.1 h.1
  refine ⟨r, hr, fun ctx => ?_, hfollows.needs⟩
  rw [render, hr]

theorem render_set (hok : t.Ok) (h : t.needs time = false) (ctx : SeekTimes) (value : Option Int) :
    t.render (ctx.set value time) = t.render ctx := by
  cases t with
  | lit c => rfl
  | value x =>
    obtain ⟨r, -, hrender, hneeds⟩ := exists_recipe hok
    rw [hrender, hrender]
    exact Recipe.render_set ((hneeds time).symm.trans h) ctx value
  | tooLong p => rfl

theorem render_ne_lacks (hok : t.Ok) (h : t.needs time = false) (ctx : SeekTimes) :
    t.render ctx ≠ .error (.lacks time) := by
  cases t with
  | lit c => exact (nomatch ·)
  | value x =>
    obtain ⟨r, -, hrender, hneeds⟩ := exists_recipe hok
    rw [hrender]
    exact Recipe.render_ne_lacks ((hneeds time).symm.trans h) ctx
  | tooLong p => cases time <;> exact (nomatch ·)

theorem render_lacks (hok : t.Ok) (h : t.needs time = true) (ctx : SeekTimes) :
    t.render (ctx.without time) = .error (.lacks time) := by
  cases t with
  | lit c => cases h
  | value x =>
    obtain ⟨r, -, hrender, hneeds⟩ := exists_recipe hok
    rw [hrender]
    exact Recipe.render_lacks ((hneeds time).symm.trans h) ctx
  | tooLong p => cases h

theorem render_without (hok : t.Ok) (h : t.needs time = false) (hvalue : t.render ctx = .ok out) :
    t.render (ctx.without time) = .ok out := by
  cases t with
  | lit c => exact hvalue
  | value x =>
    obtain ⟨r, -, hrender, hneeds⟩ := exists_recipe hok
    rw [hrender] at hvalue ⊢
    exact Recipe.render_without ((hneeds time).symm.trans h) hvalue
  | tooLong p => cases hvalue

end Token

/-! ### All placeholders -/

/-- A time that a placeholder needs, where rendering comes to it, is missed. -/
theorem renderTokens_lacks (hok : ∀ s ∈ ts, s.Ok) (h : Reaches ctx ts t) (hneeds : t.needs time = true) :
    renderTokens (ctx.without time) ts = .error (.lacks time) := by
  induction h with
  | head =>
    rw [renderTokens, Token.render_lacks (hok _ List.mem_cons_self) hneeds]
  | @tail s t ts value hs _ ih =>
    have hrest := ih (fun s hs => hok s (List.mem_cons_of_mem _ hs)) hneeds
    rw [renderTokens]
    cases hsneeds : s.needs time with
    | true => rw [Token.render_lacks (hok s List.mem_cons_self) hsneeds]
    | false =>
      rw [Token.render_without (hok s List.mem_cons_self) hsneeds hs, hrest]
      rfl

/-- Where no placeholder that rendering comes to needs the time, the time does not matter. -/
theorem renderTokens_set (hok : ∀ s ∈ ts, s.Ok) (h : ∀ t, Reaches ctx ts t → t.needs time = false)
    (value : Option Int) :
    renderTokens (ctx.set value time) ts = renderTokens ctx ts ∧ renderTokens ctx ts ≠ .error (.lacks time) := by
  induction ts with
  | nil => exact ⟨rfl, (nomatch ·)⟩
  | cons s ts ih =>
    have hsok := hok s List.mem_cons_self
    have hs := h s .head
    rw [renderTokens, renderTokens, Token.render_set hsok hs]
    cases hrender : s.render ctx with
    | error e =>
      refine ⟨rfl, fun heq => Token.render_ne_lacks hsok hs ctx ?_⟩
      rw [hrender]
      exact congrArg Except.error (Except.error.inj heq)
    | ok v =>
      obtain ⟨heq, hne⟩ := ih (fun s hs => hok s (List.mem_cons_of_mem _ hs)) fun t ht => h t (.tail hrender ht)
      rw [heq]
      refine ⟨rfl, fun hmap => hne ?_⟩
      cases hts : renderTokens ctx ts with
      | error e =>
        rw [hts] at hmap
        exact congrArg Except.error (Except.error.inj hmap)
      | ok w =>
        rw [hts] at hmap
        cases hmap

end

theorem tokens_ok (url : List UInt8) : ∀ t ∈ tokens url, t.Ok := tokensLoop_ok

/-- Rendering comes to the token at some times. -/
def Reached (url : List UInt8) (t : Token) : Prop := ∃ ctx, Reaches ctx (tokens url) t

theorem rendersWithout_iff (url : List UInt8) (time : SeekTime) :
    RendersWithout url time ↔ ∀ t, Reached url t → t.needs time = false := by
  constructor
  · rintro ⟨-, hne⟩ t ⟨ctx, ht⟩
    cases hneeds : t.needs time with
    | false => rfl
    | true =>
      refine absurd ?_ (hne (ctx.without time))
      rw [renderTemplateUrl_eq]
      exact renderTokens_lacks (tokens_ok url) ht hneeds
  · intro h
    have hset := fun ctx value => renderTokens_set (tokens_ok url) (fun t ht => h t ⟨ctx, ht⟩) value
    constructor
    · intro ctx value
      rw [renderTemplateUrl_eq, renderTemplateUrl_eq]
      exact (hset ctx value).1
    · intro ctx
      rw [renderTemplateUrl_eq]
      exact (hset ctx none).2

/-! ### Values have no closing brace -/

section
variable {p output out keyword fmt : List UInt8} {t : Tm} {useShort : Bool} {size fuel : Nat}

theorem closeBrace_not_mem_decimal (n : Nat) : closeBrace ∉ decimal n :=
  fun h => absurd (mem_decimal h) (by decide)

theorem closeBrace_not_mem_printInt (n : Int) : closeBrace ∉ printInt n := by
  unfold printInt
  rw [List.mem_append]
  rintro (h | h)
  · split at h
    · exact absurd (List.mem_singleton.1 h) (by decide)
    · cases h
  · exact closeBrace_not_mem_decimal _ h

theorem closeBrace_not_mem_printPadded (width : Nat) (n : Int) : closeBrace ∉ printPadded width n := by
  unfold printPadded
  dsimp only
  rw [List.mem_append, List.mem_append]
  rintro ((h | h) | h)
  · split at h
    · exact absurd (List.mem_singleton.1 h) (by decide)
    · cases h
  · exact absurd (List.eq_of_mem_replicate h) (by decide)
  · exact closeBrace_not_mem_decimal _ h

theorem closeBrace_not_mem_printValue {n : Int} (h : printValue n = some out) : closeBrace ∉ out := by
  unfold printValue at h
  split at h
  · cases h
  · cases h
    exact closeBrace_not_mem_printInt n

theorem closeBrace_not_mem_iso8601 (h : timezoneFormatTimeIso8601 t 0 (str "Z") innerSize = some out) :
    closeBrace ∉ out := by
  have hstr : closeBrace ∉ str "-" ∧ closeBrace ∉ str "T" ∧ closeBrace ∉ str ":" ∧ closeBrace ∉ str "." ∧
      closeBrace ∉ str "Z" := by decide
  obtain ⟨hdash, hT, hcolon, hdot, hZ⟩ := hstr
  have hnot : ¬ (innerSize < 30 ∨ (0 : Int) < -1 ∨ (0 : Int) > 999) := by decide
  unfold timezoneFormatTimeIso8601 at h
  rw [if_neg hnot, if_pos (le_refl (0 : Int))] at h
  dsimp only at h
  split at h
  · cases h
  · cases h
    simp only [List.mem_append, closeBrace_not_mem_printPadded, hdash, hT, hcolon, hdot, hZ, or_self,
      not_false_eq_true]

theorem exists_drop_of_matchComponent {i : Nat} {rest : List UInt8} (h : matchComponent useShort p = some (i, rest)) :
    ∃ n, rest = p.drop n := by
  obtain ⟨⟨name, j⟩, -, hmatch⟩ := List.exists_of_findSome?_eq_some h
  dsimp only at hmatch
  split at hmatch
  · cases hmatch
    exact ⟨_, rfl⟩
  · cases hmatch

/-- A pattern without a closing brace makes a text without one. -/
theorem closeBrace_not_mem_formatTimeLoop (hp : closeBrace ∉ p) (houtput : closeBrace ∉ output)
    (h : formatTimeLoop t useShort size fuel p output = some out) : closeBrace ∉ out := by
  induction fuel generalizing p output with
  | zero =>
    cases h
    exact houtput
  | succ fuel ih =>
    rcases p with _ | ⟨c, p⟩
    · cases h
      exact houtput
    · rw [formatTimeLoop] at h
      by_cases hfull : output.length ≥ size - 1
      · rw [if_pos hfull] at h
        cases h
        exact houtput
      · rw [if_neg hfull] at h
        cases hmatch : matchComponent useShort (c :: p) with
        | some m =>
          obtain ⟨i, rest⟩ := m
          obtain ⟨n, rfl⟩ := exists_drop_of_matchComponent hmatch
          rw [hmatch] at h
          dsimp only at h
          split at h
          · cases h
          · refine ih (fun hmem => hp (List.mem_of_mem_drop hmem)) ?_ h
            rw [List.mem_append]
            exact not_or_intro houtput (closeBrace_not_mem_printPadded _ _)
        | none =>
          rw [hmatch] at h
          rw [List.mem_cons, not_or] at hp
          refine ih hp.2 ?_ h
          rw [List.mem_append, List.mem_singleton]
          exact not_or_intro houtput hp.1

theorem closeBrace_not_mem_formatTimeByPattern (hfmt : closeBrace ∉ fmt)
    (h : formatTimeByPattern t fmt useShort size = some out) : closeBrace ∉ out := by
  unfold formatTimeByPattern at h
  cases hloop : formatTimeLoop t useShort size (fmt.length + 1) fmt [] with
  | none =>
    rw [hloop] at h
    cases h
  | some output =>
    rw [hloop] at h
    dsimp only at h
    split at h
    · cases h
    · cases h
      exact closeBrace_not_mem_formatTimeLoop hfmt List.not_mem_nil hloop

theorem closeBrace_not_mem_beValue {tzOffsetSeconds epoch : Int} (hfmt : closeBrace ∉ fmt)
    (h : beValue fmt useShort tzOffsetSeconds epoch = some out) : closeBrace ∉ out := by
  unfold beValue at h
  split at h
  · exact closeBrace_not_mem_iso8601 h
  · split at h
    · exact closeBrace_not_mem_printValue h
    · split at h
      · exact closeBrace_not_mem_formatTimeByPattern (fun hmem => hfmt (List.mem_of_mem_take hmem)) h
      · exact closeBrace_not_mem_formatTimeByPattern hfmt h

/-- The values that the recipe makes have no closing brace. -/
def Recipe.Plain (r : Recipe) : Prop := ∀ ctx out, r.render ctx = .ok out → closeBrace ∉ out

theorem Recipe.Plain.ofBegin {f : Int → Int → Int → Option (List UInt8)}
    (h : ∀ nowUtc tz epoch out, f nowUtc tz epoch = some out → closeBrace ∉ out) : (Recipe.ofBegin f).Plain := by
  intro ctx out hout
  unfold Recipe.render at hout
  cases hbegin : ctx.beginUtc with
  | none =>
    rw [hbegin] at hout
    cases hout
  | some epoch =>
    rw [hbegin] at hout
    exact h _ _ _ _ (fitsValue_eq_ok.1 hout)

theorem Recipe.Plain.ofEnd {f : Int → Int → Int → Option (List UInt8)}
    (h : ∀ nowUtc tz epoch out, f nowUtc tz epoch = some out → closeBrace ∉ out) : (Recipe.ofEnd f).Plain := by
  intro ctx out hout
  unfold Recipe.render at hout
  cases hend : ctx.endUtc with
  | none =>
    rw [hend] at hout
    cases hout
  | some epoch =>
    rw [hend] at hout
    exact h _ _ _ _ (fitsValue_eq_ok.1 hout)

theorem Recipe.Plain.ofNow {f : Int → Option (List UInt8)} (h : ∀ nowUtc out, f nowUtc = some out → closeBrace ∉ out) :
    (Recipe.ofNow f).Plain :=
  fun _ _ hout => h _ _ (fitsValue_eq_ok.1 hout)

theorem formatRecipe_plain {r : Recipe} (hfmt : closeBrace ∉ fmt) (h : formatRecipe keyword fmt useShort = some r) :
    r.Plain := by
  unfold formatRecipe at h
  dsimp only at h
  split at h
  · cases h
    exact .ofBegin fun _ _ _ _ => closeBrace_not_mem_formatTimeByPattern hfmt
  · split at h
    · cases h
      exact .ofEnd fun _ _ _ _ => closeBrace_not_mem_formatTimeByPattern hfmt
    · split at h
      · cases h
        exact .ofNow fun _ _ => closeBrace_not_mem_formatTimeByPattern hfmt
      · cases h

theorem keywordRecipe_plain {r : Recipe} (h : keywordRecipe keyword useShort = some r) : r.Plain := by
  unfold keywordRecipe at h
  dsimp only at h
  split at h
  · cases h
    exact .ofBegin fun _ _ _ _ => closeBrace_not_mem_iso8601
  · split at h
    · cases h
      exact .ofEnd fun _ _ _ _ => closeBrace_not_mem_iso8601
    · split at h
      · cases h
        exact .ofNow fun _ _ => closeBrace_not_mem_iso8601
      · split at h
        · cases h
          exact .ofNow fun _ _ => closeBrace_not_mem_printValue
        · split at h
          · cases h
            intro ctx out hout
            unfold Recipe.render at hout
            cases hbegin : ctx.beginUtc <;> cases hend : ctx.endUtc <;> rw [hbegin, hend] at hout
            · cases hout
            · cases hout
            · cases hout
            · exact closeBrace_not_mem_printValue (fitsValue_eq_ok.1 hout)
          · split at h
            · cases h
              exact .ofBegin fun _ _ _ _ => closeBrace_not_mem_printValue
            · obtain ⟨i, -, rfl⟩ := Option.map_eq_some_iff.1 h
              refine .ofBegin fun _ _ _ out hout => ?_
              split at hout
              · cases hout
              · cases hout
                exact closeBrace_not_mem_printPadded _ _

theorem recipeOf_plain {x : Placeholder} {r : Recipe} (hx : closeBrace ∉ x.inner) (h : recipeOf x = some r) :
    r.Plain := by
  have hdrop : closeBrace ∉ x.inner.drop 3 := fun hmem => hx (List.mem_of_mem_drop hmem)
  unfold recipeOf at h
  cases hbe : beginEnd x.inner with
  | some isBegin =>
    rw [hbe] at h
    cases isBegin with
    | true =>
      cases h
      exact .ofBegin fun _ _ _ _ => closeBrace_not_mem_beValue hdrop
    | false =>
      cases h
      exact .ofEnd fun _ _ _ _ => closeBrace_not_mem_beValue hdrop
  | none =>
    rw [hbe] at h
    dsimp only at h
    split at h
    · refine formatRecipe_plain (fun hmem => hx ?_) h
      exact (List.dropWhile_suffix _).subset (List.mem_of_mem_tail hmem)
    · exact keywordRecipe_plain h

end

/-! ### What is left as it is -/

section
variable {ctx : SeekTimes} {ts : List Token} {out : List UInt8}

/-- A value takes the closing brace of its placeholder away. -/
theorem Token.count_render {t : Token} (hok : t.Ok) (h : t.render ctx = .ok out) :
    out.count closeBrace + (if t.isLit then 0 else 1) = t.source.count closeBrace := by
  cases t with
  | lit c =>
    cases h
    rfl
  | value x =>
    obtain ⟨r, hr, hrender, -⟩ := exists_recipe hok
    rw [hrender] at h
    have hout : out.count closeBrace = 0 := List.count_eq_zero.2 (recipeOf_plain hok.2 hr ctx out h)
    have hinner : x.inner.count closeBrace = 0 := List.count_eq_zero.2 hok.2
    have hopen : (if x.isShortSyntax then [openBrace] else [dollar, openBrace]).count closeBrace = 0 := by
      cases x.isShortSyntax <;> decide
    rw [source, Placeholder.text, List.count_append, List.count_append, hopen, hinner, hout, List.count_singleton_self]
    rfl
  | tooLong p => cases h

theorem count_renderTokens (hok : ∀ t ∈ ts, t.Ok) (h : renderTokens ctx ts = .ok out) :
    out.count closeBrace + ts.countP (fun t => ¬ t.isLit) = (ts.flatMap Token.source).count closeBrace := by
  induction ts generalizing out with
  | nil =>
    cases h
    rfl
  | cons t ts ih =>
    rw [renderTokens] at h
    cases ht : t.render ctx with
    | error e =>
      rw [ht] at h
      cases h
    | ok value =>
      rw [ht] at h
      cases hts : renderTokens ctx ts with
      | error e =>
        rw [hts] at h
        cases h
      | ok rest =>
        rw [hts] at h
        cases h
        have hhead := Token.count_render (hok t List.mem_cons_self) ht
        have htail := ih (fun t ht => hok t (List.mem_cons_of_mem _ ht)) hts
        rw [List.flatMap_cons, List.count_append, List.count_append, ← hhead, ← htail, List.countP_cons]
        cases t.isLit <;> simp <;> omega

theorem renderTokens_lits (h : ∀ t ∈ ts, t.isLit = true) (ctx : SeekTimes) :
    renderTokens ctx ts = .ok (ts.flatMap Token.source) := by
  induction ts with
  | nil => rfl
  | cons t ts ih =>
    have hts := ih fun t ht => h t (List.mem_cons_of_mem _ ht)
    cases t with
    | lit c =>
      rw [renderTokens, hts]
      rfl
    | value x => cases h _ List.mem_cons_self
    | tooLong p => cases h _ List.mem_cons_self

end

theorem tokens_source (url : List UInt8) : (tokens url).flatMap Token.source = url :=
  tokensLoop_source (Nat.lt_succ_self _)

theorem unchanged_iff (url : List UInt8) : Unchanged url ↔ ∀ t ∈ tokens url, t.isLit = true := by
  constructor
  · intro h
    have hrender := h ⟨0, 0, none, none⟩
    rw [renderTemplateUrl_eq] at hrender
    have hcount := count_renderTokens (tokens_ok url) hrender
    rw [tokens_source] at hcount
    have hzero : (tokens url).countP (fun t => ¬ t.isLit) = 0 := by omega
    intro t ht
    simpa using List.countP_eq_zero.1 hzero t ht
  · intro h ctx
    rw [renderTemplateUrl_eq, renderTokens_lits h, tokens_source]

end Rtp2httpd
