import DOpenWrt.Rtp2httpd.UrlTemplateRender

/-!
# What the placeholders of a URL need

The analysis counts the placeholders of the path and of the parameter values, by one table; rendering replaces the
placeholders it comes to, by another. Both are put as lists of placeholders, and what rendering needs is read off the
list.
-/

namespace Rtp2httpd
open CString

/-! ### Closing braces -/

section
variable {s inner after : List UInt8}

theorem splitClosing_append (h : closeBrace ∉ inner) (after : List UInt8) :
    splitClosing (inner ++ closeBrace :: after) = some (inner, after) := by
  unfold splitClosing
  rw [dropWhile_sep h, takeWhile_sep h]

theorem splitClosing_eq_some : splitClosing s = some (inner, after) ↔
    s = inner ++ closeBrace :: after ∧ closeBrace ∉ inner := by
  constructor
  · intro h
    rcases sep_cases closeBrace s with hno | ⟨a, rest, rfl, ha⟩
    · rw [splitClosing, dropWhile_no_sep hno] at h
      cases h
    · rw [splitClosing_append ha] at h
      cases h
      exact ⟨rfl, ha⟩
  · rintro ⟨rfl, h⟩
    exact splitClosing_append h after

theorem splitClosing_eq_none : splitClosing s = none ↔ closeBrace ∉ s := by
  constructor
  · intro h hmem
    obtain ⟨a, rest, rfl, ha⟩ := List.eq_append_cons_of_mem hmem
    rw [splitClosing_append ha] at h
    cases h
  · intro h
    rw [splitClosing, dropWhile_no_sep h]

/-- The three characters of `(b)` are none of the brace. -/
theorem beginEnd_append (h : closeBrace ∉ inner) (after : List UInt8) :
    beginEnd (inner ++ closeBrace :: after) = beginEnd inner := by
  rcases inner with _ | ⟨a, _ | ⟨b, _ | ⟨c, inner⟩⟩⟩
  · rcases after with _ | ⟨x, _ | ⟨y, after⟩⟩
    · rfl
    · rfl
    · rw [List.nil_append, beginEnd, if_neg fun hc => absurd hc.1 (by decide)]
      rfl
  · rcases after with _ | ⟨x, after⟩
    · rfl
    · exact if_neg fun hc => absurd hc.2.2 (by decide)
  · exact if_neg fun hc => absurd hc.2.1 (by decide)
  · rfl

theorem length_of_beginEnd {b : Bool} (h : beginEnd inner = some b) : 3 ≤ inner.length := by
  rcases inner with _ | ⟨a, _ | ⟨b, _ | ⟨c, inner⟩⟩⟩
  · cases h
  · cases h
  · cases h
  · simp

end

/-! ### What rendering makes of a placeholder -/

/-- The value of a placeholder: which times it is made of, and how. The functions get the time of rendering and the
zone first. -/
inductive Recipe where
  | ofBegin (f : Int → Int → Int → Option (List UInt8))
  | ofEnd (f : Int → Int → Int → Option (List UInt8))
  | ofBoth (f : Int → Int → Option (List UInt8))
  | ofNow (f : Int → Option (List UInt8))

def Recipe.render (ctx : SeekTimes) : Recipe → Except RenderError (List UInt8)
  | .ofBegin f =>
    match ctx.beginUtc with
    | none => .error .noBegin
    | some beginUtc => fitsValue (f ctx.nowUtc ctx.tzOffsetSeconds beginUtc)
  | .ofEnd f =>
    match ctx.endUtc with
    | none => .error .noEnd
    | some endUtc => fitsValue (f ctx.nowUtc ctx.tzOffsetSeconds endUtc)
  | .ofBoth f =>
    match ctx.beginUtc, ctx.endUtc with
    | none, _ => .error .noBegin
    | some _, none => .error .noEnd
    | some beginUtc, some endUtc => fitsValue (f beginUtc endUtc)
  | .ofNow f => fitsValue (f ctx.nowUtc)

/-- One of the two times of a seek. -/
inductive SeekTime where
  | beginning | ending
deriving DecidableEq, Repr

def SeekTimes.set (ctx : SeekTimes) (value : Option Int) : SeekTime → SeekTimes
  | .beginning => { ctx with beginUtc := value }
  | .ending => { ctx with endUtc := value }

/-- The failure for lack of the time. -/
def RenderError.lacks : SeekTime → RenderError
  | .beginning => .noBegin
  | .ending => .noEnd

def TemplateFlags.needs (flags : TemplateFlags) : SeekTime → Bool
  | .beginning => flags.needsBegin
  | .ending => flags.needsEnd

def Recipe.needs : Recipe → SeekTime → Bool
  | .ofBegin _, .beginning => true
  | .ofBegin _, .ending => false
  | .ofEnd _, .beginning => false
  | .ofEnd _, .ending => true
  | .ofBoth _, _ => true
  | .ofNow _, _ => false

/-- A time in the format behind `(b)` or `(e)`. -/
def beValue (fmt : List UInt8) (useShort : Bool) (tzOffsetSeconds epoch : Int) : Option (List UInt8) :=
  if fmt = [] then timezoneFormatTimeIso8601 (gmtime epoch) 0 (str "Z") innerSize
  else if fmt = str "timestamp" then printValue epoch
  else if 4 ≤ fmt.length ∧ fmt.drop (fmt.length - 4) = str "|UTC" then
    formatTimeByPattern (gmtime epoch) (fmt.take (fmt.length - 4)) useShort innerSize
  else formatTimeByPattern (gmtime (epoch + tzOffsetSeconds)) fmt useShort innerSize

/-- A keyword with a format. -/
def formatRecipe (keyword fmt : List UInt8) (useShort : Bool) : Option Recipe :=
  let format := fun timestamp => formatTimeByPattern (gmtime timestamp) fmt useShort innerSize
  if keyword = str "utc" ∨ keyword = str "start" then some (.ofBegin fun _ _ => format)
  else if keyword = str "utcend" ∨ keyword = str "end" then some (.ofEnd fun _ _ => format)
  else if keyword = str "lutc" ∨ keyword = str "now" ∨ keyword = str "timestamp" then some (.ofNow format)
  else none

/-- A keyword alone. -/
def keywordRecipe (keyword : List UInt8) (useShort : Bool) : Option Recipe :=
  let iso := fun timestamp => timezoneFormatTimeIso8601 (gmtime timestamp) 0 (str "Z") innerSize
  if keyword = str "utc" ∨ keyword = str "start" then some (.ofBegin fun _ _ => iso)
  else if keyword = str "utcend" ∨ keyword = str "end" then some (.ofEnd fun _ _ => iso)
  else if keyword = str "lutc" ∨ keyword = str "now" then some (.ofNow iso)
  else if keyword = str "timestamp" then some (.ofNow printValue)
  else if keyword = str "duration" then some (.ofBoth fun beginUtc endUtc => printValue (endUtc - beginUtc))
  else if keyword = str "offset" then some (.ofBegin fun nowUtc _ beginUtc => printValue (nowUtc - beginUtc))
  else ((componentNames useShort).findIdx? (· = keyword)).map fun i => .ofBegin fun _ _ beginUtc =>
    let value := printComponent (gmtime beginUtc) i
    if value.length ≥ innerSize then none else some value

/-- How rendering makes the value of a placeholder; none for one that it leaves. -/
def recipeOf (x : Placeholder) : Option Recipe :=
  match beginEnd x.inner with
  | some true => some (.ofBegin fun _ => beValue (x.inner.drop 3) x.isShortSyntax)
  | some false => some (.ofEnd fun _ => beValue (x.inner.drop 3) x.isShortSyntax)
  | none =>
    if colon ∈ x.inner then
      formatRecipe (x.inner.takeWhile (· ≠ colon)) (x.inner.dropWhile (· ≠ colon)).tail x.isShortSyntax
    else keywordRecipe x.inner x.isShortSyntax

/-- The placeholder does not fit the buffer rendering copies it to. -/
def IsTooLong (inner : List UInt8) : Prop :=
  innerSize ≤ (if (beginEnd inner).isSome then inner.length - 3 else inner.length)

instance IsTooLong.decidable (inner : List UInt8) : Decidable (IsTooLong inner) := inferInstanceAs (Decidable (_ ≤ _))

theorem withBegin_eq (ctx : SeekTimes) (f : Int → Int → Int → Option (List UInt8)) :
    withBegin ctx (f ctx.nowUtc ctx.tzOffsetSeconds) = ((Recipe.ofBegin f).render ctx).map some := by
  unfold withBegin Recipe.render
  cases ctx.beginUtc <;> rfl

theorem withEnd_eq (ctx : SeekTimes) (f : Int → Int → Int → Option (List UInt8)) :
    withEnd ctx (f ctx.nowUtc ctx.tzOffsetSeconds) = ((Recipe.ofEnd f).render ctx).map some := by
  unfold withEnd Recipe.render
  cases ctx.endUtc <;> rfl

/-- `render_keyword` follows the recipes. -/
theorem renderKeyword_eq (inner : List UInt8) (useShort : Bool) (ctx : SeekTimes) :
    renderKeyword inner useShort ctx =
      match (if colon ∈ inner then
          formatRecipe (inner.takeWhile (· ≠ colon)) (inner.dropWhile (· ≠ colon)).tail useShort
        else keywordRecipe inner useShort) with
      | none => .ok none
      | some r => (r.render ctx).map some := by
  unfold renderKeyword
  dsimp only
  split
  · unfold formatRecipe
    dsimp only
    split
    · exact withBegin_eq ctx fun _ _ => _
    · split
      · exact withEnd_eq ctx fun _ _ => _
      · split <;> rfl
  · unfold keywordRecipe
    dsimp only
    split
    · exact withBegin_eq ctx fun _ _ => _
    · split
      · exact withEnd_eq ctx fun _ _ => _
      · split
        · rfl
        · split
          · rfl
          · split
            · unfold Recipe.render withEnd
              cases ctx.beginUtc <;> cases ctx.endUtc <;> rfl
            · split
              · exact withBegin_eq ctx fun nowUtc _ beginUtc => printValue (nowUtc - beginUtc)
              · cases (componentNames useShort).findIdx? (· = inner) with
                | none => rfl
                | some i => exact withBegin_eq ctx fun _ _ => _

theorem renderBeFormat_eq (fmt : List UInt8) (isBegin useShort : Bool) (ctx : SeekTimes) :
    renderBeFormat fmt isBegin useShort ctx =
      (if isBegin then Recipe.ofBegin fun _ => beValue fmt useShort else .ofEnd fun _ => beValue fmt useShort).render
        ctx := by
  unfold renderBeFormat
  have hvalue : ∀ epoch, (if fmt = [] then fitsValue (timezoneFormatTimeIso8601 (gmtime epoch) 0 (str "Z") innerSize)
      else if fmt = str "timestamp" then fitsValue (printValue epoch)
      else if 4 ≤ fmt.length ∧ fmt.drop (fmt.length - 4) = str "|UTC" then
        fitsValue (formatTimeByPattern (gmtime epoch) (fmt.take (fmt.length - 4)) useShort innerSize)
      else fitsValue (formatTimeByPattern (gmtime (epoch + ctx.tzOffsetSeconds)) fmt useShort innerSize)) =
      fitsValue (beValue fmt useShort ctx.tzOffsetSeconds epoch) := by
    intro epoch
    unfold beValue
    split_ifs <;> rfl
  simp only [hvalue]
  cases isBegin with
  | true =>
    unfold Recipe.render
    cases ctx.beginUtc <;> rfl
  | false =>
    unfold Recipe.render
    cases ctx.endUtc <;> rfl

/-- What `render_placeholder` does where the brace is closed. -/
theorem renderPlaceholder_eq {innerStart inner after : List UInt8} (h : splitClosing innerStart = some (inner, after))
    (useShort : Bool) (ctx : SeekTimes) :
    renderPlaceholder innerStart useShort ctx =
      if IsTooLong inner then .error .tooLong
      else match recipeOf ⟨useShort, inner⟩ with
        | none => .ok none
        | some r => (r.render ctx).map fun value => some (value, after) := by
  obtain ⟨rfl, hclose⟩ := splitClosing_eq_some.1 h
  unfold renderPlaceholder IsTooLong recipeOf
  rw [beginEnd_append hclose, h]
  rcases Option.eq_none_or_eq_some (beginEnd inner) with hbe | ⟨isBegin, hbe⟩
  · simp only [hbe, renderKeyword_eq]
    rw [Option.isSome_none, if_neg Bool.false_ne_true]
    refine if_congr Iff.rfl rfl ?_
    cases (if colon ∈ inner then
        formatRecipe (inner.takeWhile (· ≠ colon)) (inner.dropWhile (· ≠ colon)).tail useShort
      else keywordRecipe inner useShort) with
    | none => rfl
    | some r =>
      dsimp only
      cases r.render ctx <;> rfl
  · have hlen := length_of_beginEnd hbe
    have hdrop : (inner ++ closeBrace :: after).drop 3 = inner.drop 3 ++ closeBrace :: after :=
      List.drop_append_of_le_length hlen
    have hnot : closeBrace ∉ inner.drop 3 := fun hmem => hclose (List.mem_of_mem_drop hmem)
    simp only [hbe, hdrop, splitClosing_append hnot, renderBeFormat_eq, List.length_drop]
    cases isBegin <;> rfl

theorem renderPlaceholder_open {innerStart : List UInt8} (h : splitClosing innerStart = none) (useShort : Bool)
    (ctx : SeekTimes) : renderPlaceholder innerStart useShort ctx = .ok none := by
  have hdrop : splitClosing (innerStart.drop 3) = none :=
    splitClosing_eq_none.2 fun hmem => splitClosing_eq_none.1 h (List.mem_of_mem_drop hmem)
  unfold renderPlaceholder
  rw [h, hdrop]
  cases beginEnd innerStart <;> rfl

/-! ### The two tables -/

/-- The keywords that rendering knows with a format. -/
def formatKeywords : List (List UInt8) :=
  [str "utc", str "start", str "utcend", str "end", str "lutc", str "now", str "timestamp"]

/-- A keyword that the analysis knows and rendering leaves as it is: it is followed by a format that it does not
take, or is the long name of a component in the short syntax. -/
def Misread (x : Placeholder) : Prop :=
  beginEnd x.inner = none ∧
    if colon ∈ x.inner then x.inner.takeWhile (· ≠ colon) ∉ formatKeywords
    else x.isShortSyntax = true ∧ x.inner ∈ longNames

instance Misread.decidable (x : Placeholder) : Decidable (Misread x) := inferInstanceAs (Decidable (_ ∧ _))

/-- The recipe makes the value of a placeholder with these flags. -/
structure Recipe.Follows (r : Recipe) (flags : TemplateFlags) : Prop where
  hasTemplate : flags.hasTemplate = true
  needs : ∀ time, flags.needs time = r.needs time

section
variable {x : Placeholder} {keyword fmt : List UInt8} {useShort : Bool} {r : Recipe} {flags : TemplateFlags}

theorem Recipe.Follows.of_flags (h : flags.hasTemplate = true) (hbegin : flags.needsBegin = r.needs .beginning)
    (hend : flags.needsEnd = r.needs .ending) : r.Follows flags := by
  refine ⟨h, fun time => ?_⟩
  cases time with
  | beginning => exact hbegin
  | ending => exact hend

theorem keywordFlags_long (h : keyword ∈ longNames) (useShort : Bool) :
    keywordFlags useShort keyword = { hasTemplate := true, hasBegin := true, needsBegin := true } :=
  if_pos (.inr (.inr (List.contains_iff_mem.2 h)))

theorem keywordFlags_short (h : keyword ∈ shortNames) :
    keywordFlags true keyword = { hasTemplate := true, hasBegin := true, needsBegin := true } := by
  revert keyword
  decide

theorem keywordFlags_component (h : keyword ∈ componentNames useShort) :
    keywordFlags useShort keyword = { hasTemplate := true, hasBegin := true, needsBegin := true } := by
  cases useShort with
  | true => exact keywordFlags_short h
  | false => exact keywordFlags_long h false

/-- Every keyword that has a recipe with a format is known to the analysis. -/
theorem formatRecipe_follows (h : formatRecipe keyword fmt useShort = some r) :
    keyword ∈ formatKeywords ∧ r.Follows (keywordFlags useShort keyword) := by
  unfold formatRecipe at h
  dsimp only at h
  split at h
  · next hk =>
    cases h
    rcases hk with rfl | rfl <;> cases useShort <;> exact ⟨by decide, .of_flags rfl rfl rfl⟩
  · split at h
    · next hk =>
      cases h
      rcases hk with rfl | rfl <;> cases useShort <;> exact ⟨by decide, .of_flags rfl rfl rfl⟩
    · split at h
      · next hk =>
        cases h
        rcases hk with rfl | rfl | rfl <;> cases useShort <;> exact ⟨by decide, .of_flags rfl rfl rfl⟩
      · cases h

theorem formatRecipe_eq_none (h : formatRecipe keyword fmt useShort = none) : keyword ∉ formatKeywords := by
  rintro hmem
  unfold formatRecipe at h
  dsimp only at h
  split at h
  · cases h
  · next h₁ =>
    split at h
    · cases h
    · next h₂ =>
      split at h
      · cases h
      · next h₃ =>
        simp only [formatKeywords, List.mem_cons, List.not_mem_nil, or_false] at hmem
        tauto

/-- Every keyword that has a recipe alone is known to the analysis. -/
theorem keywordRecipe_follows (h : keywordRecipe keyword useShort = some r) :
    r.Follows (keywordFlags useShort keyword) := by
  unfold keywordRecipe at h
  dsimp only at h
  split at h
  · next hk =>
    cases h
    rcases hk with rfl | rfl <;> cases useShort <;> exact .of_flags rfl rfl rfl
  · split at h
    · next hk =>
      cases h
      rcases hk with rfl | rfl <;> cases useShort <;> exact .of_flags rfl rfl rfl
    · split at h
      · next hk =>
        cases h
        rcases hk with rfl | rfl <;> cases useShort <;> exact .of_flags rfl rfl rfl
      · split at h
        · next hk =>
          cases h
          subst hk
          cases useShort <;> exact .of_flags rfl rfl rfl
        · split at h
          · next hk =>
            cases h
            subst hk
            cases useShort <;> exact .of_flags rfl rfl rfl
          · split at h
            · next hk =>
              cases h
              subst hk
              cases useShort <;> exact .of_flags rfl rfl rfl
            · obtain ⟨i, hi, rfl⟩ := Option.map_eq_some_iff.1 h
              have hmem : keyword ∈ componentNames useShort := by
                obtain ⟨hlt, hp, -⟩ := List.findIdx?_eq_some_iff_getElem.1 hi
                exact of_decide_eq_true hp ▸ List.getElem_mem hlt
              rw [keywordFlags_component hmem]
              exact .of_flags rfl rfl rfl

/-- A keyword that has no recipe alone is unknown to the analysis, the long names in the short syntax apart. -/
theorem keywordRecipe_eq_none (h : keywordRecipe keyword useShort = none) :
    (keywordFlags useShort keyword).hasTemplate = false ∨ useShort = true ∧ keyword ∈ longNames := by
  unfold keywordRecipe at h
  dsimp only at h
  by_cases hbegin : keyword = str "utc" ∨ keyword = str "start"
  · rw [if_pos hbegin] at h
    cases h
  by_cases hend : keyword = str "utcend" ∨ keyword = str "end"
  · rw [if_neg hbegin, if_pos hend] at h
    cases h
  by_cases hnow : keyword = str "lutc" ∨ keyword = str "now"
  · rw [if_neg hbegin, if_neg hend, if_pos hnow] at h
    cases h
  by_cases htimestamp : keyword = str "timestamp"
  · rw [if_neg hbegin, if_neg hend, if_neg hnow, if_pos htimestamp] at h
    cases h
  by_cases hduration : keyword = str "duration"
  · rw [if_neg hbegin, if_neg hend, if_neg hnow, if_neg htimestamp, if_pos hduration] at h
    cases h
  by_cases hoffset : keyword = str "offset"
  · rw [if_neg hbegin, if_neg hend, if_neg hnow, if_neg htimestamp, if_neg hduration, if_pos hoffset] at h
    cases h
  rw [if_neg hbegin, if_neg hend, if_neg hnow, if_neg htimestamp, if_neg hduration, if_neg hoffset,
    Option.map_eq_none_iff, List.findIdx?_eq_none_iff] at h
  have hnames : keyword ∉ componentNames useShort := fun hmem => of_decide_eq_false (h keyword hmem) rfl
  by_cases hlong : keyword ∈ longNames
  · cases useShort with
    | true => exact .inr ⟨rfl, hlong⟩
    | false => exact absurd hlong hnames
  · refine .inl ?_
    have hshort : ¬ (useShort = true ∧ shortNames.contains keyword = true) := by
      rintro ⟨rfl, hmem⟩
      exact hnames (List.contains_iff_mem.1 hmem)
    have hfirst : ¬ (keyword = str "utc" ∨ keyword = str "start" ∨ longNames.contains keyword = true) :=
      fun hk => hk.elim (hbegin ∘ .inl) fun hk => hk.elim (hbegin ∘ .inr) (hlong ∘ List.contains_iff_mem.1)
    have hlast : ¬ (keyword = str "lutc" ∨ keyword = str "now" ∨ keyword = str "timestamp") :=
      fun hk => hk.elim (hnow ∘ .inl) fun hk => hk.elim (hnow ∘ .inr) htimestamp
    rw [keywordFlags, if_neg hfirst, if_neg hend, if_neg hduration, if_neg hoffset, if_neg hlast, if_neg hshort]

/-- A recipe follows the analysis. -/
theorem recipeOf_follows (h : recipeOf x = some r) : r.Follows (classifyTemplatePlaceholder x) ∧ ¬ Misread x := by
  unfold recipeOf at h
  unfold classifyTemplatePlaceholder Misread
  cases hbe : beginEnd x.inner with
  | some isBegin =>
    rw [hbe] at h
    cases isBegin <;> cases h <;> exact ⟨.of_flags rfl rfl rfl, fun hm => nomatch hm.1⟩
  | none =>
    rw [hbe] at h
    dsimp only at h ⊢
    split at h
    · next hcolon =>
      obtain ⟨hmem, hfollows⟩ := formatRecipe_follows h
      rw [if_pos hcolon]
      exact ⟨hfollows, fun hm => hm.2 hmem⟩
    · next hcolon =>
      rw [if_neg hcolon, takeWhile_no_sep hcolon]
      refine ⟨keywordRecipe_follows h, ?_⟩
      rintro ⟨-, hshort, hlong⟩
      rw [hshort] at h
      have hnone : ∀ keyword ∈ longNames, (keywordRecipe keyword true).isNone = true := by decide
      rw [Option.isNone_iff_eq_none.1 (hnone _ hlong)] at h
      cases h

/-- Rendering leaves what the analysis does not know, and what it misreads. -/
theorem recipeOf_eq_none (h : recipeOf x = none) :
    (classifyTemplatePlaceholder x).hasTemplate = false ∨ Misread x := by
  unfold recipeOf at h
  unfold classifyTemplatePlaceholder Misread
  cases hbe : beginEnd x.inner with
  | some isBegin =>
    rw [hbe] at h
    cases isBegin <;> cases h
  | none =>
    rw [hbe] at h
    dsimp only at h ⊢
    split at h
    · next hcolon =>
      rw [if_pos hcolon]
      exact .inr ⟨rfl, formatRecipe_eq_none h⟩
    · next hcolon =>
      rw [if_neg hcolon, takeWhile_no_sep hcolon]
      exact (keywordRecipe_eq_none h).imp_right fun hm => ⟨rfl, hm⟩

end

end Rtp2httpd
