import DOpenWrt.Rtp2httpd.UrlTemplatePlaces

/-!
# Analysis and rendering of a URL template

The flags of `url_template_analyze` are those of the placeholders that it counts: the ones in the path, and in the
values of the parameters. They tell what rendering does if both read a placeholder with the flag alike. Where they do
not, one side knows a placeholder that the other does not: a misread one, or one that is opened in another part of the
URL than it is closed in, stands inside another one, or is long.
-/

namespace Rtp2httpd
open CString

/-! ### The flags of the analysis -/

/-- What the analysis puts out of its placeholders. -/
inductive Flag where
  | hasTemplate | needsBegin | needsEnd
deriving DecidableEq, Repr

def TemplateFlags.get (flags : TemplateFlags) : Flag → Bool
  | .hasTemplate => flags.hasTemplate
  | .needsBegin => flags.needsBegin
  | .needsEnd => flags.needsEnd

def PathRequirements.get (r : PathRequirements) : Flag → Bool
  | .hasTemplate => r.hasTemplate
  | .needsBegin => r.needsBegin
  | .needsEnd => r.needsEnd

def QueryRequirements.get (r : QueryRequirements) : Flag → Bool
  | .hasTemplate => r.hasTemplate
  | .needsBegin => r.needsBegin
  | .needsEnd => r.needsEnd

def UrlTemplateAnalysis.get (a : UrlTemplateAnalysis) : Flag → Bool
  | .hasTemplate => a.hasTemplate
  | .needsBegin => a.needsBegin
  | .needsEnd => a.needsEnd

def anyFlag (xs : List Placeholder) (flag : Flag) : Bool := xs.any fun x => (classifyTemplatePlaceholder x).get flag

section
variable {url name value pos : List UInt8} {xs : List Placeholder} {flag : Flag}

@[simp] theorem anyFlag_nil : anyFlag [] flag = false := rfl

theorem anyFlag_cons (x : Placeholder) :
    anyFlag (x :: xs) flag = ((classifyTemplatePlaceholder x).get flag || anyFlag xs flag) := rfl

theorem anyFlag_append (ys : List Placeholder) : anyFlag (xs ++ ys) flag = (anyFlag xs flag || anyFlag ys flag) :=
  List.any_append

theorem get_or (a b : TemplateFlags) (flag : Flag) : (a.or b).get flag = (a.get flag || b.get flag) := by
  cases flag <;> rfl

theorem get_foldl_or (flags : TemplateFlags) :
    (xs.foldl (fun flags x => flags.or (classifyTemplatePlaceholder x)) flags).get flag =
      (flags.get flag || anyFlag xs flag) := by
  induction xs generalizing flags with
  | nil => exact (Bool.or_false _).symm
  | cons x xs ih => rw [List.foldl_cons, ih, get_or, anyFlag_cons, Bool.or_assoc]

theorem get_templateSubstringRequirements (input : List UInt8) (flag : Flag) :
    (templateSubstringRequirements input).get flag = anyFlag (placeholdersIn input) flag := by
  rw [templateSubstringRequirements, get_foldl_or]
  cases flag <;> rfl

/-! ### The path -/

theorem get_pathPlaceholder {r r' : PathRequirements} {x : Placeholder} (h : pathPlaceholder r x = some r')
    (flag : Flag) : r'.get flag = (r.get flag || (classifyTemplatePlaceholder x).get flag) := by
  unfold pathPlaceholder at h
  dsimp only at h
  split_ifs at h
  · obtain ⟨_, -, rfl⟩ := Option.map_eq_some_iff.1 h
    cases flag <;> rfl
  · obtain ⟨_, -, rfl⟩ := Option.map_eq_some_iff.1 h
    cases flag <;> rfl
  · cases h
    cases flag <;> rfl

theorem get_foldlM_pathPlaceholder {r r' : PathRequirements} (h : xs.foldlM pathPlaceholder r = some r')
    (flag : Flag) : r'.get flag = (r.get flag || anyFlag xs flag) := by
  induction xs generalizing r with
  | nil =>
    cases h
    exact (Bool.or_false _).symm
  | cons x xs ih =>
    rw [List.foldlM_cons] at h
    obtain ⟨r₁, h₁, h₂⟩ := Option.bind_eq_some_iff.1 h
    rw [ih h₂, get_pathPlaceholder h₁, anyFlag_cons, Bool.or_assoc]

theorem get_templatePathRequirements {r : PathRequirements} (h : templatePathRequirements url = some r)
    (flag : Flag) : r.get flag = anyFlag (placeholdersIn (url.takeWhile (· ≠ questionMark))) flag := by
  rw [get_foldlM_pathPlaceholder h]
  cases flag <;> rfl

/-! ### The query -/

theorem get_templateQueryParam {r r' : QueryRequirements} (h : templateQueryParam r name value = some r')
    (flag : Flag) : r'.get flag = (r.get flag || anyFlag (placeholdersIn value) flag) := by
  rw [← get_templateSubstringRequirements]
  unfold templateQueryParam at h
  obtain ⟨explicitSeekName, -, h⟩ := Option.bind_eq_some_iff.1 h
  dsimp only at h
  split at h
  · split at h
    · cases h
      cases flag <;> rfl
    · obtain ⟨beginTemplate, -, h⟩ := Option.bind_eq_some_iff.1 h
      obtain ⟨endTemplate, -, h⟩ := Option.bind_eq_some_iff.1 h
      split at h
      · split at h <;> cases h <;> cases flag <;> rfl
      · cases h
        cases flag <;> rfl
  · split at h
    · obtain ⟨beginTemplate, -, h⟩ := Option.bind_eq_some_iff.1 h
      cases h
      cases flag <;> rfl
    · split at h
      · obtain ⟨endTemplate, -, h⟩ := Option.bind_eq_some_iff.1 h
        cases h
        cases flag <;> rfl
      · cases h
        cases flag <;> rfl

/-- A parameter in the loop, with its flags added. -/
theorem get_queryParam {r r' : QueryRequirements} {param : List UInt8} (hsep : ampersand ∉ param)
    (h : (if equalSign ∉ param then some r
      else templateQueryParam r (param.takeWhile (· ≠ equalSign)) (param.dropWhile (· ≠ equalSign)).tail) = some r')
    (flag : Flag) : r'.get flag = (r.get flag || anyFlag ((valuesOf param).flatMap placeholdersIn) flag) := by
  unfold valuesOf
  rw [paramsOf_no_sep hsep]
  by_cases hmem : equalSign ∈ param
  · rw [if_neg (not_not_intro hmem)] at h
    have hfilter : [param].filter (equalSign ∈ ·) = [param] := List.filter_eq_self.2 (by simpa using hmem)
    rw [get_templateQueryParam h, hfilter, List.map_singleton, List.flatMap_singleton]
  · rw [if_pos hmem] at h
    cases h
    have hfilter : [param].filter (equalSign ∈ ·) = [] := List.filter_eq_nil_iff.2 (by simpa using hmem)
    rw [hfilter]
    exact (Bool.or_false _).symm

theorem get_templateQueryLoop {r r' : QueryRequirements} {fuel : Nat} (hfuel : pos.length < fuel)
    (h : templateQueryLoop fuel pos r = some r') (flag : Flag) :
    r'.get flag = (r.get flag || anyFlag ((valuesOf pos).flatMap placeholdersIn) flag) := by
  induction fuel generalizing pos r with
  | zero => exact absurd hfuel (Nat.not_lt_zero _)
  | succ fuel ih =>
    rw [templateQueryLoop] at h
    by_cases hnil : pos = []
    · rw [if_pos hnil] at h
      cases h
      subst hnil
      exact (Bool.or_false _).symm
    · rw [if_neg hnil] at h
      dsimp only at h
      rcases sep_cases ampersand pos with hno | ⟨param, rest, rfl, hsep⟩
      · rw [takeWhile_no_sep hno, dropWhile_no_sep hno] at h
        exact get_queryParam hno h flag
      · rw [takeWhile_sep hsep, dropWhile_sep hsep] at h
        obtain ⟨r₁, h₁, h₂⟩ := Option.bind_eq_some_iff.1 h
        have hlen : rest.length < fuel := by
          simp only [List.length_append, List.length_cons] at hfuel
          omega
        rw [ih hlen h₂, get_queryParam hsep h₁, valuesOf_cons param hsep, List.flatMap_append, anyFlag_append,
          Bool.or_assoc]

theorem get_templateQueryRequirements {r : QueryRequirements} (h : templateQueryRequirements url = some r)
    (flag : Flag) :
    r.get flag = anyFlag ((valuesOf (url.dropWhile (· ≠ questionMark)).tail).flatMap placeholdersIn) flag := by
  unfold templateQueryRequirements at h
  have hzero : ({} : QueryRequirements).get flag = false := by
    cases flag <;> rfl
  cases hquery : url.dropWhile (· ≠ questionMark) with
  | nil =>
    rw [hquery] at h
    cases h
    exact hzero
  | cons c query =>
    rw [hquery] at h
    rw [get_templateQueryLoop (Nat.lt_succ_self _) h, hzero]
    rfl

/-- The flags of the analysis are those of the placeholders that it counts. -/
theorem get_urlTemplateAnalyze {a : UrlTemplateAnalysis} (h : urlTemplateAnalyze url = some a) (flag : Flag) :
    a.get flag = anyFlag (countedPlaceholders url) flag := by
  obtain ⟨path, hpath, h⟩ := Option.bind_eq_some_iff.1 h
  obtain ⟨query, hquery, h⟩ := Option.bind_eq_some_iff.1 h
  obtain ⟨seekParamName, -, h⟩ := Option.bind_eq_some_iff.1 h
  rw [countedPlaceholders, anyFlag_append, ← get_templatePathRequirements hpath, ← get_templateQueryRequirements hquery]
  cases h
  cases flag <;> rfl

end

/-! ### Agreement -/

/-- What rendering does with a URL whose flag is not set. -/
def RendersIdle (url : List UInt8) : Flag → Prop
  | .hasTemplate => Unchanged url
  | .needsBegin => RendersWithout url .beginning
  | .needsEnd => RendersWithout url .ending

/-! ### Where the two differ -/

/-- The flag is set for the placeholder. -/
def Placeholder.Sets (x : Placeholder) (flag : Flag) : Prop := (classifyTemplatePlaceholder x).get flag = true

/-- The placeholder begins before the part of the URL that its brace stands in, or the brace stands in no part that the
analysis reads: it is in the name of a parameter, or reaches over the `?`, the `&` or the `=` before the part. -/
def Astray (left : List UInt8) (x : Placeholder) : Prop :=
  ∀ part, partAt left = some part → (behindLast closeBrace part).length ≤ x.inner.length

/-- The placeholder stands inside another one of the same part. -/
def Nested (left : List UInt8) (x : Placeholder) : Prop :=
  ∃ outer, FirstAt left outer ∧ x.inner.length < outer.inner.length

/-- What stands between the braces is too long for the analysis, if not for rendering. -/
def Long (x : Placeholder) : Prop := innerSize ≤ x.inner.length

/-- A placeholder that rendering takes asks for the flag: for `hasTemplate` every one does, for a time the ones that
need it, where they and everything before can be written at some times. -/
def Asks (left : List UInt8) (x : Placeholder) (flag : Flag) : Prop :=
  flag = .hasTemplate ∨ x.Sets flag ∧ ¬ IsTooLong x.inner ∧ ∃ ctx, WritableBefore ctx left

/-- A placeholder with the flag that is counted and taken. -/
def ReadAlike (url : List UInt8) (flag : Flag) : Prop :=
  ∃ left x, Closes url left ∧ CountedAt left x ∧ TakenAt left x ∧ Asks left x flag

/-- A placeholder with the flag that only the analysis knows: it is misread, or its brace ends one that rendering takes
and that begins before the part, or it stands behind something that can never be written. -/
def OnlyCounted (url : List UInt8) (flag : Flag) : Prop :=
  ∃ left x, Closes url left ∧ CountedAt left x ∧ x.Sets flag ∧
    (Misread x ∨ (∃ y, TakenAt left y ∧ Astray left y) ∨
      flag ≠ .hasTemplate ∧ ∀ ctx, ¬ WritableBefore ctx left)

/-- A placeholder with the flag that only rendering knows. -/
def OnlyTaken (url : List UInt8) (flag : Flag) : Prop :=
  ∃ left x, Closes url left ∧ TakenAt left x ∧ Asks left x flag ∧ (Astray left x ∨ Nested left x ∨ Long x)

/-- For every flag, some placeholder that has it is read alike, or the ones that only one side knows make up for each
other. -/
def Matched (url : List UInt8) : Prop :=
  ∀ flag, ReadAlike url flag ∨ (OnlyCounted url flag ↔ OnlyTaken url flag)

section
variable {url left part : List UInt8} {x y : Placeholder} {flag : Flag}

/-- The part ends in the text behind the brace before, which it begins behind a `=` if it begins there. -/
theorem behindLast_partAt (h : partAt left = some part) :
    behindLast closeBrace left = behindLast closeBrace part ∨
      ∃ l, behindLast closeBrace left = l ++ equalSign :: behindLast closeBrace part := by
  have hsuffix : left = part ∨ ∃ l, left = l ++ equalSign :: part := by
    unfold partAt at h
    split_ifs at h with hquery
    · obtain ⟨path, query, rfl, hpath⟩ := List.eq_append_cons_of_mem hquery
      rw [dropWhile_sep hpath, List.tail_cons, valueAt] at h
      split_ifs at h with hparam
      obtain ⟨name, value, hlast, hname⟩ := List.eq_append_cons_of_mem hparam
      have htail : ∃ l, query = l ++ behindLast ampersand query := ⟨_, List.rdropWhile_append_rtakeWhile.symm⟩
      obtain ⟨l, hl⟩ := htail
      rw [hlast, dropWhile_sep hname] at h
      cases h
      refine .inr ⟨path ++ questionMark :: (l ++ name), ?_⟩
      rw [hl, hlast]
      simp
    · exact .inl (Option.some.inj h)
  rcases hsuffix with rfl | ⟨l, rfl⟩
  · exact .inl rfl
  · by_cases hbrace : closeBrace ∈ part
    · obtain ⟨a, rest, rfl, -⟩ := List.eq_append_cons_of_mem hbrace
      have hassoc : l ++ equalSign :: (a ++ closeBrace :: rest) = (l ++ equalSign :: a) ++ closeBrace :: rest := by simp
      rw [hassoc, behindLast_sep, behindLast_sep]
      exact .inl rfl
    · have hnot : closeBrace ∉ equalSign :: part := List.not_mem_cons_of_ne_of_not_mem (by decide) hbrace
      rw [behindLast_append hnot, behindLast_no_sep hbrace]
      exact .inr ⟨_, rfl⟩

/-- What rendering takes is opened first of the known ones in the part, or is astray. -/
theorem takenAt_part (h : partAt left = some part) :
    (∀ x, TakenAt left x ↔ firstOpened Taken none (behindLast closeBrace part) = some x) ∨
      ∃ y, TakenAt left y ∧ Astray left y := by
  rcases behindLast_partAt h with heq | ⟨l, heq⟩
  · refine .inl fun x => ?_
    rw [TakenAt, heq]
  · rcases @firstOpened_append Taken _ none _ (show equalSign ≠ dollar by decide) l
      (behindLast closeBrace part) with hfirst | ⟨y, hy, hlen⟩
    · refine .inl fun x => ?_
      rw [TakenAt, heq, hfirst]
    · refine .inr ⟨y, (congrArg (firstOpened Taken none) heq).trans hy, fun part' hpart' => ?_⟩
      rw [h] at hpart'
      cases hpart'
      exact hlen

/-- What rendering takes is counted, or of one of the kinds that are not. -/
theorem TakenAt.cases (h : TakenAt left x) : CountedAt left x ∨ Astray left x ∨ Nested left x ∨ Long x := by
  by_cases hpart : ∃ part, partAt left = some part
  · obtain ⟨part, hpart⟩ := hpart
    rcases takenAt_part hpart with hfirst | ⟨y, hy, hastray⟩
    · obtain ⟨outer, houter, heq | hlt⟩ := firstOpened_first ((hfirst x).1 h)
      · subst heq
        rcases Nat.lt_or_ge outer.inner.length innerSize with hlen | hlen
        · exact .inl ⟨⟨part, hpart, houter⟩, hlen⟩
        · exact .inr (.inr (.inr hlen))
      · exact .inr (.inr (.inl ⟨outer, ⟨part, hpart, houter⟩, hlt⟩))
    · have hxy : y = x := Option.some.inj (hy.symm.trans h)
      exact .inr (.inl (hxy ▸ hastray))
  · exact .inr (.inl fun part h => absurd ⟨part, h⟩ hpart)

/-- What is counted and known is misread, taken, or hidden by one that is astray. -/
theorem CountedAt.cases (h : CountedAt left x) (hknown : (classifyTemplatePlaceholder x).hasTemplate = true) :
    Misread x ∨ TakenAt left x ∨ ∃ y, TakenAt left y ∧ Astray left y := by
  obtain ⟨⟨part, hpart, hfirst⟩, -⟩ := h
  by_cases hmis : Misread x
  · exact .inl hmis
  · have htaken : Taken x := .inr ⟨hknown, hmis⟩
    rcases takenAt_part hpart with htake | hastray
    · exact .inr (.inl ((htake x).2 (firstOpened_of_first hfirst htaken)))
    · exact .inr (.inr hastray)

theorem rendersWithout_iff_places {time : SeekTime} (hflag : flag ≠ .hasTemplate)
    (hsets : ∀ x, (classifyTemplatePlaceholder x).needs time = (classifyTemplatePlaceholder x).get flag) :
    RendersWithout url time ↔ ¬ ∃ left x, Closes url left ∧ TakenAt left x ∧ Asks left x flag := by
  rw [rendersWithout_iff]
  constructor
  · rintro h ⟨left, x, hleft, hx, hask⟩
    obtain ⟨hset, hfit, hbefore⟩ := hask.resolve_left hflag
    have hneeds := h (.value x) (reached_iff.2 ⟨left, hleft, hx, hfit, hbefore⟩)
    exact Bool.false_ne_true (hneeds.symm.trans ((hsets x).trans hset))
  · intro h t ht
    cases t with
    | lit c => rfl
    | tooLong p => rfl
    | value x =>
      obtain ⟨left, hleft, hx, hfit, hbefore⟩ := reached_iff.1 ht
      refine Bool.eq_false_iff.2 fun hneeds => h ⟨left, x, hleft, hx, .inr ⟨?_, hfit, hbefore⟩⟩
      exact (hsets x).symm.trans hneeds

/-- Rendering does without what no placeholder that it takes asks for. -/
theorem rendersIdle_iff (url : List UInt8) (flag : Flag) :
    RendersIdle url flag ↔ ¬ ∃ left x, Closes url left ∧ TakenAt left x ∧ Asks left x flag := by
  cases flag with
  | hasTemplate =>
    have hlit : (∀ t ∈ tokens url, t.isLit = true) ↔ ¬ ∃ t ∈ tokens url, t.isLit = false := by
      rw [not_exists]
      refine forall_congr' fun t => ?_
      rw [not_and, Bool.not_eq_false]
    refine (unchanged_iff url).trans (hlit.trans (not_congr (exists_not_lit.trans ?_)))
    constructor
    · rintro ⟨left, x, hleft, hx⟩
      exact ⟨left, x, hleft, hx, .inl rfl⟩
    · rintro ⟨left, x, hleft, hx, -⟩
      exact ⟨left, x, hleft, hx⟩
  | needsBegin => exact rendersWithout_iff_places (by decide) fun _ => rfl
  | needsEnd => exact rendersWithout_iff_places (by decide) fun _ => rfl

/-- What rendering takes and asks for the flag is read alike, or known to rendering only. -/
theorem exists_asks_iff : (∃ left x, Closes url left ∧ TakenAt left x ∧ Asks left x flag) ↔
    ReadAlike url flag ∨ OnlyTaken url flag := by
  constructor
  · rintro ⟨left, x, hleft, hx, hask⟩
    rcases hx.cases with hcounted | hkind
    · exact .inl ⟨left, x, hleft, hcounted, hx, hask⟩
    · exact .inr ⟨left, x, hleft, hx, hask, hkind⟩
  · rintro (⟨left, x, hleft, -, hx, hask⟩ | ⟨left, x, hleft, hx, hask, -⟩)
    · exact ⟨left, x, hleft, hx, hask⟩
    · exact ⟨left, x, hleft, hx, hask⟩

theorem not_isTooLong_of_lt (h : x.inner.length < innerSize) : ¬ IsTooLong x.inner := by
  unfold IsTooLong
  split_ifs <;> omega

/-- What sets a flag is known. -/
theorem Placeholder.Sets.known (h : x.Sets flag) : (classifyTemplatePlaceholder x).hasTemplate = true := by
  have hkeyword : ∀ isShortSyntax normalized, (keywordFlags isShortSyntax normalized).get flag = true →
      (keywordFlags isShortSyntax normalized).hasTemplate = true := by
    intro isShortSyntax normalized h
    unfold keywordFlags at h ⊢
    split_ifs at h ⊢ <;> first | rfl | (cases flag <;> cases h)
  unfold Sets classifyTemplatePlaceholder at h
  unfold classifyTemplatePlaceholder
  rcases hbe : beginEnd x.inner with _ | isBegin
  · rw [hbe] at h
    exact hkeyword _ _ h
  · cases isBegin <;> rfl

theorem CountedAt.sets_of_asks (hcounted : CountedAt left x) (htaken : TakenAt left x) (hask : Asks left x flag) :
    x.Sets flag := by
  have hreplaced : Replaced x := (firstOpened_spec htaken).1.resolve_left (not_isTooLong_of_lt hcounted.2)
  rcases hask with rfl | ⟨hset, -⟩
  · exact hreplaced.1
  · exact hset

/-- What is counted with the flag is read alike, or known to the analysis only. -/
theorem exists_counted_iff : (∃ x ∈ countedPlaceholders url, (classifyTemplatePlaceholder x).get flag = true) ↔
    ReadAlike url flag ∨ OnlyCounted url flag := by
  constructor
  · rintro ⟨x, hx, hset⟩
    obtain ⟨left, hleft, hcounted⟩ := mem_countedPlaceholders.1 hx
    have hset : x.Sets flag := hset
    rcases hcounted.cases hset.known with hmis | htaken | hastray
    · exact .inr ⟨left, x, hleft, hcounted, hset, .inl hmis⟩
    · by_cases hask : Asks left x flag
      · exact .inl ⟨left, x, hleft, hcounted, htaken, hask⟩
      · obtain ⟨hflag, hnever⟩ := not_or.1 hask
        have hbefore : ∀ ctx, ¬ WritableBefore ctx left :=
          fun ctx hbefore => hnever ⟨hset, not_isTooLong_of_lt hcounted.2, ctx, hbefore⟩
        exact .inr ⟨left, x, hleft, hcounted, hset, .inr (.inr ⟨hflag, hbefore⟩)⟩
    · exact .inr ⟨left, x, hleft, hcounted, hset, .inr (.inl hastray)⟩
  · rintro (⟨left, x, hleft, hcounted, htaken, hask⟩ | ⟨left, x, hleft, hcounted, hset, -⟩)
    · exact ⟨x, mem_countedPlaceholders.2 ⟨left, hleft, hcounted⟩, hcounted.sets_of_asks htaken hask⟩
    · exact ⟨x, mem_countedPlaceholders.2 ⟨left, hleft, hcounted⟩, hset⟩

end

theorem get_eq_false_iff {url : List UInt8} {a : UrlTemplateAnalysis} (h : urlTemplateAnalyze url = some a)
    (flag : Flag) :
    a.get flag = false ↔ ¬ ∃ x ∈ countedPlaceholders url, (classifyTemplatePlaceholder x).get flag = true := by
  rw [get_urlTemplateAnalyze h, ← Bool.not_eq_true, anyFlag, List.any_eq_true]

/-- The analysis says what rendering needs if and only if, for every flag, a placeholder that has it is read alike by
both, or the placeholders that only the analysis counts have it exactly if those that only rendering takes do. -/
theorem urlTemplateAnalyze_agrees_iff {url : List UInt8} {a : UrlTemplateAnalysis}
    (h : urlTemplateAnalyze url = some a) :
    ((a.needsBegin = false ↔ RendersWithout url .beginning) ∧ (a.needsEnd = false ↔ RendersWithout url .ending) ∧
      (a.hasTemplate = false ↔ Unchanged url)) ↔ Matched url := by
  have hflags : ((a.needsBegin = false ↔ RendersWithout url .beginning) ∧
      (a.needsEnd = false ↔ RendersWithout url .ending) ∧ (a.hasTemplate = false ↔ Unchanged url)) ↔
      ∀ flag, a.get flag = false ↔ RendersIdle url flag := by
    constructor
    · rintro ⟨hbegin, hend, htemplate⟩ flag
      cases flag with
      | hasTemplate => exact htemplate
      | needsBegin => exact hbegin
      | needsEnd => exact hend
    · exact fun h => ⟨h .needsBegin, h .needsEnd, h .hasTemplate⟩
  rw [hflags]
  refine forall_congr' fun flag => ?_
  rw [get_eq_false_iff h, rendersIdle_iff, not_iff_not, exists_counted_iff, exists_asks_iff]
  tauto

/-- A URL with a misread placeholder, one that is read alike and one in the name of a parameter. -/
def mixedUrl : List UInt8 := str "/\x7byyyy\x7d?t=$\x7bduration\x7d&\x7bnow\x7d=1"

theorem matched_mixedUrl : Matched mixedUrl := by
  have hcounted : CountedAt (str "/\x7byyyy\x7d?t=$\x7bduration") ⟨false, str "duration"⟩ :=
    ⟨⟨_, rfl, by decide +kernel⟩, by decide⟩
  have htaken : TakenAt (str "/\x7byyyy\x7d?t=$\x7bduration") ⟨false, str "duration"⟩ := by
    unfold TakenAt
    decide +kernel
  have hbefore : WritableBefore ⟨0, 0, some 0, some 60⟩
      (str "/\x7byyyy" ++ closeBrace :: str "?t=$\x7bduration") := by
    refine (writableBefore_brace (by decide)).2 ⟨fun x hx => ?_, writableBefore_no_brace (by decide)⟩
    have hnone : firstOpened Taken none (str "/\x7byyyy") = none := by decide +kernel
    rw [takenAt_no_brace (by decide), hnone] at hx
    cases hx
  intro flag
  have hsets : Placeholder.Sets ⟨false, str "duration"⟩ flag := by cases flag <;> exact rfl
  exact .inl ⟨_, _, ⟨str "&\x7bnow\x7d=1", by decide⟩, hcounted, htaken, .inr ⟨hsets, by decide, _, hbefore⟩⟩

theorem urlTemplateAnalyze_agrees_iff_mixed : ∃ a, urlTemplateAnalyze mixedUrl = some a ∧
    (a.needsBegin = false ↔ RendersWithout mixedUrl .beginning) ∧
      (a.needsEnd = false ↔ RendersWithout mixedUrl .ending) ∧ (a.hasTemplate = false ↔ Unchanged mixedUrl) :=
  ⟨⟨true, true, true, str "\x7byyyy\x7d", [], []⟩, by decide +kernel,
    (urlTemplateAnalyze_agrees_iff (by decide +kernel)).2 matched_mixedUrl⟩

/-- The long name of a component in the short syntax is counted and left as it is; a placeholder in the name of a
parameter is not counted and replaced. -/
theorem urlTemplateAnalyze_disagrees :
    (∃ a, urlTemplateAnalyze (str "/\x7byyyy\x7d") = some a ∧
      ¬ (a.needsBegin = false ↔ RendersWithout (str "/\x7byyyy\x7d") .beginning) ∧
      ¬ (a.hasTemplate = false ↔ Unchanged (str "/\x7byyyy\x7d"))) ∧
    ∃ a, urlTemplateAnalyze (str "/?\x7butc\x7d") = some a ∧
      ¬ (a.needsBegin = false ↔ RendersWithout (str "/?\x7butc\x7d") .beginning) ∧
      ¬ (a.hasTemplate = false ↔ Unchanged (str "/?\x7butc\x7d")) := by
  constructor
  · have hunchanged : Unchanged (str "/\x7byyyy\x7d") := (unchanged_iff _).2 (by decide +kernel)
    have hbegin : RendersWithout (str "/\x7byyyy\x7d") .beginning :=
      ⟨fun ctx value => (hunchanged _).trans (hunchanged ctx).symm, fun ctx h => nomatch (hunchanged ctx).symm.trans h⟩
    refine ⟨⟨true, true, false, str "\x7byyyy\x7d", [], []⟩, by decide +kernel, ?_, ?_⟩
    · exact fun h => nomatch h.2 hbegin
    · exact fun h => nomatch h.2 hunchanged
  · have hrender : renderTemplateUrl (str "/?\x7butc\x7d") ⟨0, 0, none, none⟩ = .error .noBegin := by decide +kernel
    refine ⟨⟨false, false, false, [], [], []⟩, by decide +kernel, ?_, ?_⟩
    · exact fun h => (h.1 rfl).2 _ hrender
    · exact fun h => nomatch hrender.symm.trans (h.1 rfl ⟨0, 0, none, none⟩)

end Rtp2httpd
