import DOpenWrt.Rtp2httpd.ExtractQuery

/-!
# The seek parameter of a query (`service.c`)

`service_extract_seek_params` takes the parameter of a seek out of a query. It only looks at the first place where the
text `playseek=` stands, which may be in another parameter, and takes a `?` for the beginning of a parameter. What it
does with the values of `r2h-seek-offset` and `r2h-seek-mode` is left out.
-/

namespace Rtp2httpd.Service
open CString

/-! ### The source -/

/-- The loops over the occurrences of a pattern from `p` on, up to one that is not passed over. -/
def nextSeekParam (qs pattern : List UInt8) : Nat → Nat → Option Nat
  | 0, _ => none
  | fuel + 1, p =>
    match strcasestr pattern (qs.drop p) with
    | none => none
    | some i =>
      let seekStart := p + i
      if seekStart > 0 ∧ qs[seekStart - 1]? ≠ some questionMark ∧ qs[seekStart - 1]? ≠ some ampersand then
        nextSeekParam qs pattern fuel (seekStart + pattern.length)
      else some seekStart

/-- What is known of the values: the first, and the first without braces. -/
structure SeekValues where
  firstValue : Option (List UInt8)
  selectedValue : Option (List UInt8)
deriving DecidableEq, Repr

def SeekValues.add (v : SeekValues) (currentValue : List UInt8) : SeekValues where
  firstValue := v.firstValue <|> some currentValue
  selectedValue := v.selectedValue <|>
    if openBrace ∉ currentValue ∧ closeBrace ∉ currentValue then some currentValue else none

/-- "Iterate through all occurrences", with the next search at `searchPos`. None if a value cannot be decoded. -/
def seekValuesLoop (qs pattern : List UInt8) : Nat → Nat → SeekValues → Option SeekValues
  | 0, _, v => some v
  | fuel + 1, searchPos, v =>
    match nextSeekParam qs pattern (qs.length + 1) searchPos with
    | none => some v
    | some seekStart =>
      let value := (qs.drop (seekStart + pattern.length)).takeWhile (· ≠ ampersand)
      match httpUrlDecode value with
      | none => none
      | some decoded =>
        seekValuesLoop qs pattern fuel (seekStart + pattern.length + value.length) (v.add (cstr decoded))

/-- "Remove all seek parameters", with the next search at `removePos`. -/
def removeSeekLoop (pattern : List UInt8) : Nat → List UInt8 → Nat → List UInt8
  | 0, qs, _ => qs
  | fuel + 1, qs, removePos =>
    match nextSeekParam qs pattern (qs.length + 1) removePos with
    | none => qs
    | some seekStart =>
      let paramToRemoveStart := if seekStart > 1 then seekStart - 1 else seekStart
      let paramValueEnd := valueEnd qs seekStart
      if qs[paramValueEnd]? = some ampersand then
        if seekStart = 1 then
          removeSeekLoop pattern fuel (qs.take 1 ++ qs.drop (paramValueEnd + 1)) paramToRemoveStart
        else removeSeekLoop pattern fuel (qs.take paramToRemoveStart ++ qs.drop paramValueEnd) paramToRemoveStart
      else if seekStart = 1 then []
      else qs.take paramToRemoveStart

/-- A name of the heuristic detection, in the case in which it stands in the query. -/
def heuristicSeekName (qs name : List UInt8) : Option (List UInt8) :=
  match strcasestr (name ++ [equalSign]) qs with
  | none => none
  | some i => if i = 1 ∨ i > 0 ∧ qs[i - 1]? = some ampersand then some ((qs.drop i).take name.length) else none

/-- "Step 2". -/
def seekParamName (q : QueryString) (r2hSeekName : Option (List UInt8)) : Option (List UInt8) :=
  match r2hSeekName with
  | some name => some name
  | none =>
    if q.isSet then (heuristicSeekName q.text (str "playseek")).or (heuristicSeekName q.text (str "tvdr")) else none

/-- What is returned: the query as it is left, the texts of the control parameters, and the parameter of the seek. -/
structure SeekParams where
  text : List UInt8
  offsetText : Option (List UInt8)
  modeText : Option (List UInt8)
  seekParamName : Option (List UInt8)
  seekParamValue : Option (List UInt8)
  result : Int
deriving DecidableEq, Repr

/-- The value of a control parameter as a string, if there is one. -/
def Extracted.value (e : Extracted) : Option (List UInt8) := if e.result = 1 then e.outValue.map cstr else none

/-- "Step 3", for a name. None if a value cannot be decoded. -/
def extractSeekValue (qs name : List UInt8) : Option (List UInt8 × Option (List UInt8)) :=
  -- the buffer has 128 bytes
  let searchPattern := (name ++ [equalSign]).take 127
  match seekValuesLoop qs searchPattern (qs.length + 1) 0 ⟨none, none⟩ with
  | none => none
  | some v =>
    match v.selectedValue <|> v.firstValue with
    | none => some (qs, none)
    | some value => some (removeSeekLoop searchPattern (qs.length + 1) qs 0, some value)

def serviceExtractSeekParams (queryStart : List UInt8) : SeekParams :=
  if queryStart.head? ≠ some questionMark then ⟨queryStart, none, none, none, none, -1⟩
  else
    let seekName := extractQueryParam ⟨queryStart, true⟩ (str "r2h-seek-name") 128
    let offset := extractQueryParam seekName.query (str "r2h-seek-offset") 32
    let mode := extractQueryParam offset.query (str "r2h-seek-mode") 96
    let q := mode.query
    match seekParamName q seekName.value with
    | none => ⟨q.text, offset.value, mode.value, none, none, 0⟩
    | some name =>
      if q.isSet then
        match extractSeekValue q.text name with
        | none => ⟨q.text, none, none, none, none, -1⟩
        | some (text, value) => ⟨text, offset.value, mode.value, some name, value, 0⟩
      else ⟨q.text, offset.value, mode.value, some name, none, 0⟩

/-! ### The next parameter -/

/-- A place from which the loops take a parameter. -/
structure Accepted (qs pattern : List UInt8) (p : Nat) : Prop where
  start : p > 0 → qs[p - 1]? = some questionMark ∨ qs[p - 1]? = some ampersand
  pattern_at : startsWithCase pattern (qs.drop p) = true

/-- A pattern in which no parameter begins. -/
structure IsSeekPattern (pattern : List UInt8) : Prop where
  ne_nil : pattern ≠ []
  no_question : questionMark ∉ pattern
  no_sep : ampersand ∉ pattern

section
variable {qs pattern name : List UInt8} {p q r : Nat} {sep : UInt8}

/-- A pattern does not match over a byte that it does not have. -/
theorem not_startsWithCase_of_getElem {s : List UInt8} {k : Nat} (hsep : sep.toNat < 'A'.toNat) (hpattern : sep ∉ pattern)
    (hk : k < pattern.length) (h : s[k]? = some sep) : startsWithCase pattern s = false := by
  rw [Bool.eq_false_iff]
  intro hstart
  have hget := List.prefix_iff_getElem?.1 (startsWithCase_iff.1 hstart) k (by rwa [List.length_map])
  rw [List.getElem?_map, h, Option.map_some, List.getElem_map, Option.some.injEq,
    (tolower_eq_iff hsep).2 rfl, eq_comm, tolower_eq_iff hsep] at hget
  exact hpattern (hget ▸ List.getElem_mem _)

theorem startsWithCase_append_equal {s : List UInt8} : startsWithCase (name ++ [equalSign]) s = true ↔
    startsWithCase name s = true ∧ s[name.length]? = some equalSign := by
  rw [startsWithCase_iff, startsWithCase_iff, List.map_append, List.map_singleton]
  constructor
  · intro h
    refine ⟨(List.prefix_append _ _).trans h, ?_⟩
    have hget := List.prefix_iff_getElem?.1 h name.length (by simp)
    rw [List.getElem?_map, List.getElem_append_right (by simp)] at hget
    obtain ⟨c, hc, heq⟩ := Option.map_eq_some_iff.1 hget
    simp only [List.length_map, Nat.sub_self, List.getElem_singleton] at heq
    rw [hc, (tolower_eq_iff (by decide)).1 (heq.trans ((tolower_eq_iff (by decide)).2 rfl))]
  · rintro ⟨⟨t, ht⟩, hget⟩
    have hlt : name.length < s.length := (List.getElem?_eq_some_iff.1 hget).1
    have hmap : (s.map tolower)[name.length]? = some (tolower equalSign) := by
      rw [List.getElem?_map, hget]
      rfl
    rw [← ht, List.getElem?_append_right (by simp), List.length_map, Nat.sub_self] at hmap
    obtain ⟨t, rfl⟩ : ∃ t', t = tolower equalSign :: t' := by
      cases t with
      | nil => cases hmap
      | cons c t => exact ⟨t, by rw [Option.some.inj hmap]⟩
    exact ⟨t, by rw [← ht, List.append_assoc]; rfl⟩

theorem Accepted.lt (hpattern : IsSeekPattern pattern) (h : Accepted qs pattern p) : p < qs.length := by
  by_contra hle
  have := h.pattern_at
  rw [List.drop_eq_nil_of_le (Nat.le_of_not_lt hle), startsWithCase_nil hpattern.ne_nil] at this
  cases this

/-- No parameter is taken from within a match that is passed over. -/
theorem not_accepted_within (hpattern : IsSeekPattern pattern) (hat : startsWithCase pattern (qs.drop p) = true)
    (hlt : p < r) (hr : r < p + pattern.length) : ¬ Accepted qs pattern r := by
  intro h
  have hover (sep : UInt8) (hsep : sep.toNat < 'A'.toNat) (hmem : sep ∉ pattern) (hget : qs[r - 1]? = some sep) : False := by
    have := not_startsWithCase_of_getElem (s := qs.drop p) (k := r - 1 - p) hsep hmem (by omega)
      (by rwa [List.getElem?_drop, Nat.add_sub_cancel' (by omega)])
    rw [hat] at this
    cases this
  rcases h.start (by omega) with hq | ha
  · exact hover _ (by decide) hpattern.no_question hq
  · exact hover _ (by decide) hpattern.no_sep ha

theorem not_accepted_zero (hpattern : IsSeekPattern pattern) (hhead : qs[0]? = some questionMark) :
    ¬ Accepted qs pattern 0 := by
  intro h
  have hat := h.pattern_at
  rw [List.drop_zero, not_startsWithCase_of_getElem (by decide) hpattern.no_question
    (List.length_pos_of_ne_nil hpattern.ne_nil) hhead] at hat
  cases hat

/-- What is found is the first place from `p` on. -/
theorem nextSeekParam_spec {fuel : Nat} (hpattern : IsSeekPattern pattern) (p : Nat) (hfuel : qs.length < p + fuel) :
    match nextSeekParam qs pattern fuel p with
    | some q => p ≤ q ∧ Accepted qs pattern q ∧ ∀ r, p ≤ r → r < q → ¬ Accepted qs pattern r
    | none => ∀ r, p ≤ r → ¬ Accepted qs pattern r := by
  induction fuel generalizing p with
  | zero =>
    intro r hr h
    have := h.lt hpattern
    omega
  | succ fuel ih =>
    rw [nextSeekParam]
    cases hfind : strcasestr pattern (qs.drop p) with
    | none =>
      intro r hr h
      refine strcasestr_none.1 hfind ?_
      obtain ⟨k, rfl⟩ := Nat.exists_eq_add_of_le hr
      have hat := startsWithCase_iff.1 h.pattern_at
      rw [← List.drop_drop, List.map_drop] at hat
      exact hat.isInfix.trans (List.drop_suffix _ _).isInfix
    | some k =>
      obtain ⟨-, hat, hbefore⟩ := strcasestr_some hfind
      rw [List.drop_drop] at hat
      have hmiss : ∀ r, p ≤ r → r < p + k → ¬ Accepted qs pattern r := fun r hr hlt h => by
        have := hbefore (r - p) (by omega)
        rw [List.drop_drop, Nat.add_sub_cancel' hr, h.pattern_at] at this
        cases this
      have hlen := List.length_pos_of_ne_nil hpattern.ne_nil
      dsimp only
      split_ifs with hskip
      · have hmiss' : ∀ r, p ≤ r → r < p + k + pattern.length → ¬ Accepted qs pattern r := fun r hr hlt h => by
          rcases Nat.lt_trichotomy r (p + k) with h' | rfl | h'
          · exact hmiss r hr h' h
          · exact (h.start hskip.1).elim hskip.2.1 hskip.2.2
          · exact not_accepted_within hpattern hat h' hlt h
        have hrest := ih (p + k + pattern.length) (by omega)
        split
        · next q hq =>
          rw [hq] at hrest
          refine ⟨by omega, hrest.2.1, fun r hr hlt => ?_⟩
          rcases Nat.lt_or_ge r (p + k + pattern.length) with h | h
          · exact hmiss' r hr h
          · exact hrest.2.2 r h hlt
        · next hq =>
          rw [hq] at hrest
          intro r hr
          rcases Nat.lt_or_ge r (p + k + pattern.length) with h | h
          · exact hmiss' r hr h
          · exact hrest r h
      · refine ⟨Nat.le_add_right .., ⟨fun hpos => ?_, hat⟩, hmiss⟩
        by_contra hnot
        rw [not_or] at hnot
        exact hskip ⟨hpos, hnot⟩

/-- The search as the loops make it. -/
abbrev next (qs pattern : List UInt8) (p : Nat) : Option Nat := nextSeekParam qs pattern (qs.length + 1) p

theorem next_spec (hpattern : IsSeekPattern pattern) (qs : List UInt8) (p : Nat) :
    match next qs pattern p with
    | some q => p ≤ q ∧ Accepted qs pattern q ∧ ∀ r, p ≤ r → r < q → ¬ Accepted qs pattern r
    | none => ∀ r, p ≤ r → ¬ Accepted qs pattern r :=
  nextSeekParam_spec hpattern p (by omega)

theorem next_eq_some (hpattern : IsSeekPattern pattern) (hle : p ≤ q) (h : Accepted qs pattern q)
    (hfirst : ∀ r, p ≤ r → r < q → ¬ Accepted qs pattern r) : next qs pattern p = some q := by
  have hspec := next_spec hpattern qs p
  split at hspec
  · next q' hq' =>
    obtain ⟨hle', h', hfirst'⟩ := hspec
    rcases Nat.lt_trichotomy q q' with hlt | rfl | hlt
    · exact absurd h (hfirst' q hle hlt)
    · assumption
    · exact absurd h' (hfirst q' hle' hlt)
  · exact absurd h (hspec q hle)

theorem next_eq_none (hpattern : IsSeekPattern pattern) (h : ∀ r, p ≤ r → ¬ Accepted qs pattern r) :
    next qs pattern p = none := by
  have hspec := next_spec hpattern qs p
  split at hspec
  · exact absurd hspec.2.1 (h _ hspec.1)
  · assumption

/-- Where there is no parameter in between, the search may begin later. -/
theorem next_congr (hpattern : IsSeekPattern pattern) (hle : p ≤ q)
    (h : ∀ r, p ≤ r → r < q → ¬ Accepted qs pattern r) : next qs pattern p = next qs pattern q := by
  have hspec := next_spec hpattern qs q
  have hbefore (r : Nat) (hr : p ≤ r) (hq : ∀ r', q ≤ r' → r' ≤ r → ¬ Accepted qs pattern r') :
      ¬ Accepted qs pattern r := by
    rcases Nat.lt_or_ge r q with hlt | hge
    · exact h r hr hlt
    · exact hq r hge (Nat.le_refl _)
  split at hspec
  · next q' hq' =>
    obtain ⟨hle', h', hfirst'⟩ := hspec
    rw [show next qs pattern q = some q' from hq']
    exact next_eq_some hpattern (hle.trans hle') h' fun r hr hlt =>
      hbefore r hr fun r' hr' hle'' => hfirst' r' hr' (by omega)
  · next hq' =>
    rw [show next qs pattern q = none from hq']
    exact next_eq_none hpattern fun r hr => hbefore r hr fun r' hr' _ => hspec r' hr'

end

/-! ### Parameters of a name -/

/-- A name whose pattern is sought. -/
structure IsSeekName (name : List UInt8) : Prop where
  isParamName : IsParamName name
  ne_nil : name ≠ []
  no_question : questionMark ∉ name

def seekPattern (name : List UInt8) : List UInt8 := name ++ [equalSign]

theorem IsSeekName.isSeekPattern {name : List UInt8} (h : IsSeekName name) : IsSeekPattern (seekPattern name) where
  ne_nil := by simp [seekPattern]
  no_question := by
    rw [seekPattern, List.mem_append, List.mem_singleton, not_or]
    exact ⟨h.no_question, by decide⟩
  no_sep := by
    rw [seekPattern, List.mem_append, List.mem_singleton, not_or]
    exact ⟨h.isParamName.1, by decide⟩

/-- A place within a parameter at which the loops take another one to begin. -/
def HasInner (name param : List UInt8) : Prop := ContainsCase (questionMark :: seekPattern name) param

instance HasInner.decidable (name param : List UInt8) : Decidable (HasInner name param) :=
  inferInstanceAs (Decidable (ContainsCase _ _))

/-- The query with these parameters. -/
def queryText (ps : List (List UInt8)) : List UInt8 := questionMark :: joinParams ps

section
variable {name param pattern s : List UInt8} {pre post kept : List (List UInt8)} {p r : Nat}

/-- The text from the byte in front of a parameter on. -/
theorem queryText_drop (pre post : List (List UInt8)) (param : List UInt8) : ∃ sep,
    (sep = questionMark ∨ sep = ampersand) ∧
      (queryText (pre ++ param :: post)).drop (joinedBefore pre).length = sep :: (param ++ joinedAfter post) := by
  rcases List.eq_nil_or_concat' pre with rfl | ⟨pre, last, rfl⟩
  · exact ⟨questionMark, .inl rfl, by rw [queryText, List.nil_append, joinParams_cons]; rfl⟩
  · refine ⟨ampersand, .inr rfl, ?_⟩
    have hbefore : joinedBefore (pre ++ [last]) = joinParams (pre ++ [last]) ++ [ampersand] := if_neg (by simp)
    rw [queryText, joinParams_split (pre ++ [last]) post param, hbefore, List.length_append, List.length_singleton,
      List.drop_succ_cons, List.append_assoc, List.drop_left' rfl, joinParams_cons]
    rfl

theorem queryText_drop_succ (pre post : List (List UInt8)) (param : List UInt8) :
    (queryText (pre ++ param :: post)).drop ((joinedBefore pre).length + 1) = param ++ joinedAfter post := by
  obtain ⟨sep, -, hdrop⟩ := queryText_drop pre post param
  rw [← List.drop_drop, hdrop]
  rfl

theorem startsWithCase_joinedAfter (hsep : ampersand ∉ pattern) :
    startsWithCase pattern (s ++ joinedAfter post) = true ↔ startsWithCase pattern s = true := by
  by_cases hlen : pattern.length ≤ s.length
  · rw [startsWithCase, startsWithCase, List.take_append_of_le_length hlen]
  · refine iff_of_false (fun h => ?_) fun h => ?_
    · by_cases hpost : post = []
      · have := length_of_eqIgnoreCase h
        rw [joinedAfter, if_pos hpost, List.append_nil, List.length_take] at this
        omega
      · have hget : (s ++ joinedAfter post)[s.length]? = some ampersand := by
          rw [joinedAfter, if_neg hpost, List.getElem?_append_right (Nat.le_refl _), Nat.sub_self]
          rfl
        rw [not_startsWithCase_of_getElem (by decide) hsep (by omega) hget] at h
        cases h
    · have := length_of_eqIgnoreCase h
      rw [List.length_take] at this
      omega

theorem hasName_iff_startsWithCase (hname : IsParamName name) (hparam : ampersand ∉ param) :
    HasName name param ↔ startsWithCase (seekPattern name) param = true := by
  rw [seekPattern, startsWithCase_append_equal, startsWithCase_and_iff_hasName hname, takeWhile_no_sep hparam]

theorem hasInner_iff : HasInner name param ↔
    ∃ j, param[j]? = some questionMark ∧ startsWithCase (seekPattern name) (param.drop (j + 1)) = true := by
  unfold HasInner ContainsCase
  constructor
  · rintro ⟨a, b, h⟩
    have hlen : a.length < param.length := by
      have := congrArg List.length h
      simp only [List.length_append, List.length_map, List.length_cons] at this
      omega
    refine ⟨a.length, ?_, startsWithCase_iff.2 ⟨b, ?_⟩⟩
    · have hget := congrArg (·[a.length]?) h
      simp only [List.append_assoc, List.getElem?_append_right (Nat.le_refl a.length), Nat.sub_self, List.map_cons,
        List.cons_append, List.getElem?_cons_zero, List.getElem?_map, List.getElem?_eq_getElem hlen, Option.map_some,
        Option.some.injEq] at hget
      rw [List.getElem?_eq_getElem hlen,
        (tolower_eq_iff (by decide)).1 (hget.symm.trans ((tolower_eq_iff (by decide)).2 rfl))]
    · rw [List.map_drop, ← h, ← List.drop_drop, List.append_assoc, List.drop_left' rfl]
      rfl
  · rintro ⟨j, hget, hat⟩
    obtain ⟨b, hb⟩ := startsWithCase_iff.1 hat
    obtain ⟨hj, hget⟩ := List.getElem?_eq_some_iff.1 hget
    refine ⟨(param.take j).map tolower, b, ?_⟩
    rw [List.map_cons, List.append_assoc, List.cons_append, hb, ← hget, ← List.map_cons, ← List.drop_eq_getElem_cons hj,
      ← List.map_append, List.take_append_drop]

/-- The separator in front of a parameter does not begin the pattern. -/
theorem not_accepted_sep (hpattern : IsSeekPattern pattern) (pre post : List (List UInt8)) (param : List UInt8) :
    ¬ Accepted (queryText (pre ++ param :: post)) pattern (joinedBefore pre).length := by
  intro h
  obtain ⟨sep, hsep, hdrop⟩ := queryText_drop pre post param
  have hat := h.pattern_at
  have hpos := List.length_pos_of_ne_nil hpattern.ne_nil
  rw [hdrop] at hat
  rcases hsep with rfl | rfl
  · rw [not_startsWithCase_of_getElem (by decide) hpattern.no_question hpos rfl] at hat
    cases hat
  · rw [not_startsWithCase_of_getElem (by decide) hpattern.no_sep hpos rfl] at hat
    cases hat

/-- In a parameter of another name without an inner place nothing is taken. -/
theorem not_accepted_in_param (hname : IsSeekName name) (hparam : ampersand ∉ param) (hnot : ¬ HasName name param)
    (hinner : ¬ HasInner name param) (hle : (joinedBefore pre).length ≤ r) (hr : r ≤ (joinedBefore pre).length + param.length) :
    ¬ Accepted (queryText (pre ++ param :: post)) (seekPattern name) r := by
  intro h
  have hpat := hname.isSeekPattern
  obtain ⟨sep, hsep, hdrop⟩ := queryText_drop pre post param
  obtain ⟨k, rfl⟩ := Nat.exists_eq_add_of_le hle
  have hat := h.pattern_at
  rw [← List.drop_drop, hdrop] at hat
  cases k with
  | zero => exact not_accepted_sep hpat pre post param h
  | succ j =>
    rw [List.drop_succ_cons, List.drop_append_of_le_length (by omega), startsWithCase_joinedAfter hpat.no_sep] at hat
    cases j with
    | zero => exact hnot ((hasName_iff_startsWithCase hname.isParamName hparam).2 hat)
    | succ j =>
      have hget : (queryText (pre ++ param :: post))[(joinedBefore pre).length + (j + 1 + 1) - 1]? = param[j]? := by
        rw [show (joinedBefore pre).length + (j + 1 + 1) - 1 = (joinedBefore pre).length + (j + 1) by omega,
          ← List.getElem?_drop, hdrop, List.getElem?_cons_succ, List.getElem?_append_left (by omega)]
      rcases h.start (by omega) with hq | ha
      · exact hinner (hasInner_iff.2 ⟨j, hget ▸ hq, hat⟩)
      · exact hparam (List.mem_of_getElem? (hget ▸ ha))

/-- A parameter of the name is taken. -/
theorem accepted_param (hname : IsSeekName name) (hparam : ampersand ∉ param) (h : HasName name param) :
    Accepted (queryText (pre ++ param :: post)) (seekPattern name) ((joinedBefore pre).length + 1) where
  start _ := by
    obtain ⟨sep, hsep, hdrop⟩ := queryText_drop pre post param
    rw [Nat.add_sub_cancel, ← Nat.add_zero (joinedBefore pre).length, ← List.getElem?_drop, hdrop, List.getElem?_cons_zero]
    exact hsep.imp (congrArg some) (congrArg some)
  pattern_at := by
    rw [queryText_drop_succ, startsWithCase_joinedAfter hname.isSeekPattern.no_sep]
    exact (hasName_iff_startsWithCase hname.isParamName hparam).1 h

/-- And so is an inner place. -/
theorem exists_accepted_of_hasInner (hname : IsSeekName name) (h : HasInner name param) :
    ∃ r, Accepted (queryText (pre ++ param :: post)) (seekPattern name) r := by
  obtain ⟨j, hget, hat⟩ := hasInner_iff.1 h
  have hj : j < param.length := (List.getElem?_eq_some_iff.1 hget).1
  refine ⟨(joinedBefore pre).length + 1 + (j + 1), fun _ => .inl ?_, ?_⟩
  · rw [show (joinedBefore pre).length + 1 + (j + 1) - 1 = (joinedBefore pre).length + 1 + j by omega, ← List.getElem?_drop,
      queryText_drop_succ, List.getElem?_append_left hj, hget]
  · rw [← List.drop_drop, queryText_drop_succ, List.drop_append_of_le_length (by omega),
      startsWithCase_joinedAfter hname.isSeekPattern.no_sep]
    exact hat

end

/-! ### The values -/

/-- The value of a parameter as a string, if it can be decoded. -/
def decodedValue (name param : List UInt8) : Option (List UInt8) :=
  (httpUrlDecode (param.drop (name.length + 1))).map cstr

def BraceFree (value : List UInt8) : Prop := openBrace ∉ value ∧ closeBrace ∉ value

instance BraceFree.decidable (value : List UInt8) : Decidable (BraceFree value) := inferInstanceAs (Decidable (_ ∧ _))

/-- The first value without braces, else the first. -/
def chosenValue (values : List (List UInt8)) : Option (List UInt8) := values.find? (BraceFree ·) <|> values.head?

section
variable {name param : List UInt8} {ps pre post : List (List UInt8)} {v : SeekValues}

theorem foldl_add (values : List (List UInt8)) (v : SeekValues) : values.foldl SeekValues.add v =
    ⟨v.firstValue <|> values.head?, v.selectedValue <|> values.find? (BraceFree ·)⟩ := by
  induction values generalizing v with
  | nil => simp
  | cons value values ih =>
    rw [List.foldl_cons, ih, SeekValues.add]
    by_cases h : BraceFree value
    · rw [if_pos (show openBrace ∉ value ∧ closeBrace ∉ value from h), List.find?_cons_of_pos (by simpa using h)]
      cases v.firstValue <;> cases v.selectedValue <;> simp
    · rw [if_neg (show ¬ (openBrace ∉ value ∧ closeBrace ∉ value) from h), List.find?_cons_of_neg (by simpa using h)]
      cases v.firstValue <;> cases v.selectedValue <;> simp

theorem seekValuesLoop_congr {qs pattern : List UInt8} {p q : Nat} (h : next qs pattern p = next qs pattern q)
    (fuel : Nat) (v : SeekValues) : seekValuesLoop qs pattern fuel p v = seekValuesLoop qs pattern fuel q v := by
  cases fuel with
  | zero => rfl
  | succ fuel => rw [seekValuesLoop, seekValuesLoop, show nextSeekParam qs pattern _ p = _ from h]

theorem length_joinedBefore_append (pre : List (List UInt8)) (param : List UInt8) :
    (joinedBefore (pre ++ [param])).length = (joinedBefore pre).length + 1 + param.length := by
  rw [length_joinedBefore, length_joinedBefore, List.map_append, List.sum_append, List.map_singleton, List.sum_singleton]
  omega

/-- Behind the last parameter nothing is taken. -/
theorem next_end (hname : IsSeekName name) (pre : List (List UInt8)) :
    next (queryText pre) (seekPattern name) (joinedBefore pre).length = none := by
  refine next_eq_none hname.isSeekPattern fun r hr h => ?_
  have hlt := h.lt hname.isSeekPattern
  rcases List.eq_nil_or_concat' pre with rfl | ⟨pre, last, rfl⟩
  · obtain rfl : r = 0 := Nat.lt_one_iff.1 hlt
    exact not_accepted_zero hname.isSeekPattern rfl h
  · have hbefore : joinedBefore (pre ++ [last]) = joinParams (pre ++ [last]) ++ [ampersand] := if_neg (by simp)
    rw [hbefore, List.length_append, List.length_singleton] at hr
    rw [queryText, List.length_cons] at hlt
    omega

/-- A parameter of the name is the next one. -/
theorem next_hasName (hname : IsSeekName name) (hparam : ampersand ∉ param) (h : HasName name param) :
    next (queryText (pre ++ param :: post)) (seekPattern name) (joinedBefore pre).length =
      some ((joinedBefore pre).length + 1) := by
  refine next_eq_some hname.isSeekPattern (Nat.le_succ _) (accepted_param hname hparam h) fun r hr hlt => ?_
  obtain rfl : r = (joinedBefore pre).length := by omega
  exact not_accepted_sep hname.isSeekPattern pre post param

/-- A parameter of another name is passed over. -/
theorem next_not_hasName (hname : IsSeekName name) (hparam : ampersand ∉ param) (hnot : ¬ HasName name param)
    (hinner : ¬ HasInner name param) : next (queryText (pre ++ param :: post)) (seekPattern name) (joinedBefore pre).length =
      next (queryText (pre ++ param :: post)) (seekPattern name) (joinedBefore (pre ++ [param])).length := by
  rw [length_joinedBefore_append]
  exact next_congr hname.isSeekPattern (by omega) fun r hr hlt =>
    not_accepted_in_param hname hparam hnot hinner hr (by omega)

/-- The round of the loop at a parameter of the name. -/
theorem seekValuesLoop_hasName (hname : IsSeekName name) (fuel : Nat) (hparam : ampersand ∉ param) (h : HasName name param) :
    seekValuesLoop (queryText (pre ++ param :: post)) (seekPattern name) (fuel + 1) (joinedBefore pre).length v =
      (decodedValue name param).bind fun value => seekValuesLoop (queryText (pre ++ param :: post)) (seekPattern name) fuel
        (joinedBefore (pre ++ [param])).length (v.add value) := by
  have hlen := h.length_lt
  have hat : ((queryText (pre ++ param :: post)).drop
      ((joinedBefore pre).length + 1 + (seekPattern name).length)).takeWhile (· ≠ ampersand) =
        param.drop (name.length + 1) := by
    rw [seekPattern, List.length_append, List.length_singleton]
    exact value_at h hparam
  have hend : (joinedBefore pre).length + 1 + (seekPattern name).length + (param.drop (name.length + 1)).length =
      (joinedBefore (pre ++ [param])).length := by
    rw [length_joinedBefore_append, seekPattern, List.length_append, List.length_singleton, List.length_drop]
    omega
  rw [seekValuesLoop, show nextSeekParam _ _ _ _ = _ from next_hasName hname hparam h, decodedValue]
  dsimp only
  rw [hat, hend]
  cases httpUrlDecode (param.drop (name.length + 1)) with
  | none => rfl
  | some value => rfl

/-- The values collected are those of the parameters of the name, if each of them can be decoded. -/
theorem seekValuesLoop_eq (hname : IsSeekName name) {fuel : Nat} (hfuel : post.length < fuel)
    (hsep : ∀ p ∈ post, ampersand ∉ p) (hinner : ∀ p ∈ post, ¬ HasName name p → ¬ HasInner name p) :
    seekValuesLoop (queryText (pre ++ post)) (seekPattern name) fuel (joinedBefore pre).length v =
      if ∀ p ∈ post, HasName name p → decodedValue name p ≠ none then
        some (((post.filter (HasName name ·)).filterMap (decodedValue name)).foldl SeekValues.add v)
      else none := by
  induction post generalizing pre fuel v with
  | nil =>
    obtain ⟨fuel, rfl⟩ := Nat.exists_eq_succ_of_ne_zero (Nat.ne_of_gt hfuel)
    rw [if_pos fun p hp => absurd hp List.not_mem_nil, List.append_nil, seekValuesLoop,
      show nextSeekParam _ _ _ _ = none from next_end hname pre]
    rfl
  | cons param post ih =>
    have hparam := hsep param (List.mem_cons_self ..)
    have hrest {fuel : Nat} {v : SeekValues} (hfuel : post.length < fuel) := @ih (pre ++ [param]) v fuel hfuel
      (fun p hp => hsep p (List.mem_cons_of_mem _ hp)) fun p hp => hinner p (List.mem_cons_of_mem _ hp)
    simp only [List.append_assoc, List.singleton_append] at hrest
    rw [List.length_cons] at hfuel
    simp only [List.forall_mem_cons]
    by_cases h : HasName name param
    · obtain ⟨fuel, rfl⟩ := Nat.exists_eq_succ_of_ne_zero (show fuel ≠ 0 by omega)
      rw [seekValuesLoop_hasName hname fuel hparam h]
      cases hdecoded : decodedValue name param with
      | none => rw [Option.bind_none, if_neg fun hall => hall.1 h rfl]
      | some value =>
        rw [Option.bind_some, hrest (by omega), List.filter_cons_of_pos (by simpa using h),
          List.filterMap_cons_some hdecoded, List.foldl_cons]
        simp only [ne_eq, reduceCtorEq, not_false_eq_true, implies_true, true_and]
    · rw [seekValuesLoop_congr (next_not_hasName hname hparam h (hinner param (List.mem_cons_self ..) h)),
        hrest (by omega), List.filter_cons_of_neg (by simpa using h)]
      simp only [h, false_implies, true_and]

/-- Where there is a place to take a parameter from, a value is collected. -/
theorem firstValue_of_seekValuesLoop {qs pattern : List UInt8} {fuel p : Nat} {v' : SeekValues}
    (h : seekValuesLoop qs pattern fuel p v = some v') (hv : v.firstValue ≠ none) : v'.firstValue ≠ none := by
  induction fuel generalizing p v with
  | zero =>
    cases h
    exact hv
  | succ fuel ih =>
    rw [seekValuesLoop] at h
    split at h
    · cases h
      exact hv
    dsimp only at h
    split at h
    · cases h
    refine ih h ?_
    rw [SeekValues.add]
    cases hfirst : v.firstValue with
    | none => exact absurd hfirst hv
    | some value => simp

end

/-! ### What is removed -/

section
variable {name param pattern qs : List UInt8} {kept post : List (List UInt8)} {fuel p q r : Nat}

theorem removeSeekLoop_congr (h : next qs pattern p = next qs pattern q) (fuel : Nat) :
    removeSeekLoop pattern fuel qs p = removeSeekLoop pattern fuel qs q := by
  cases fuel with
  | zero => rfl
  | succ fuel => rw [removeSeekLoop, removeSeekLoop, show nextSeekParam qs pattern _ p = _ from h]

/-- A round cuts a parameter out as `extract_query_param` does. -/
theorem removeSeekLoop_round (h : next qs pattern p = some q) :
    removeSeekLoop pattern (fuel + 1) qs p =
      let removed := (removeQueryParam qs q (valueEnd qs q)).text
      if qs[valueEnd qs q]? = some ampersand then removeSeekLoop pattern fuel removed (if q > 1 then q - 1 else q)
      else removed := by
  rw [removeSeekLoop, show nextSeekParam qs pattern _ p = _ from h]
  dsimp only
  rw [removeQueryParam]
  by_cases hamp : qs[valueEnd qs q]? = some ampersand
  · rw [if_pos hamp, if_pos hamp, if_pos hamp, if_pos hamp]
    split_ifs with h1 h2 h2
    · omega
    · rfl
    · rfl
    · obtain rfl : q = 0 := by omega
      rfl
  · rw [if_neg hamp, if_neg hamp, if_neg hamp, if_neg hamp]
    split_ifs with h1 h2
    · rfl
    · rfl
    · obtain rfl : q = 0 := by omega
      rfl

theorem valueEnd_param (hparam : ampersand ∉ param) :
    valueEnd (queryText (kept ++ param :: post)) ((joinedBefore kept).length + 1) =
      (joinedBefore kept).length + 1 + param.length := by
  rw [valueEnd, queryText_drop_succ, takeWhile_joinedAfter hparam]

/-- Without inner places the parameters of the name are removed. -/
theorem removeSeekLoop_eq (hname : IsSeekName name) (hfuel : post.length < fuel) (hsep : ∀ p ∈ post, ampersand ∉ p)
    (hinner : ∀ p ∈ post, ¬ HasName name p → ¬ HasInner name p) (hne : kept ++ post ≠ []) :
    removeSeekLoop (seekPattern name) fuel (queryText (kept ++ post)) (joinedBefore kept).length =
      (ofParams (kept ++ post.filter (¬ HasName name ·))).text := by
  induction post generalizing kept fuel with
  | nil =>
    obtain ⟨fuel, rfl⟩ := Nat.exists_eq_succ_of_ne_zero (Nat.ne_of_gt hfuel)
    rw [List.append_nil] at hne ⊢
    rw [removeSeekLoop, show nextSeekParam _ _ _ _ = none from next_end hname kept, List.filter_nil, List.append_nil,
      ofParams, if_neg hne]
    rfl
  | cons param post ih =>
    have hparam := hsep param (List.mem_cons_self ..)
    have hrest (kept : List (List UInt8)) {fuel : Nat} (hfuel : post.length < fuel) := @ih kept fuel hfuel
      (fun p hp => hsep p (List.mem_cons_of_mem _ hp)) fun p hp => hinner p (List.mem_cons_of_mem _ hp)
    rw [List.length_cons] at hfuel
    by_cases h : HasName name param
    · obtain ⟨fuel, rfl⟩ := Nat.exists_eq_succ_of_ne_zero (show fuel ≠ 0 by omega)
      have hremoved : (removeQueryParam (queryText (kept ++ param :: post)) ((joinedBefore kept).length + 1)
          ((joinedBefore kept).length + 1 + param.length)) = ofParams (kept ++ post) := removeQueryParam_eq kept post param
      rw [removeSeekLoop_round (next_hasName hname hparam h), valueEnd_param hparam, hremoved,
        List.filter_cons_of_neg (by simpa using h)]
      dsimp only
      have hnext : (queryText (kept ++ param :: post))[(joinedBefore kept).length + 1 + param.length]? =
          (joinedAfter post)[0]? := by
        rw [← List.getElem?_drop, queryText_drop_succ, List.getElem?_append_right (Nat.le_refl _), Nat.sub_self]
      by_cases hpost : post = []
      · subst hpost
        rw [hnext, if_neg (by simp [joinedAfter]), List.filter_nil]
      · have hset : (ofParams (kept ++ post)).text = queryText (kept ++ post) := by
          rw [ofParams, if_neg (by simp [hpost])]
          rfl
        have hstep := @hrest kept fuel (by omega) (by simp [hpost])
        rw [hnext, if_pos (by simp [joinedAfter, hpost]), hset, ← hstep]
        split_ifs with hfirst
        · rw [Nat.add_sub_cancel]
        · -- the separator is passed over
          obtain ⟨next, post, rfl⟩ := List.exists_cons_of_ne_nil hpost
          refine (removeSeekLoop_congr (next_congr hname.isSeekPattern (Nat.le_succ _) fun r hr hlt => ?_) fuel).symm
          obtain rfl : r = (joinedBefore kept).length := by omega
          exact not_accepted_sep hname.isSeekPattern kept post next
    · have hstep := @hrest (kept ++ [param]) fuel (by omega) (by simp)
      rw [List.append_assoc, List.singleton_append, List.append_assoc, List.singleton_append] at hstep
      rw [removeSeekLoop_congr (next_not_hasName hname hparam h (hinner param (List.mem_cons_self ..) h)), hstep,
        List.filter_cons_of_pos (by simpa using h)]

/-- What is behind a cut does not matter to what is taken in front of it. -/
theorem Accepted.of_take {rest : List UInt8} (hpattern : IsSeekPattern pattern) (hq : q ≤ qs.length)
    (h : Accepted (qs.take q ++ rest) pattern r) (hr : r < q) (hrest : rest = [] ∨ rest[0]? = some ampersand) :
    Accepted qs pattern r := by
  have hlen : (qs.take q).length = q := List.length_take_of_le hq
  have hat := h.pattern_at
  rw [List.drop_append_of_le_length (by omega)] at hat
  refine ⟨fun hpos => ?_, ?_⟩
  · have hstart := h.start hpos
    rw [List.getElem?_append_left (by omega), List.getElem?_take_of_lt (by omega)] at hstart
    exact hstart
  · -- the match ends in front of the cut
    have hfit : pattern.length ≤ ((qs.take q).drop r).length := by
      by_contra hlong
      rcases hrest with rfl | hamp
      · have := length_of_eqIgnoreCase hat
        rw [List.append_nil, List.length_take] at this
        omega
      · rw [not_startsWithCase_of_getElem (by decide) hpattern.no_sep (Nat.lt_of_not_le hlong)
          (by rw [List.getElem?_append_right (Nat.le_refl _), Nat.sub_self, hamp])] at hat
        cases hat
    rw [startsWithCase, List.take_append_of_le_length hfit] at hat
    rw [startsWithCase, ← hat, List.drop_take, List.take_take, Nat.min_eq_left]
    rw [List.length_drop, hlen] at hfit
    exact hfit

/-- Nothing is left that the loop would take. -/
theorem not_accepted_removeSeekLoop (hpattern : IsSeekPattern pattern) (hfuel : qs.length < fuel)
    (hhead : qs[0]? = some questionMark) (hbefore : ∀ r < p, ¬ Accepted qs pattern r) (r : Nat) :
    ¬ Accepted (removeSeekLoop pattern fuel qs p) pattern r := by
  induction fuel generalizing qs p r with
  | zero => omega
  | succ fuel ih =>
    have hspec := next_spec hpattern qs p
    split at hspec
    · next q hnext =>
      obtain ⟨hle, hq, hfirst⟩ := hspec
      have hfirst' : ∀ r < q, ¬ Accepted qs pattern r := fun r hr =>
        (Nat.lt_or_ge r p).elim (hbefore r) fun hge => hfirst r hge hr
      have hpos : 0 < q := Nat.pos_of_ne_zero fun h0 => not_accepted_zero hpattern hhead (h0 ▸ hq)
      have hlt := hq.lt hpattern
      have hend : q ≤ valueEnd qs q := Nat.le_add_right ..
      rw [removeSeekLoop_round hnext, removeQueryParam]
      dsimp only
      by_cases hamp : qs[valueEnd qs q]? = some ampersand
      · have hendlt := (List.getElem?_eq_some_iff.1 hamp).1
        rw [if_pos hamp, if_pos hamp, if_pos hamp]
        by_cases h1 : q = 1
        · subst h1
          rw [if_pos rfl, if_neg (by omega)]
          have hhead' : (qs.take 1 ++ qs.drop (valueEnd qs 1 + 1))[0]? = some questionMark := by
            rw [List.getElem?_append_left (by rw [List.length_take]; omega), List.getElem?_take_of_lt (by omega), hhead]
          refine ih ?_ hhead' (fun r hr => ?_) r
          · rw [List.length_append, List.length_take, List.length_drop]
            omega
          · obtain rfl : r = 0 := by omega
            exact not_accepted_zero hpattern hhead'
        · rw [if_neg h1, if_pos (by omega)]
          refine ih ?_ ?_ (fun r hr h => ?_) r
          · rw [List.length_append, List.length_take, List.length_drop]
            omega
          · rw [List.getElem?_append_left (by rw [List.length_take]; omega), List.getElem?_take_of_lt (by omega), hhead]
          · refine hfirst' r (by omega) (h.of_take hpattern (by omega) hr (.inr ?_))
            rw [List.getElem?_drop, Nat.add_zero, hamp]
      · rw [if_neg hamp, if_neg hamp, if_neg hamp]
        intro h
        have hin := h.lt hpattern
        split_ifs at h hin
        · cases hin
        · dsimp only at h hin
          rw [List.length_take] at hin
          rw [← List.append_nil (qs.take (q - 1))] at h
          exact hfirst' r (by omega) (h.of_take hpattern (by omega) (by omega) (.inl rfl))
    · next hnext =>
      rw [removeSeekLoop, show nextSeekParam qs pattern _ p = none from hnext]
      exact fun h => (Nat.lt_or_ge r p).elim (fun hlt => hbefore r hlt h) fun hge => hspec r hge h

end

/-! ### The name -/

/-- The name of the first parameter that has it, as it stands there. -/
def firstName (name : List UInt8) (ps : List (List UInt8)) : Option (List UInt8) :=
  (ps.find? (HasName name ·)).map (·.take name.length)

/-- No parameter in front of the first one of the name contains the text that is sought. -/
def Detectable (name : List UInt8) (ps : List (List UInt8)) : Prop :=
  ∀ param ∈ ps.takeWhile (¬ HasName name ·), ¬ ContainsCase (seekPattern name) param

instance Detectable.decidable (name : List UInt8) (ps : List (List UInt8)) : Decidable (Detectable name ps) :=
  inferInstanceAs (Decidable (∀ _ ∈ _, _))

section
variable {name other param pattern : List UInt8} {ps pre post : List (List UInt8)}

theorem containsCase_joinParams (hpattern : IsSeekPattern pattern) :
    ContainsCase pattern (joinParams ps) ↔ ∃ param ∈ ps, ContainsCase pattern param := by
  have hsep : tolower ampersand ∉ pattern.map tolower := fun h => hpattern.no_sep ((mem_map_tolower (by decide)).1 h)
  induction ps with
  | nil =>
    refine iff_of_false (fun h => hpattern.ne_nil ?_) (by simp)
    exact List.map_eq_nil_iff.1 (List.infix_nil.1 h)
  | cons param ps ih =>
    refine Iff.trans ?_ ((or_congr_right ih).trans (List.exists_mem_cons_iff _ param ps).symm)
    rw [joinParams_cons, joinedAfter]
    split_ifs with hnil
    · have hempty : ¬ ContainsCase pattern (joinParams ps) := fun h => by simpa [hnil] using ih.1 h
      rw [List.append_nil, or_iff_left hempty]
    · rw [ContainsCase, List.map_append, List.map_cons, infix_append_cons hsep]
      rfl

theorem containsCase_queryText (hpattern : IsSeekPattern pattern) :
    ContainsCase pattern (queryText ps) ↔ ∃ param ∈ ps, ContainsCase pattern param := by
  have hquestion : tolower questionMark ∉ pattern.map tolower :=
    fun h => hpattern.no_question ((mem_map_tolower (by decide)).1 h)
  have hnil : ¬ pattern.map tolower <:+: [] := fun h => hpattern.ne_nil (List.map_eq_nil_iff.1 (List.infix_nil.1 h))
  rw [← containsCase_joinParams hpattern, ContainsCase, queryText, List.map_cons, ← List.nil_append (_ :: _),
    infix_append_cons hquestion, or_iff_right hnil]
  rfl

/-- The text is found in front of a parameter where it is in an earlier one. -/
theorem exists_match_before (hpattern : IsSeekPattern pattern) (pre post : List (List UInt8)) (param : List UInt8) :
    (∃ k ≤ (joinedBefore pre).length, startsWithCase pattern ((queryText (pre ++ param :: post)).drop k) = true) ↔
      ∃ p ∈ pre, ContainsCase pattern p := by
  by_cases hpre : pre = []
  · subst hpre
    refine iff_of_false ?_ (by simp)
    rintro ⟨k, hk, hat⟩
    obtain rfl : k = 0 := Nat.le_zero.1 hk
    exact @not_accepted_zero (queryText ([] ++ param :: post)) _ hpattern rfl ⟨fun h => absurd h (Nat.lt_irrefl 0), hat⟩
  have hbefore : joinedBefore pre = joinParams pre ++ [ampersand] := if_neg hpre
  have hlen : (queryText pre).length = (joinedBefore pre).length := by
    rw [hbefore, List.length_append, List.length_singleton]
    rfl
  have htext : queryText (pre ++ param :: post) = queryText pre ++ joinedAfter (param :: post) := by
    rw [queryText, joinParams_split, hbefore, joinedAfter, if_neg (by simp), List.append_assoc]
    rfl
  have hdrop (k : Nat) (hk : k ≤ (joinedBefore pre).length) :
      startsWithCase pattern ((queryText (pre ++ param :: post)).drop k) = true ↔
        startsWithCase pattern ((queryText pre).drop k) = true := by
    rw [htext, List.drop_append_of_le_length (by omega), startsWithCase_joinedAfter hpattern.no_sep]
  rw [← containsCase_queryText hpattern]
  constructor
  · rintro ⟨k, hk, hat⟩
    have hprefix := startsWithCase_iff.1 ((hdrop k hk).1 hat)
    rw [List.map_drop] at hprefix
    exact hprefix.isInfix.trans (List.drop_suffix _ _).isInfix
  · intro hcontains
    obtain ⟨k, hk⟩ : ∃ k, strcasestr pattern (queryText pre) = some k :=
      Option.ne_none_iff_exists'.1 fun h => strcasestr_none.1 h hcontains
    obtain ⟨hle, hat, -⟩ := strcasestr_some hk
    exact ⟨k, hlen ▸ hle, (hdrop k (hlen ▸ hle)).2 hat⟩

theorem heuristicSeekName_eq_some (hname : IsSeekName name) (hsep : ∀ p ∈ ps, ampersand ∉ p) {x : List UInt8} :
    heuristicSeekName (queryText ps) name = some x ↔ ∃ pre param post, ps = pre ++ param :: post ∧ HasName name param ∧
      (∀ p ∈ pre, ¬ ContainsCase (seekPattern name) p) ∧ x = param.take name.length := by
  have hpat := hname.isSeekPattern
  have htake (pre post : List (List UInt8)) (param : List UInt8) (h : HasName name param) :
      ((queryText (pre ++ param :: post)).drop ((joinedBefore pre).length + 1)).take name.length =
        param.take name.length := by
    rw [queryText_drop_succ, List.take_append_of_le_length (Nat.le_of_lt h.length_lt)]
  unfold heuristicSeekName
  rw [show name ++ [equalSign] = seekPattern name from rfl]
  constructor
  · intro h
    split at h
    · cases h
    next i hi =>
    split_ifs at h with hstart
    obtain ⟨-, hat, hbefore⟩ := strcasestr_some hi
    have hnil : ps ≠ [] := by
      rintro rfl
      have hcontains : ContainsCase (seekPattern name) (queryText []) := by
        by_contra hnot
        rw [strcasestr_none.2 hnot] at hi
        cases hi
      obtain ⟨p, hp, -⟩ := (containsCase_queryText hpat).1 hcontains
      cases hp
    have hhit : Hit name (queryText ps) i := by
      obtain ⟨hat, hequal⟩ := startsWithCase_append_equal.1 hat
      exact ⟨hstart, hat, by rwa [List.getElem?_drop] at hequal⟩
    obtain ⟨pre, param, post, rfl, rfl, hparam⟩ := (hit_iff hname.isParamName hsep hnil).1 hhit
    refine ⟨pre, param, post, rfl, hparam, fun p hp hcontains => ?_, ?_⟩
    · obtain ⟨k, hk, hmatch⟩ := (exists_match_before hpat pre post param).2 ⟨p, hp, hcontains⟩
      rw [hbefore k (Nat.lt_succ_of_le hk)] at hmatch
      cases hmatch
    · rw [← Option.some.inj h, htake pre post param hparam]
  · rintro ⟨pre, param, post, rfl, hparam, hbefore, rfl⟩
    have hacc : Accepted (queryText (pre ++ param :: post)) (seekPattern name) ((joinedBefore pre).length + 1) :=
      accepted_param hname (hsep param (List.mem_append_right _ (List.mem_cons_self ..))) hparam
    have hstart := ((hit_iff hname.isParamName hsep (by simp)).2 ⟨pre, param, post, rfl, rfl, hparam⟩).start
    cases hfind : strcasestr (seekPattern name) (queryText (pre ++ param :: post)) with
    | none =>
      refine absurd ((containsCase_queryText hpat).2 ⟨param, by simp, ?_⟩) (strcasestr_none.1 hfind)
      have hat := (hasName_iff_startsWithCase hname.isParamName
        (hsep param (List.mem_append_right _ (List.mem_cons_self ..)))).1 hparam
      exact (startsWithCase_iff.1 hat).isInfix
    | some i =>
      obtain ⟨-, hat, hfirst⟩ := strcasestr_some hfind
      have hle : i ≤ (joinedBefore pre).length + 1 := by
        by_contra hlt
        have hmiss := hfirst _ (Nat.lt_of_not_le hlt)
        rw [hacc.pattern_at] at hmiss
        cases hmiss
      have hgt : ¬ i ≤ (joinedBefore pre).length := fun hi => by
        obtain ⟨p, hp, hcontains⟩ := (exists_match_before hpat pre post param).1 ⟨i, hi, hat⟩
        exact hbefore p hp hcontains
      obtain rfl : i = (joinedBefore pre).length + 1 := by omega
      dsimp only
      rw [if_pos, htake pre post param hparam]
      exact hstart

/-- A parameter of the name contains the text. -/
theorem containsCase_of_hasName (hname : IsParamName name) (hparam : ampersand ∉ param) (h : HasName name param) :
    ContainsCase (seekPattern name) param :=
  (startsWithCase_iff.1 ((hasName_iff_startsWithCase hname hparam).1 h)).isInfix

/-- The detection finds the name of the first parameter if it is detectable. -/
theorem heuristicSeekName_eq (hname : IsSeekName name) (hsep : ∀ p ∈ ps, ampersand ∉ p) :
    heuristicSeekName (queryText ps) name = if Detectable name ps then firstName name ps else none := by
  refine Option.ext fun x => ?_
  rw [heuristicSeekName_eq_some hname hsep]
  rcases first_cases name ps with h | ⟨pre, param, post, rfl, hparam, hpre⟩
  · have hfirst : firstName name ps = none := by
      rw [firstName, List.find?_eq_none.2 fun p hp => by simpa using h p hp]
      rfl
    rw [hfirst, ite_self]
    refine iff_of_false ?_ (by simp)
    rintro ⟨pre, param, post, rfl, hparam, -⟩
    exact h param (List.mem_append_right _ (List.mem_cons_self ..)) hparam
  · have hfirst : firstName name (pre ++ param :: post) = some (param.take name.length) := by
      rw [firstName, List.find?_append, List.find?_eq_none.2 fun p hp => by simpa using hpre p hp, Option.none_or,
        List.find?_cons_of_pos (by simpa using hparam)]
      rfl
    have htake : (pre ++ param :: post).takeWhile (¬ HasName name ·) = pre := by
      rw [List.takeWhile_append_of_pos fun p hp => by simpa using hpre p hp,
        List.takeWhile_cons_of_neg (by simpa using hparam), List.append_nil]
    have hdetect : Detectable name (pre ++ param :: post) ↔ ∀ p ∈ pre, ¬ ContainsCase (seekPattern name) p := by
      unfold Detectable
      rw [htake]
    rw [hfirst]
    constructor
    · rintro ⟨pre', param', post', heq, hparam', hbefore, rfl⟩
      -- a parameter of the name contains the text, so that none is in front
      obtain ⟨rfl, rfl, -⟩ : pre' = pre ∧ param' = param ∧ post' = post := by
        rcases List.append_eq_append_iff.1 heq with ⟨mid, rfl, hmid⟩ | ⟨mid, rfl, hmid⟩
        · cases mid with
          | nil =>
            obtain ⟨rfl, rfl⟩ := List.cons.inj hmid
            exact ⟨(List.append_nil _).symm ▸ rfl, rfl, rfl⟩
          | cons a mid =>
            obtain ⟨rfl, -⟩ := List.cons.inj hmid
            refine absurd (containsCase_of_hasName hname.isParamName ?_ hparam) (hbefore _ (by simp))
            exact hsep param (List.mem_append_right _ (List.mem_cons_self ..))
        · cases mid with
          | nil =>
            obtain ⟨rfl, rfl⟩ := List.cons.inj hmid
            exact ⟨(List.append_nil _).symm ▸ rfl, rfl, rfl⟩
          | cons a mid =>
            obtain ⟨rfl, -⟩ := List.cons.inj hmid
            exact absurd hparam' (hpre _ (by simp))
      rw [if_pos (hdetect.2 hbefore)]
    · intro h
      split_ifs at h with hbefore
      exact ⟨pre, param, post, rfl, hparam, hdetect.1 hbefore, (Option.some.inj h).symm⟩

end

/-! ### What is returned -/

/-- The parameters without those that control the seek. -/
def seekParams (s : List UInt8) : List (List UInt8) :=
  ((paramsOf s).filter (¬ HasName (str "r2h-seek-offset") ·)).filter (¬ HasName (str "r2h-seek-mode") ·)

/-- The name to select: `playseek` if a parameter has it, or else `tvdr`. -/
def selectedName (ps : List (List UInt8)) : Option (List UInt8) :=
  (firstName (str "playseek") ps).or (firstName (str "tvdr") ps)

/-- The right name is selected, with the value of the first parameter without braces or of the first one, and no other
parameter is taken out. -/
def SeeksExactly (s : List UInt8) : Prop :=
  let ps := seekParams s
  let r := serviceExtractSeekParams (questionMark :: s)
  match selectedName ps with
  | none => r.result = 0 ∧ r.seekParamName = none ∧ r.seekParamValue = none ∧ r.text = (ofParams ps).text
  | some name => r.result = 0 ∧ r.seekParamName = some name ∧
      r.seekParamValue = chosenValue ((ps.filter (HasName name ·)).filterMap (decodedValue name)) ∧
      r.text = (ofParams (ps.filter (¬ HasName name ·))).text

/-- Every value can be decoded, no parameter in front contains the text that is sought, and none has it behind a `?`. -/
def SeekUnambiguous (s : List UInt8) : Prop :=
  let ps := seekParams s
  match selectedName ps with
  | none => True
  | some name => (∀ param ∈ ps, HasName name param → decodedValue name param ≠ none) ∧
      Detectable name ps ∧ ∀ param ∈ ps, ¬ HasName name param → ¬ HasInner name param

section
variable {name other param s x : List UInt8} {ps : List (List UInt8)}

theorem isSeekName_playseek : IsSeekName (str "playseek") := ⟨by decide, by decide, by decide⟩

theorem isSeekName_tvdr : IsSeekName (str "tvdr") := ⟨by decide, by decide, by decide⟩

/-- A name in another case. -/
theorem IsSeekName.of_eqIgnoreCase (hname : IsSeekName name) (h : eqIgnoreCase x name = true) : IsSeekName x where
  isParamName := ⟨fun hm => hname.isParamName.1 ((mem_of_eqIgnoreCase (by decide) h).1 hm),
    fun hm => hname.isParamName.2 ((mem_of_eqIgnoreCase (by decide) h).1 hm)⟩
  ne_nil hnil := hname.ne_nil (List.eq_nil_of_length_eq_zero (by rw [← length_of_eqIgnoreCase h, hnil]; rfl))
  no_question hm := hname.no_question ((mem_of_eqIgnoreCase (by decide) h).1 hm)

theorem hasName_congr (h : eqIgnoreCase x name = true) : HasName x param ↔ HasName name param := by
  have heq : x.map tolower = name.map tolower := of_decide_eq_true h
  unfold HasName CString.eqIgnoreCase
  rw [heq]

theorem detectable_congr (h : eqIgnoreCase x name = true) : Detectable x ps ↔ Detectable name ps := by
  have heq : x.map tolower = name.map tolower := of_decide_eq_true h
  unfold Detectable
  simp only [hasName_congr h, ContainsCase, seekPattern, List.map_append, heq]

theorem firstName_some (hname : IsSeekName name) (h : firstName name ps = some x) :
    eqIgnoreCase x name = true ∧ ∃ param ∈ ps, HasName name param := by
  obtain ⟨param, hfind, rfl⟩ := Option.map_eq_some_iff.1 h
  have hparam : HasName name param := by simpa using List.find?_some hfind
  refine ⟨?_, param, List.mem_of_find?_eq_some hfind, hparam⟩
  obtain ⟨n, rest, rfl, heq⟩ := (hasName_iff hname.isParamName.2).1 hparam
  rwa [← length_of_eqIgnoreCase heq, List.take_left' rfl]

/-- What is selected is found if it is detectable, and nothing has its name otherwise. -/
theorem selectedName_cases (h : selectedName ps = some x) (hsep : ∀ p ∈ ps, ampersand ∉ p) :
    IsSeekName x ∧ x.length ≤ 8 ∧ (∃ param ∈ ps, HasName x param) ∧
      ((heuristicSeekName (queryText ps) (str "playseek")).or (heuristicSeekName (queryText ps) (str "tvdr")) = some x ↔
        Detectable x ps) := by
  rw [heuristicSeekName_eq isSeekName_playseek hsep, heuristicSeekName_eq isSeekName_tvdr hsep]
  rw [selectedName] at h
  cases hplayseek : firstName (str "playseek") ps with
  | some y =>
    rw [hplayseek, Option.some_or] at h
    obtain rfl := Option.some.inj h
    obtain ⟨heq, param, hmem, hparam⟩ := firstName_some isSeekName_playseek hplayseek
    have hlen : y.length = 8 := length_of_eqIgnoreCase heq
    refine ⟨isSeekName_playseek.of_eqIgnoreCase heq, hlen.le, ⟨param, hmem, (hasName_congr heq).2 hparam⟩, ?_⟩
    rw [detectable_congr heq]
    constructor
    · intro hfound
      by_contra hnot
      rw [if_neg hnot, Option.none_or] at hfound
      split_ifs at hfound
      -- the other name is shorter
      have hlen' := length_of_eqIgnoreCase (firstName_some isSeekName_tvdr hfound).1
      rw [hlen] at hlen'
      exact absurd hlen' (by decide)
    · intro hdetect
      rw [if_pos hdetect, Option.some_or]
  | none =>
    rw [hplayseek, Option.none_or] at h
    obtain ⟨heq, param, hmem, hparam⟩ := firstName_some isSeekName_tvdr h
    have hlen : x.length = 4 := length_of_eqIgnoreCase heq
    refine ⟨isSeekName_tvdr.of_eqIgnoreCase heq, by omega, ⟨param, hmem, (hasName_congr heq).2 hparam⟩, ?_⟩
    rw [ite_self, Option.none_or, detectable_congr heq, h]
    constructor
    · intro hfound
      split_ifs at hfound with hdetect
      exact hdetect
    · exact fun hdetect => if_pos hdetect

/-- What taking a control parameter out leaves. -/
theorem extractQueryParam_query (hname : IsParamName name) (hne : name ≠ []) {outSize : Nat} (hsize : 0 < outSize)
    (hsep : ∀ p ∈ ps, ampersand ∉ p) :
    (extractQueryParam (ofParams ps) name outSize).query = ofParams (ps.filter (¬ HasName name ·)) := by
  by_cases hnil : ps = []
  · subst hnil
    rw [extractQueryParam, if_pos (.inl (by simp [ofParams]))]
    rfl
  · have heq := extractQueryParam_eq (s := joinParams ps) hname hne hsize
    rw [paramsOf_joinParams hsep hnil] at heq
    rw [ofParams, if_neg hnil, heq]
    dsimp only
    split
    · rfl
    split
    · rfl
    split <;> rfl

theorem paramsOf_ne_nil (s : List UInt8) : paramsOf s ≠ [] := by
  intro h
  rcases sep_cases ampersand s with hsep | ⟨param, rest, rfl, hsep⟩
  · rw [paramsOf_no_sep hsep] at h
    cases h
  · rw [paramsOf_sep hsep] at h
    cases h

theorem ampersand_not_mem_seekParams : ∀ p ∈ seekParams s, ampersand ∉ p := fun p hp =>
  ampersand_not_mem_paramsOf s p (List.mem_of_mem_filter (List.mem_of_mem_filter hp))

/-- What is done without a given name, in terms of the parameters. -/
theorem serviceExtractSeekParams_eq (hno : ∀ param ∈ paramsOf s, ¬ HasName (str "r2h-seek-name") param) :
    ∃ offsetText modeText, serviceExtractSeekParams (questionMark :: s) =
      let ps := seekParams s
      let text := (ofParams ps).text
      if ps = [] then ⟨text, offsetText, modeText, none, none, 0⟩
      else match (heuristicSeekName text (str "playseek")).or (heuristicSeekName text (str "tvdr")) with
        | none => ⟨text, offsetText, modeText, none, none, 0⟩
        | some name =>
          match extractSeekValue text name with
          | none => ⟨text, none, none, none, none, -1⟩
          | some (text, value) => ⟨text, offsetText, modeText, some name, value, 0⟩ := by
  have hstart : (⟨questionMark :: s, true⟩ : QueryString) = ofParams (paramsOf s) := by
    rw [ofParams, if_neg (paramsOf_ne_nil s), show joinParams (paramsOf s) = s from List.intercalate_splitOn ampersand]
  have hseekName : extractQueryParam ⟨questionMark :: s, true⟩ (str "r2h-seek-name") 128 =
      ⟨ofParams (paramsOf s), none, 0⟩ := by
    rw [extractQueryParam_eq (by decide) (by decide) (by decide),
      List.find?_eq_none.2 fun p hp => by simpa using hno p hp,
      List.filter_eq_self.2 fun p hp => by simpa using hno p hp]
  have hoffset : (extractQueryParam (ofParams (paramsOf s)) (str "r2h-seek-offset") 32).query =
      ofParams ((paramsOf s).filter (¬ HasName (str "r2h-seek-offset") ·)) :=
    extractQueryParam_query (by decide) (by decide) (by decide) (ampersand_not_mem_paramsOf s)
  have hmode : (extractQueryParam (ofParams ((paramsOf s).filter (¬ HasName (str "r2h-seek-offset") ·)))
      (str "r2h-seek-mode") 96).query = ofParams (seekParams s) :=
    extractQueryParam_query (by decide) (by decide) (by decide) fun p hp =>
      ampersand_not_mem_paramsOf s p (List.mem_of_mem_filter hp)
  rw [serviceExtractSeekParams, if_neg (by simp)]
  dsimp only
  rw [hseekName]
  dsimp only
  rw [hoffset, hmode]
  generalize (extractQueryParam (ofParams (paramsOf s)) (str "r2h-seek-offset") 32).value = offsetText
  generalize (extractQueryParam _ (str "r2h-seek-mode") 96).value = modeText
  refine ⟨offsetText, modeText, ?_⟩
  rw [show Extracted.value ⟨ofParams (paramsOf s), none, 0⟩ = none from rfl, Service.seekParamName]
  by_cases hnil : seekParams s = []
  · rw [hnil]
    rfl
  · have hset : (ofParams (seekParams s)).isSet = true := by rw [ofParams, if_neg hnil]
    rw [if_pos hset, if_neg hnil]
    cases (heuristicSeekName (ofParams (seekParams s)).text (str "playseek")).or
      (heuristicSeekName (ofParams (seekParams s)).text (str "tvdr")) with
    | none => rfl
    | some name =>
      dsimp only
      rw [if_pos hset]

theorem searchPattern_eq (hlen : name.length ≤ 8) : (name ++ [equalSign]).take 127 = seekPattern name :=
  List.take_of_length_le (by rw [List.length_append, List.length_singleton]; omega)

/-- Without inner places the value and the rest are those of the parameters. -/
theorem extractSeekValue_eq (hname : IsSeekName name) (hlen : name.length ≤ 8) (hsep : ∀ p ∈ ps, ampersand ∉ p)
    (hexists : ∃ param ∈ ps, HasName name param) (hinner : ∀ p ∈ ps, ¬ HasName name p → ¬ HasInner name p)
    (hdecode : ∀ p ∈ ps, HasName name p → decodedValue name p ≠ none) :
    extractSeekValue (queryText ps) name = some ((ofParams (ps.filter (¬ HasName name ·))).text,
      chosenValue ((ps.filter (HasName name ·)).filterMap (decodedValue name))) := by
  obtain ⟨param, hmem, hparam⟩ := hexists
  have hlong := length_le_joinParams ps
  have hfuel : ps.length < (queryText ps).length + 1 := by
    rw [queryText, List.length_cons]
    omega
  have hvalues : seekValuesLoop (queryText ps) (seekPattern name) ((queryText ps).length + 1) 0 ⟨none, none⟩ =
      some (((ps.filter (HasName name ·)).filterMap (decodedValue name)).foldl SeekValues.add ⟨none, none⟩) :=
    (@seekValuesLoop_eq name [] ps _ hname _ hfuel hsep hinner).trans (if_pos hdecode)
  have hremove : removeSeekLoop (seekPattern name) ((queryText ps).length + 1) (queryText ps) 0 =
      (ofParams (ps.filter (¬ HasName name ·))).text :=
    @removeSeekLoop_eq name [] ps _ hname hfuel hsep hinner (List.ne_nil_of_mem hmem)
  rw [extractSeekValue, searchPattern_eq hlen]
  rw [hvalues, foldl_add]
  dsimp only
  obtain ⟨value, hvalue⟩ := Option.ne_none_iff_exists'.1 (hdecode param hmem hparam)
  have hin : value ∈ (ps.filter (HasName name ·)).filterMap (decodedValue name) :=
    List.mem_filterMap.2 ⟨param, List.mem_filter.2 ⟨hmem, by simpa using hparam⟩, hvalue⟩
  rw [chosenValue]
  cases hchosen : ((ps.filter (HasName name ·)).filterMap (decodedValue name)).find? (BraceFree ·) <|>
      ((ps.filter (HasName name ·)).filterMap (decodedValue name)).head? with
  | none =>
    have hhead := (Option.or_eq_none_iff.1 ((Option.orElse_eq_or ..).symm.trans hchosen)).2
    rw [List.head?_eq_none_iff] at hhead
    rw [hhead] at hin
    cases hin
  | some chosen =>
    simp only [Option.orElse_eq_orElse, Option.orElse_none] at hchosen ⊢
    rw [hchosen]
    dsimp only
    rw [hremove]

/-- A value that cannot be decoded makes the function fail. -/
theorem extractSeekValue_none (hname : IsSeekName name) (hlen : name.length ≤ 8) (hsep : ∀ p ∈ ps, ampersand ∉ p)
    (hinner : ∀ p ∈ ps, ¬ HasName name p → ¬ HasInner name p)
    (hdecode : ¬ ∀ p ∈ ps, HasName name p → decodedValue name p ≠ none) :
    extractSeekValue (queryText ps) name = none := by
  have hlong := length_le_joinParams ps
  have hfuel : ps.length < (queryText ps).length + 1 := by
    rw [queryText, List.length_cons]
    omega
  have hvalues : seekValuesLoop (queryText ps) (seekPattern name) ((queryText ps).length + 1) 0 ⟨none, none⟩ = none :=
    (@seekValuesLoop_eq name [] ps _ hname _ hfuel hsep hinner).trans (if_neg hdecode)
  rw [extractSeekValue, searchPattern_eq hlen, hvalues]

/-- Where a parameter of another name has an inner place, it is taken out too, or a value is not decoded. -/
theorem extractSeekValue_ne (hname : IsSeekName name) (hlen : name.length ≤ 8) (hmem : param ∈ ps)
    (hnot : ¬ HasName name param) (hinner : HasInner name param) (value : Option (List UInt8)) :
    extractSeekValue (queryText ps) name ≠ some ((ofParams (ps.filter (¬ HasName name ·))).text, value) := by
  intro h
  have hpat := hname.isSeekPattern
  have haccepted (ps : List (List UInt8)) (hmem : param ∈ ps) :
      ∃ r, Accepted (queryText ps) (seekPattern name) r := by
    obtain ⟨pre, post, rfl⟩ := List.append_of_mem hmem
    exact exists_accepted_of_hasInner hname hinner
  have hkept : param ∈ ps.filter (¬ HasName name ·) := List.mem_filter.2 ⟨hmem, by simpa using hnot⟩
  rw [extractSeekValue, searchPattern_eq hlen] at h
  cases hvalues : seekValuesLoop (queryText ps) (seekPattern name) ((queryText ps).length + 1) 0 ⟨none, none⟩ with
  | none =>
    rw [hvalues] at h
    cases h
  | some v =>
    have hfirst : v.firstValue ≠ none := by
      obtain ⟨r, hr⟩ := haccepted ps hmem
      have hspec := next_spec hpat (queryText ps) 0
      rw [seekValuesLoop] at hvalues
      split at hvalues
      · next hnext =>
        rw [show next (queryText ps) (seekPattern name) 0 = none from hnext] at hspec
        exact absurd hr (hspec r (Nat.zero_le r))
      dsimp only at hvalues
      split at hvalues
      · cases hvalues
      · exact firstValue_of_seekValuesLoop hvalues (by simp [SeekValues.add])
    obtain ⟨first, hfirst⟩ := Option.ne_none_iff_exists'.1 hfirst
    obtain ⟨chosen, hchosen⟩ : ∃ chosen, (v.selectedValue <|> v.firstValue) = some chosen := by
      cases hselected : v.selectedValue with
      | none => exact ⟨first, by simpa using hfirst⟩
      | some chosen => exact ⟨chosen, by simp⟩
    rw [hvalues] at h
    dsimp only at h
    rw [hchosen] at h
    have htext := congrArg Prod.fst (Option.some.inj h)
    obtain ⟨r, hr⟩ := haccepted _ hkept
    have hleft := @not_accepted_removeSeekLoop _ (queryText ps) _ 0 hpat (Nat.lt_succ_self _) rfl
      (fun r hr => absurd hr (Nat.not_lt_zero r)) r
    rw [show removeSeekLoop _ _ _ 0 = _ from htext, ofParams, if_neg (List.ne_nil_of_mem hkept)] at hleft
    exact hleft hr

/-- The seek parameter is dealt with exactly where the places that are taken are those of the parameters. -/
theorem serviceExtractSeekParams_exact_iff (s : List UInt8)
    (hno : ∀ param ∈ paramsOf s, ¬ HasName (str "r2h-seek-name") param) : SeeksExactly s ↔ SeekUnambiguous s := by
  obtain ⟨offsetText, modeText, hr⟩ := serviceExtractSeekParams_eq hno
  have hsep : ∀ p ∈ seekParams s, ampersand ∉ p := ampersand_not_mem_seekParams
  unfold SeeksExactly SeekUnambiguous
  dsimp only at hr ⊢
  rw [hr]
  generalize seekParams s = ps at hsep
  cases hselected : selectedName ps with
  | none =>
    refine iff_of_true ?_ trivial
    obtain ⟨hplayseek, htvdr⟩ := Option.or_eq_none_iff.1 hselected
    by_cases hnil : ps = []
    · rw [if_pos hnil]
      exact ⟨rfl, rfl, rfl, rfl⟩
    · have htext : (ofParams ps).text = queryText ps := by rw [ofParams, if_neg hnil]; rfl
      rw [if_neg hnil, htext, heuristicSeekName_eq isSeekName_playseek hsep, heuristicSeekName_eq isSeekName_tvdr hsep,
        hplayseek, htvdr, ite_self, ite_self]
      exact ⟨rfl, rfl, rfl, rfl⟩
  | some name =>
    obtain ⟨hname, hlen, hexists, hfound⟩ := selectedName_cases hselected hsep
    have hnil : ps ≠ [] := fun h => by
      obtain ⟨param, hmem, -⟩ := hexists
      rw [h] at hmem
      cases hmem
    have htext : (ofParams ps).text = queryText ps := by rw [ofParams, if_neg hnil]; rfl
    rw [if_neg hnil, htext]
    constructor
    · rintro ⟨-, hseekName, -, hleft⟩
      -- the name returned is the one found
      split at hseekName
      · cases hseekName
      next found hheuristic =>
      rw [hheuristic] at hleft
      dsimp only at hseekName hleft
      cases hvalue : extractSeekValue (queryText ps) found with
      | none =>
        rw [hvalue] at hseekName
        cases hseekName
      | some result =>
        rw [hvalue] at hseekName hleft
        obtain rfl : found = name := Option.some.inj hseekName
        have hinner : ∀ param ∈ ps, ¬ HasName found param → ¬ HasInner found param := fun param hmem hnot hinner =>
          extractSeekValue_ne hname hlen hmem hnot hinner result.2 (hvalue.trans (congrArg some (Prod.ext hleft rfl)))
        refine ⟨?_, hfound.1 hheuristic, hinner⟩
        by_contra hdecode
        rw [extractSeekValue_none hname hlen hsep hinner hdecode] at hvalue
        cases hvalue
    · rintro ⟨hdecode, hdetect, hinner⟩
      rw [hfound.2 hdetect]
      dsimp only
      rw [extractSeekValue_eq hname hlen hsep hexists hinner hdecode]
      exact ⟨rfl, rfl, rfl, rfl⟩

end

/-- A name that is taken from an escaped text, a template to pass over, and an empty parameter. -/
theorem serviceExtractSeekParams_exact_iff_example : SeeksExactly (str "a=1&Playseek=\x7bb\x7d&&PLAYSEEK=%32") :=
  (serviceExtractSeekParams_exact_iff (str "a=1&Playseek=\x7bb\x7d&&PLAYSEEK=%32") (by decide +kernel)).2 (by
    have hselected : selectedName (seekParams (str "a=1&Playseek=\x7bb\x7d&&PLAYSEEK=%32")) = some (str "Playseek") := by
      decide +kernel
    unfold SeekUnambiguous
    dsimp only
    rw [hselected]
    refine ⟨?_, ?_, ?_⟩ <;> decide +kernel)

/-- The text of the name behind another one hides the parameter. -/
theorem serviceExtractSeekParams_hidden :
    (∀ param ∈ paramsOf (str "xplayseek=1&playseek=2"), ¬ HasName (str "r2h-seek-name") param) ∧
      ¬ SeeksExactly (str "xplayseek=1&playseek=2") := by
  refine ⟨by decide +kernel, fun h => ?_⟩
  have hselected : selectedName (seekParams (str "xplayseek=1&playseek=2")) = some (str "playseek") :=
    by decide +kernel
  have hname : (serviceExtractSeekParams (questionMark :: str "xplayseek=1&playseek=2")).seekParamName = none := by
    decide +kernel
  unfold SeeksExactly at h
  dsimp only at h
  rw [hselected] at h
  have hfound := h.2.1
  rw [hname] at hfound
  cases hfound

end Rtp2httpd.Service
