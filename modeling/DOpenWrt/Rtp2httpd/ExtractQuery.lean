import DOpenWrt.Rtp2httpd.HttpQuery

/-!
# Taking control parameters out of a query (`service.c`)

`extract_query_param` looks for a parameter with `strcasestr` and cuts it out in place, with every later one of the
name. In terms of the parameters it takes out those of the name.
-/

namespace Rtp2httpd
open CString

namespace Service

/-! ### The source -/

/-- What is at the place of the `?`, and whether the pointer to it is set. -/
structure QueryString where
  text : List UInt8
  isSet : Bool
deriving DecidableEq, Repr

def removeQueryParam (qs : List UInt8) (paramStart valueEnd : Nat) : QueryString :=
  if paramStart = 1 then
    if qs[valueEnd]? = some ampersand then ⟨qs.take 1 ++ qs.drop (valueEnd + 1), true⟩
    else ⟨[], false⟩
  else
    let amp := paramStart - 1
    if qs[valueEnd]? = some ampersand then ⟨qs.take amp ++ qs.drop valueEnd, true⟩
    else ⟨qs.take amp, true⟩

/-- The loop of `find_query_param` at `p`. -/
def findQueryParamLoop (qs paramName : List UInt8) : Nat → Nat → Option Nat
  | 0, _ => none
  | fuel + 1, p =>
    match strcasestr paramName (qs.drop p) with
    | none => none
    | some i =>
      let p := p + i
      if (p = 1 ∨ p > 0 ∧ qs[p - 1]? = some ampersand) ∧ qs[p + paramName.length]? = some equalSign then some p
      else findQueryParamLoop qs paramName fuel (p + 1)

def findQueryParam (qs paramName : List UInt8) : Option Nat :=
  -- a round goes on by a byte at least
  findQueryParamLoop qs paramName (qs.length + 1) 0

/-- Where the value from `valueStart` on ends. -/
def valueEnd (qs : List UInt8) (valueStart : Nat) : Nat :=
  valueStart + ((qs.drop valueStart).takeWhile (· ≠ ampersand)).length

/-- The loop that strips the duplicates. -/
def stripDuplicates (paramName : List UInt8) : Nat → QueryString → QueryString
  | 0, q => q
  | fuel + 1, q =>
    if ¬ q.isSet then q
    else match findQueryParam q.text paramName with
      | none => q
      | some dup =>
        stripDuplicates paramName fuel (removeQueryParam q.text dup (valueEnd q.text (dup + paramName.length + 1)))

/-- The query, what is in the buffer in front of the terminator, if anything was written, and the result. -/
structure Extracted where
  query : QueryString
  outValue : Option (List UInt8)
  result : Int
deriving DecidableEq, Repr

def extractQueryParam (q : QueryString) (paramName : List UInt8) (outSize : Nat) : Extracted :=
  if ¬ q.isSet ∨ outSize = 0 then ⟨q, none, 0⟩
  else match findQueryParam q.text paramName with
    | none => ⟨q, none, 0⟩
    | some start =>
      let valueStart := start + paramName.length + 1
      let value := (q.text.drop valueStart).takeWhile (· ≠ ampersand)
      let removed := removeQueryParam q.text start (valueEnd q.text valueStart)
      -- a round removes a byte at least
      let q := stripDuplicates paramName (removed.text.length + 1) removed
      if value.length ≥ outSize then ⟨q, some [], -1⟩
      else match httpUrlDecode value with
        | none => ⟨q, some [], -1⟩
        | some outValue => ⟨q, some outValue, 1⟩

/-! ### Where parameters stand -/

/-- The query with these parameters: none at all is no query. -/
def ofParams (ps : List (List UInt8)) : QueryString :=
  if ps = [] then ⟨[], false⟩ else ⟨questionMark :: joinParams ps, true⟩

section
variable {name param s : List UInt8} {ps pre post : List (List UInt8)} {i j p q : Nat}

/-- What is behind a parameter. -/
def joinedAfter (post : List (List UInt8)) : List UInt8 := if post = [] then [] else ampersand :: joinParams post

theorem joinParams_cons (param : List UInt8) (post : List (List UInt8)) :
    joinParams (param :: post) = param ++ joinedAfter post := by
  unfold joinedAfter
  split
  · next h =>
    rw [h]
    simp [joinParams]
  · next h =>
    rw [joinParams, joinParams, List.intercalate_cons_of_ne_nil h]
    simp

theorem takeWhile_joinedAfter (h : ampersand ∉ s) (post : List (List UInt8)) :
    (s ++ joinedAfter post).takeWhile (· ≠ ampersand) = s := by
  unfold joinedAfter
  split
  · rw [List.append_nil, takeWhile_no_sep h]
  · exact takeWhile_sep h _

theorem length_joinedBefore_le (h : pre <+: ps) : (joinedBefore pre).length ≤ (joinedBefore ps).length := by
  obtain ⟨post, rfl⟩ := h
  rw [length_joinedBefore, length_joinedBefore, List.map_append, List.sum_append]
  omega

/-- A place behind a separator, or the first, is where a parameter begins. -/
theorem exists_param_at (hps : ∀ param ∈ ps, ampersand ∉ param) (hne : ps ≠ []) (hi : i ≤ (joinParams ps).length)
    (hstart : i = 0 ∨ i > 0 ∧ (joinParams ps)[i - 1]? = some ampersand) :
    ∃ pre param post, ps = pre ++ param :: post ∧ i = (joinedBefore pre).length := by
  induction ps generalizing i with
  | nil => exact absurd rfl hne
  | cons param ps ih =>
    have hparam := hps param (List.mem_cons_self ..)
    have hrest := fun p hp => hps p (List.mem_cons_of_mem param hp)
    rcases hstart with rfl | ⟨hpos, hsep⟩
    · exact ⟨[], param, ps, rfl, rfl⟩
    -- the separator is not in the first parameter
    have hbehind : param.length ≤ i - 1 := by
      by_contra hlt
      rw [joinParams_cons, List.getElem?_append_left (by omega)] at hsep
      exact hparam (List.mem_of_getElem? hsep)
    rw [joinParams_cons, joinedAfter] at hsep hi
    by_cases hnil : ps = []
    · rw [if_pos hnil, List.append_nil, List.getElem?_eq_none hbehind] at hsep
      cases hsep
    · rw [if_neg hnil] at hsep hi
      rw [List.length_append, List.length_cons] at hi
      rw [List.getElem?_append_right hbehind] at hsep
      have hstart : i - param.length - 1 = 0 ∨
          i - param.length - 1 > 0 ∧ (joinParams ps)[i - param.length - 1 - 1]? = some ampersand := by
        rcases Nat.eq_zero_or_pos (i - param.length - 1) with h0 | hpos'
        · exact .inl h0
        · refine .inr ⟨hpos', ?_⟩
          rw [show i - 1 - param.length = (i - param.length - 1 - 1) + 1 by omega, List.getElem?_cons_succ] at hsep
          exact hsep
      obtain ⟨pre, param', post, rfl, hlen⟩ := ih hrest hnil (by omega) hstart
      refine ⟨param :: pre, param', post, rfl, ?_⟩
      rw [joinedBefore_cons, List.length_append, List.length_cons, ← hlen]
      omega

/-! ### What is found -/

/-- What `find_query_param` looks for at `p`. -/
structure Hit (name qs : List UInt8) (p : Nat) : Prop where
  start : p = 1 ∨ p > 0 ∧ qs[p - 1]? = some ampersand
  name_at : startsWithCase name (qs.drop p) = true
  equal : qs[p + name.length]? = some equalSign

theorem startsWithCase_nil (hname : name ≠ []) : startsWithCase name [] = false := by
  rw [Bool.eq_false_iff]
  intro h
  have := length_of_eqIgnoreCase h
  rw [List.take_nil, List.length_nil] at this
  exact hname (List.eq_nil_of_length_eq_zero this.symm)

/-- The loop finds the first hit from `p` on. -/
theorem findQueryParamLoop_spec (qs : List UInt8) {fuel : Nat} (hname : name ≠ []) (hfuel : qs.length < p + fuel) :
    match findQueryParamLoop qs name fuel p with
    | some q => p ≤ q ∧ Hit name qs q ∧ ∀ r, p ≤ r → r < q → ¬ Hit name qs r
    | none => ∀ r, p ≤ r → ¬ Hit name qs r := by
  induction fuel generalizing p with
  | zero =>
    rw [findQueryParamLoop]
    intro r hr h
    have := h.name_at
    rw [List.drop_eq_nil_of_le (by omega), startsWithCase_nil hname] at this
    cases this
  | succ fuel ih =>
    rw [findQueryParamLoop]
    cases hfind : strcasestr name (qs.drop p) with
    | none =>
      have hnone := strcasestr_none.1 hfind
      intro r hr h
      refine hnone ?_
      obtain ⟨k, rfl⟩ := Nat.exists_eq_add_of_le hr
      have hat := startsWithCase_iff.1 h.name_at
      rw [← List.drop_drop, List.map_drop] at hat
      exact hat.isInfix.trans (List.drop_suffix _ _).isInfix
    | some k =>
      obtain ⟨-, hat, hbefore⟩ := strcasestr_some hfind
      rw [List.drop_drop] at hat
      have hmiss : ∀ r, p ≤ r → r < p + k → ¬ Hit name qs r := fun r hr hlt h => by
        have := hbefore (r - p) (by omega)
        rw [List.drop_drop, Nat.add_sub_cancel' hr, h.name_at] at this
        cases this
      dsimp only
      split_ifs with hhit
      · exact ⟨Nat.le_add_right .., ⟨hhit.1, hat, hhit.2⟩, hmiss⟩
      · have hmiss' : ∀ r, p ≤ r → r < p + k + 1 → ¬ Hit name qs r := fun r hr hlt h => by
          rcases Nat.lt_succ_iff_lt_or_eq.1 hlt with hlt | rfl
          · exact hmiss r hr hlt h
          · exact hhit ⟨h.start, h.equal⟩
        have hrest := ih (p := p + k + 1) (by omega)
        split
        · next q hq =>
          rw [hq] at hrest
          refine ⟨by omega, hrest.2.1, fun r hr hlt => ?_⟩
          rcases Nat.lt_or_ge r (p + k + 1) with h | h
          · exact hmiss' r hr h
          · exact hrest.2.2 r h hlt
        · next hq =>
          rw [hq] at hrest
          intro r hr
          rcases Nat.lt_or_ge r (p + k + 1) with h | h
          · exact hmiss' r hr h
          · exact hrest r h

/-- The hits are the beginnings of the parameters of the name. -/
theorem hit_iff (hname : IsParamName name) (hps : ∀ param ∈ ps, ampersand ∉ param) (hne : ps ≠ []) :
    Hit name (questionMark :: joinParams ps) p ↔
      ∃ pre param post, ps = pre ++ param :: post ∧ p = (joinedBefore pre).length + 1 ∧ HasName name param := by
  have hhas (pre post : List (List UInt8)) (param : List UInt8) (heq : ps = pre ++ param :: post) :
      startsWithCase name ((questionMark :: joinParams ps).drop ((joinedBefore pre).length + 1)) = true ∧
        (questionMark :: joinParams ps)[(joinedBefore pre).length + 1 + name.length]? = some equalSign ↔
      HasName name param := by
    have hparam := hps param (heq ▸ List.mem_append_right _ (List.mem_cons_self ..))
    have hdrop : (questionMark :: joinParams ps).drop ((joinedBefore pre).length + 1) = joinParams (param :: post) := by
      rw [List.drop_succ_cons, heq, joinParams_split, List.drop_left' rfl]
    rw [← List.getElem?_drop, hdrop, startsWithCase_and_iff_hasName hname, joinParams_cons,
      takeWhile_joinedAfter hparam]
  constructor
  · intro h
    have hpos : 0 < p := by
      rcases h.start with h1 | h1
      · omega
      · exact h1.1
    obtain ⟨i, rfl⟩ : ∃ i, p = i + 1 := ⟨p - 1, by omega⟩
    have hi : i ≤ (joinParams ps).length := by
      have := (List.getElem?_eq_some_iff.1 h.equal).1
      rw [List.length_cons] at this
      omega
    have hstart : i = 0 ∨ i > 0 ∧ (joinParams ps)[i - 1]? = some ampersand := by
      rcases Nat.eq_zero_or_pos i with h0 | hi'
      · exact .inl h0
      · have hsep := (h.start.resolve_left (by omega)).2
        rw [show i + 1 - 1 = (i - 1) + 1 by omega, List.getElem?_cons_succ] at hsep
        exact .inr ⟨hi', hsep⟩
    obtain ⟨pre, param, post, heq, rfl⟩ := exists_param_at hps hne hi hstart
    exact ⟨pre, param, post, heq, rfl, (hhas pre post param heq).1 ⟨h.name_at, h.equal⟩⟩
  · rintro ⟨pre, param, post, heq, rfl, hparam⟩
    obtain ⟨hat, hequal⟩ := (hhas pre post param heq).2 hparam
    refine ⟨?_, hat, hequal⟩
    rcases List.eq_nil_or_concat' pre with rfl | ⟨pre, last, rfl⟩
    · exact .inl rfl
    · refine .inr ⟨Nat.succ_pos _, ?_⟩
      have hbefore : joinedBefore (pre ++ [last]) = joinParams (pre ++ [last]) ++ [ampersand] := if_neg (by simp)
      rw [heq, joinParams_split, hbefore, List.length_append, List.length_singleton, Nat.add_sub_cancel,
        List.getElem?_cons_succ, List.append_assoc, List.getElem?_append_right (Nat.le_refl _), Nat.sub_self]
      rfl

/-- No parameter of the name, or a first one. -/
theorem first_cases (name : List UInt8) (ps : List (List UInt8)) : (∀ param ∈ ps, ¬ HasName name param) ∨
    ∃ pre param post, ps = pre ++ param :: post ∧ HasName name param ∧ ∀ param ∈ pre, ¬ HasName name param := by
  cases h : ps.find? (HasName name) with
  | none => exact .inl fun param hparam => by simpa using List.find?_eq_none.1 h param hparam
  | some param =>
    obtain ⟨hparam, pre, post, rfl, hpre⟩ := List.find?_eq_some_iff_append.1 h
    exact .inr ⟨pre, param, post, rfl, by simpa using hparam, fun p hp => by simpa using hpre p hp⟩

theorem findQueryParam_none (hname : IsParamName name) (hne : name ≠ []) (hps : ∀ param ∈ ps, ampersand ∉ param)
    (hnil : ps ≠ []) (h : ∀ param ∈ ps, ¬ HasName name param) :
    findQueryParam (questionMark :: joinParams ps) name = none := by
  have hspec := findQueryParamLoop_spec (p := 0) (questionMark :: joinParams ps) hne
    (Nat.lt_of_lt_of_eq (Nat.lt_succ_self _) (Nat.zero_add _).symm)
  rw [findQueryParam]
  split at hspec
  · obtain ⟨pre, param, post, rfl, -, hparam⟩ := (hit_iff hname hps hnil).1 hspec.2.1
    exact absurd hparam (h param (List.mem_append_right _ (List.mem_cons_self ..)))
  · assumption

theorem findQueryParam_some (hname : IsParamName name) (hne : name ≠ [])
    (hps : ∀ p ∈ pre ++ param :: post, ampersand ∉ p) (hpre : ∀ p ∈ pre, ¬ HasName name p) (h : HasName name param) :
    findQueryParam (questionMark :: joinParams (pre ++ param :: post)) name = some ((joinedBefore pre).length + 1) := by
  have hspec := findQueryParamLoop_spec (p := 0) (questionMark :: joinParams (pre ++ param :: post)) hne
    (Nat.lt_of_lt_of_eq (Nat.lt_succ_self _) (Nat.zero_add _).symm)
  have hhit := (hit_iff hname hps (by simp)).2 ⟨pre, param, post, rfl, rfl, h⟩
  rw [findQueryParam]
  split at hspec
  · next q hq =>
    rw [hq]
    obtain ⟨-, hq, hfirst⟩ := hspec
    obtain ⟨pre', param', post', heq, rfl, hparam'⟩ := (hit_iff hname hps (by simp)).1 hq
    have hle : (joinedBefore pre').length ≤ (joinedBefore pre).length := by
      by_contra hlt
      exact hfirst _ (Nat.zero_le _) (by omega) hhit
    -- a first hit further ahead would be among the parameters in front
    rcases List.append_eq_append_iff.1 heq with ⟨mid, rfl, -⟩ | ⟨mid, rfl, hmid⟩
    · have hlen := length_joinedBefore_le (List.prefix_append pre mid)
      rw [Nat.le_antisymm hle hlen]
    · cases mid with
      | nil => rw [List.append_nil]
      | cons a mid =>
        obtain ⟨rfl, -⟩ := List.cons.inj hmid
        exact absurd hparam' (hpre _ (List.mem_append_right _ (List.mem_cons_self ..)))
  · exact absurd hhit (hspec _ (Nat.zero_le _))

/-! ### What is taken out -/

/-- The bytes of a parameter behind its name. -/
theorem drop_name (h : HasName name param) (post : List (List UInt8))
    (hparam : ampersand ∉ param) : ((joinParams (param :: post)).drop (name.length + 1)).takeWhile (· ≠ ampersand) =
      param.drop (name.length + 1) ∧ name.length + 1 ≤ param.length := by
  have hlen := h.length_lt
  refine ⟨?_, hlen⟩
  rw [joinParams_cons, List.drop_append_of_le_length hlen]
  exact takeWhile_joinedAfter (fun hmem => hparam (List.mem_of_mem_drop hmem)) post

theorem value_at (h : HasName name param) (hparam : ampersand ∉ param) :
    ((questionMark :: joinParams (pre ++ param :: post)).drop ((joinedBefore pre).length + 1 + name.length + 1)).takeWhile
      (· ≠ ampersand) = param.drop (name.length + 1) := by
  rw [show (joinedBefore pre).length + 1 + name.length + 1 = (joinedBefore pre).length + (name.length + 1) + 1 by omega,
    List.drop_succ_cons, joinParams_split, ← List.drop_drop, List.drop_left' rfl]
  exact (drop_name h post hparam).1

/-- One parameter is cut out. -/
theorem removeQueryParam_eq (pre post : List (List UInt8)) (param : List UInt8) :
    removeQueryParam (questionMark :: joinParams (pre ++ param :: post)) ((joinedBefore pre).length + 1)
      ((joinedBefore pre).length + 1 + param.length) = ofParams (pre ++ post) := by
  have htext : questionMark :: joinParams (pre ++ param :: post) =
      (questionMark :: (joinedBefore pre ++ param)) ++ joinedAfter post := by
    rw [joinParams_split, joinParams_cons, List.cons_append, List.append_assoc]
  have hend : (joinedBefore pre).length + 1 + param.length = (questionMark :: (joinedBefore pre ++ param)).length := by
    rw [List.length_cons, List.length_append]
    omega
  have hnext : (questionMark :: joinParams (pre ++ param :: post))[(joinedBefore pre).length + 1 + param.length]? =
      some ampersand ↔ post ≠ [] := by
    rw [htext, hend, List.getElem?_append_right (Nat.le_refl _), Nat.sub_self, joinedAfter]
    by_cases h : post = [] <;> simp [h]
  have hdrop : (questionMark :: joinParams (pre ++ param :: post)).drop ((joinedBefore pre).length + 1 + param.length) =
      joinedAfter post := by
    rw [htext, hend, List.drop_left' rfl]
  rw [removeQueryParam]
  simp only [hnext]
  rcases List.eq_nil_or_concat' pre with rfl | ⟨pre, last, rfl⟩
  · show _ = ofParams post
    rw [if_pos (show (joinedBefore []).length + 1 = 1 from rfl), ofParams]
    by_cases hpost : post = []
    · rw [if_neg (not_not_intro hpost), if_pos hpost]
    · rw [if_pos hpost, if_neg hpost, ← List.drop_drop, hdrop, joinedAfter, if_neg hpost]
      rfl
  · have hbefore : joinedBefore (pre ++ [last]) = joinParams (pre ++ [last]) ++ [ampersand] := if_neg (by simp)
    have hlength : (joinedBefore (pre ++ [last])).length = (joinParams (pre ++ [last])).length + 1 := by
      rw [hbefore, List.length_append, List.length_singleton]
    have htake : (questionMark :: joinParams (pre ++ [last] ++ param :: post)).take
        ((joinedBefore (pre ++ [last])).length + 1 - 1) = questionMark :: joinParams (pre ++ [last]) := by
      rw [hlength, Nat.add_sub_cancel, List.take_succ_cons, joinParams_split (pre ++ [last]) post param,
        hbefore, List.append_assoc,
        List.take_left' rfl]
    have hresult : ofParams (pre ++ [last] ++ post) = ⟨questionMark :: joinParams (pre ++ [last] ++ post), true⟩ :=
      if_neg (by simp)
    rw [if_neg (show ¬ (joinedBefore (pre ++ [last])).length + 1 = 1 by omega), hresult]
    by_cases hpost : post = []
    · rw [if_neg (not_not_intro hpost), htake, hpost, List.append_nil]
    · rw [if_pos hpost, htake, hdrop, joinedAfter, if_neg hpost]
      obtain ⟨next, post, rfl⟩ := List.exists_cons_of_ne_nil hpost
      rw [joinParams_split (pre ++ [last]) post next, hbefore]
      simp

theorem valueEnd_eq (h : HasName name param) (hparam : ampersand ∉ param) :
    valueEnd (questionMark :: joinParams (pre ++ param :: post)) ((joinedBefore pre).length + 1 + name.length + 1) =
      (joinedBefore pre).length + 1 + param.length := by
  have hlen := (drop_name h post hparam).2
  rw [valueEnd, value_at h hparam, List.length_drop]
  omega

theorem filter_not_hasName_split (h : HasName name param) :
    (pre ++ param :: post).filter (¬ HasName name ·) = (pre ++ post).filter (¬ HasName name ·) := by
  rw [List.filter_append, List.filter_cons_of_neg (by simpa using h), List.filter_append]

/-- The loop takes out all parameters of the name. -/
theorem stripDuplicates_eq (hname : IsParamName name) (hne : name ≠ []) {fuel : Nat} (hps : ∀ p ∈ ps, ampersand ∉ p)
    (hfuel : ps.length ≤ fuel) :
    stripDuplicates name fuel (ofParams ps) = ofParams (ps.filter (¬ HasName name ·)) := by
  induction fuel generalizing ps with
  | zero =>
    rw [List.eq_nil_of_length_eq_zero (Nat.le_zero.1 hfuel)]
    rfl
  | succ fuel ih =>
    rw [stripDuplicates]
    by_cases hnil : ps = []
    · rw [hnil]
      rfl
    have hset : ofParams ps = ⟨questionMark :: joinParams ps, true⟩ := if_neg hnil
    rw [hset]
    dsimp only
    rw [if_neg (by simp)]
    rcases first_cases name ps with h | ⟨pre, param, post, rfl, hparam, hpre⟩
    · rw [findQueryParam_none hname hne hps hnil h]
      dsimp only
      rw [← hset, List.filter_eq_self.2 fun p hp => by simpa using h p hp]
    · have hsep := hps param (List.mem_append_right _ (List.mem_cons_self ..))
      rw [findQueryParam_some hname hne hps hpre hparam]
      dsimp only
      rw [valueEnd_eq hparam hsep, removeQueryParam_eq, filter_not_hasName_split hparam]
      refine ih (fun p hp => hps p ?_) ?_
      · rw [List.mem_append] at hp ⊢
        exact hp.imp_right (List.mem_cons_of_mem _)
      · rw [List.length_append, List.length_cons] at hfuel
        rw [List.length_append]
        omega

end

/-- What `extract_query_param` reports of the first parameter of the name, and the parameters it leaves. -/
theorem extractQueryParam_eq {name s : List UInt8} (hname : IsParamName name) (hne : name ≠ []) {outSize : Nat}
    (hsize : 0 < outSize) : extractQueryParam ⟨questionMark :: s, true⟩ name outSize =
      let query := ofParams ((paramsOf s).filter (¬ HasName name ·))
      match (paramsOf s).find? (HasName name) with
      | none => ⟨query, none, 0⟩
      | some param =>
        let value := param.drop (name.length + 1)
        if value.length ≥ outSize then ⟨query, some [], -1⟩
        else match httpUrlDecode value with
          | none => ⟨query, some [], -1⟩
          | some outValue => ⟨query, some outValue, 1⟩ := by
  have hps := ampersand_not_mem_paramsOf s
  have hs : joinParams (paramsOf s) = s := List.intercalate_splitOn ampersand
  have hnil : paramsOf s ≠ [] := fun h => by
    rcases sep_cases ampersand s with hsep | ⟨param, rest, rfl, hsep⟩
    · rw [paramsOf_no_sep hsep] at h
      cases h
    · rw [paramsOf_sep hsep] at h
      cases h
  rw [extractQueryParam, if_neg (by simp; omega)]
  generalize paramsOf s = ps at hps hs hnil
  subst hs
  rcases first_cases name ps with h | ⟨pre, param, post, rfl, hparam, hpre⟩
  · have hfind : ps.find? (HasName name) = none := List.find?_eq_none.2 fun p hp => by simpa using h p hp
    rw [findQueryParam_none hname hne hps hnil h, hfind, List.filter_eq_self.2 fun p hp => by simpa using h p hp,
      ofParams, if_neg hnil]
  · have hfind : (pre ++ param :: post).find? (HasName name) = some param := by
      rw [List.find?_append, List.find?_eq_none.2 fun p hp => by simpa using hpre p hp, Option.none_or,
        List.find?_cons_of_pos (by simpa using hparam)]
    have hsep := hps param (List.mem_append_right _ (List.mem_cons_self ..))
    have hrest : ∀ p ∈ pre ++ post, ampersand ∉ p := fun p hp => hps p (by
      rw [List.mem_append] at hp ⊢
      exact hp.imp_right (List.mem_cons_of_mem _))
    have hfuel : (pre ++ post).length ≤ (ofParams (pre ++ post)).text.length + 1 := by
      rw [ofParams]
      split
      · next h =>
        rw [h]
        exact Nat.zero_le _
      · have := length_le_joinParams (pre ++ post)
        rw [List.length_cons]
        omega
    rw [findQueryParam_some hname hne hps hpre hparam, hfind]
    dsimp only
    rw [valueEnd_eq hparam hsep, value_at hparam hsep, removeQueryParam_eq, stripDuplicates_eq hname hne hrest hfuel,
      filter_not_hasName_split hparam]

/-- Exactly the parameters of the name are taken out, which may leave no query, and the value of the first one is
decoded. It is refused if it does not fit the buffer as it stands, or cannot be decoded. -/
theorem extractQueryParam_exact {name s : List UInt8} (hname : IsParamName name) (hne : name ≠ []) {outSize : Nat}
    (hsize : 0 < outSize) :
    let r := extractQueryParam ⟨questionMark :: s, true⟩ name outSize
    let kept := (paramsOf s).filter (¬ HasName name ·)
    (if kept = [] then r.query = ⟨[], false⟩ else ∃ s', r.query = ⟨questionMark :: s', true⟩ ∧ paramsOf s' = kept) ∧
      ((∀ param ∈ paramsOf s, ¬ HasName name param) → r.outValue = none ∧ r.result = 0) ∧
      ∀ param, (paramsOf s).find? (HasName name) = some param →
        let value := param.drop (name.length + 1)
        (r.result = -1 ↔ value.length ≥ outSize ∨ httpUrlDecode value = none) ∧
          (r.result ≠ -1 → r.result = 1 ∧ r.outValue = httpUrlDecode value) := by
  intro r kept
  have hr := extractQueryParam_eq (s := s) hname hne hsize
  have hquery : r.query = ofParams kept := by
    show (extractQueryParam _ _ _).query = _
    rw [hr]
    dsimp only
    split
    · rfl
    split
    · rfl
    split <;> rfl
  refine ⟨?_, fun h => ?_, fun param hfind => ?_⟩
  · rw [hquery, ofParams]
    split
    · rfl
    · next hkept => exact ⟨_, rfl, paramsOf_joinParams (fun p hp =>
        ampersand_not_mem_paramsOf s p (List.mem_of_mem_filter hp)) hkept⟩
  · have hfind : (paramsOf s).find? (HasName name) = none := List.find?_eq_none.2 fun p hp => by simpa using h p hp
    rw [hfind] at hr
    rw [show r = _ from hr]
    exact ⟨rfl, rfl⟩
  · intro value
    rw [hfind] at hr
    rw [show r = _ from hr]
    dsimp only
    by_cases hlong : value.length ≥ outSize
    · rw [if_pos hlong]
      exact ⟨iff_of_true rfl (.inl hlong), fun h => absurd rfl h⟩
    · rw [if_neg hlong]
      cases hdecode : httpUrlDecode value with
      | none => exact ⟨iff_of_true rfl (.inr rfl), fun h => absurd rfl h⟩
      | some v => exact ⟨iff_of_false (by simp) (by simp [hlong]), fun _ => ⟨rfl, rfl⟩⟩

/-- A name within another name and twice in different case, a value to decode, and an empty parameter. -/
theorem extractQueryParam_exact_example :
    (∃ s', (extractQueryParam ⟨questionMark :: str "xa=0&A=%31&&a=3", true⟩ (str "a") 4).query = ⟨questionMark :: s', true⟩ ∧
        paramsOf s' = [str "xa=0", []]) ∧
      (extractQueryParam ⟨questionMark :: str "xa=0&A=%31&&a=3", true⟩ (str "a") 4).outValue = some (str "1") := by
  have hkept : (paramsOf (str "xa=0&A=%31&&a=3")).filter (¬ HasName (str "a") ·) = [str "xa=0", []] := by decide
  have hfind : (paramsOf (str "xa=0&A=%31&&a=3")).find? (HasName (str "a")) = some (str "A=%31") := by decide
  have hvalue : httpUrlDecode ((str "A=%31").drop ((str "a").length + 1)) = some (str "1") := by decide
  obtain ⟨hquery, -, hfirst⟩ := @extractQueryParam_exact (str "a") (str "xa=0&A=%31&&a=3") (by decide) (by decide) 4
    (by decide)
  obtain ⟨hresult, hout⟩ := hfirst _ hfind
  rw [hkept, if_neg (List.cons_ne_nil _ _)] at hquery
  refine ⟨hquery, (hout fun hminus => ?_).2.trans hvalue⟩
  rcases hresult.1 hminus with hlong | hdecode
  · exact absurd hlong (by decide)
  · rw [hvalue] at hdecode
    cases hdecode

end Service

end Rtp2httpd
