import DOpenWrt.Rtp2httpd.HttpChunkedDecoder
import DOpenWrt.Lib.CString

/-!
# Query strings (`http.c`)

`http_parse_query_param` looks a parameter up, `http_filter_query_param` takes one out. Both scan the string on their
own; both are put in terms of its `&`-separated parameters, of which the one looked up is the first with the name, and
the ones taken out are all with the name. A parameter's name is what stands before its first `=`; one without a `=` has
no name.
-/

namespace Rtp2httpd
open CString

/-! ### The source -/

def ampersand : UInt8 := UInt8.ofNat '&'.toNat
def equalSign : UInt8 := UInt8.ofNat '='.toNat
def percent : UInt8 := UInt8.ofNat '%'.toNat
def questionMark : UInt8 := UInt8.ofNat '?'.toNat
def openBrace : UInt8 := 0x7b
def closeBrace : UInt8 := 0x7d

/-- `http_url_decode`. No result for -1. -/
def httpUrlDecode : List UInt8 → Option (List UInt8)
  | [] => some []
  | c :: src =>
    if c = percent then
      match src with
      | a :: b :: src =>
        match httpChunkedHexValue a, httpChunkedHexValue b with
        | some hi, some lo => (httpUrlDecode src).map (UInt8.ofNat (16 * hi + lo) :: ·)
        | _, _ => none
      | _ => none
    else (httpUrlDecode src).map (c :: ·)

/-- The loop of `find_query_param` at `pos`: the rest of the string from the parameter on. -/
def findQueryParamLoop (paramName : List UInt8) : Nat → List UInt8 → Option (List UInt8)
  | 0, _ => none
  | fuel + 1, pos =>
    if pos = [] then none
    else if startsWithCase paramName pos ∧ pos[paramName.length]? = some equalSign then some pos
    else match pos.dropWhile (· ≠ ampersand) with
      | [] => none
      | _ :: pos => findQueryParamLoop paramName fuel pos

def findQueryParam (queryString paramName : List UInt8) : Option (List UInt8) :=
  -- a round consumes a byte or ends the loop
  findQueryParamLoop paramName (queryString.length + 1) queryString

/-- `http_parse_query_param`: the value. No result for -1. -/
def httpParseQueryParam (queryString paramName : List UInt8) (valueSize : Nat) : Option (List UInt8) :=
  match findQueryParam queryString paramName with
  | none => none
  | some paramStart =>
    let valueStart := paramStart.drop (paramName.length + 1)
    let value := valueStart.takeWhile (· ≠ ampersand)
    if value.length ≥ valueSize then none else httpUrlDecode value

/-- The loop of `http_filter_query_param` at `pos`, with the output so far. No result for -1. -/
def filterQueryParamLoop (excludeParam : List UInt8) (outputSize : Nat) :
    Nat → List UInt8 → List UInt8 → Bool → Option (List UInt8)
  | 0, _, output, _ => some output
  | fuel + 1, pos, output, firstParam =>
    if pos = [] then some output
    else
      let param := pos.takeWhile (· ≠ ampersand)
      let next := pos.dropWhile (· ≠ ampersand)
      let shouldExclude := param.length > excludeParam.length ∧ pos[excludeParam.length]? = some equalSign ∧
        startsWithCase excludeParam pos
      if ¬ shouldExclude ∧ param.length > 0 then
        if ¬ firstParam ∧ output.length + 1 ≥ outputSize then none
        else
          let output := if firstParam then output else output ++ [ampersand]
          if output.length + param.length ≥ outputSize then none
          else match next with
            | [] => some (output ++ param)
            | _ :: pos => filterQueryParamLoop excludeParam outputSize fuel pos (output ++ param) false
      else match next with
        | [] => some output
        | _ :: pos => filterQueryParamLoop excludeParam outputSize fuel pos output firstParam

def httpFilterQueryParam (queryString excludeParam : List UInt8) (outputSize : Nat) : Option (List UInt8) :=
  if outputSize = 0 then none
  else filterQueryParamLoop excludeParam outputSize (queryString.length + 1) queryString [] true

/-! ### Parameters -/

def paramsOf (queryString : List UInt8) : List (List UInt8) := queryString.splitOn ampersand

/-- A parameter's name, what stands before its first `=`. -/
def nameOf (param : List UInt8) : Option (List UInt8) :=
  if equalSign ∈ param then some (param.takeWhile (· ≠ equalSign)) else none

/-- The parameter has the name, whatever the case. -/
def HasName (name param : List UInt8) : Prop := ∃ n ∈ nameOf param, eqIgnoreCase n name = true

/-- What can be the name of a parameter. -/
def IsParamName (name : List UInt8) : Prop := ampersand ∉ name ∧ equalSign ∉ name

instance HasName.decidable (name param : List UInt8) : Decidable (HasName name param) :=
  decidable_of_iff ((nameOf param).any (eqIgnoreCase · name) = true) (by simp [HasName, Option.any_eq_true])

instance IsParamName.decidable (name : List UInt8) : Decidable (IsParamName name) :=
  inferInstanceAs (Decidable (_ ∧ _))

/-- The parameters that stay when those of a name are taken out. -/
def paramsWithout (name queryString : List UInt8) : List (List UInt8) :=
  (paramsOf queryString).filter fun param => param ≠ [] ∧ ¬ HasName name param

def joinParams (params : List (List UInt8)) : List UInt8 := [ampersand].intercalate params

/-! ### Separators -/

section
variable {sep : UInt8} {s a : List UInt8}

theorem takeWhile_no_sep (h : sep ∉ s) : s.takeWhile (· ≠ sep) = s :=
  List.takeWhile_eq_self_iff.2 fun _ hx => decide_eq_true fun hsep => h (hsep ▸ hx)

theorem dropWhile_no_sep (h : sep ∉ s) : s.dropWhile (· ≠ sep) = [] :=
  List.dropWhile_eq_nil_iff.2 fun _ hx => decide_eq_true fun hsep => h (hsep ▸ hx)

theorem takeWhile_sep (h : sep ∉ a) (rest : List UInt8) : (a ++ sep :: rest).takeWhile (· ≠ sep) = a := by
  rw [List.takeWhile_append, takeWhile_no_sep h, if_pos rfl, List.takeWhile_cons_of_neg (by simp), List.append_nil]

theorem dropWhile_sep (h : sep ∉ a) (rest : List UInt8) :
    (a ++ sep :: rest).dropWhile (· ≠ sep) = sep :: rest := by
  rw [List.dropWhile_append, dropWhile_no_sep h, List.isEmpty_nil, if_pos rfl, List.dropWhile_cons_of_neg (by simp)]

/-- What `strchr` tells of a string: it lacks the separator, or splits at the first one. -/
theorem sep_cases (sep : UInt8) (s : List UInt8) : sep ∉ s ∨ ∃ a rest, s = a ++ sep :: rest ∧ sep ∉ a := by
  by_cases h : sep ∈ s
  · exact .inr (List.eq_append_cons_of_mem h)
  · exact .inl h

theorem tolower_eq_iff {c : UInt8} (hsep : sep.toNat < 'A'.toNat) : tolower c = sep ↔ c = sep := by
  unfold tolower
  split
  · next hc =>
    have hz := hc.2
    have hA : 'A'.toNat = 65 := rfl
    have hZ : 'Z'.toNat = 90 := rfl
    constructor
    · intro h
      rw [← h, UInt8.toNat_ofNat'] at hsep
      omega
    · rintro rfl
      omega
  · exact Iff.rfl

theorem mem_map_tolower (hsep : sep.toNat < 'A'.toNat) : sep ∈ s.map tolower ↔ sep ∈ s := by
  rw [List.mem_map]
  constructor
  · rintro ⟨c, hc, heq⟩
    exact (tolower_eq_iff hsep).1 heq ▸ hc
  · exact fun h => ⟨sep, h, (tolower_eq_iff hsep).2 rfl⟩

theorem mem_of_eqIgnoreCase (hsep : sep.toNat < 'A'.toNat) (h : eqIgnoreCase s a = true) : sep ∈ s ↔ sep ∈ a := by
  rw [← mem_map_tolower hsep, of_decide_eq_true h, mem_map_tolower hsep]

theorem length_of_eqIgnoreCase (h : eqIgnoreCase s a = true) : s.length = a.length := by
  rw [← List.length_map tolower, of_decide_eq_true h, List.length_map]

end

/-! ### Names -/

section
variable {name other param pos queryString : List UInt8}

/-- The comparison both scanners make at the beginning of a parameter. -/
theorem startsWithCase_and_iff : startsWithCase name pos = true ∧ pos[name.length]? = some equalSign ↔
    ∃ n rest, pos = n ++ equalSign :: rest ∧ eqIgnoreCase n name = true := by
  constructor
  · rintro ⟨hstart, hget⟩
    obtain ⟨hlen, hget⟩ := List.getElem?_eq_some_iff.1 hget
    refine ⟨pos.take name.length, pos.drop (name.length + 1), ?_, hstart⟩
    rw [← hget, ← List.drop_eq_getElem_cons hlen, List.take_append_drop]
  · rintro ⟨n, rest, rfl, hn⟩
    have hlen := length_of_eqIgnoreCase hn
    rw [startsWithCase, ← hlen, List.take_left' rfl, List.getElem?_append_right (Nat.le_refl _), Nat.sub_self]
    exact ⟨hn, rfl⟩

theorem hasName_iff (hname : equalSign ∉ name) : HasName name param ↔
    ∃ n rest, param = n ++ equalSign :: rest ∧ eqIgnoreCase n name = true := by
  unfold HasName nameOf
  constructor
  · rintro ⟨n, hn, heq⟩
    split at hn
    · next hmem =>
      cases hn
      obtain ⟨a, rest, rfl, ha⟩ := List.eq_append_cons_of_mem hmem
      rw [takeWhile_sep ha] at heq
      exact ⟨a, rest, rfl, heq⟩
    · cases hn
  · rintro ⟨n, rest, rfl, heq⟩
    have hn : equalSign ∉ n := fun h => hname ((mem_of_eqIgnoreCase (by decide) heq).1 h)
    rw [if_pos (by simp), takeWhile_sep hn]
    exact ⟨n, rfl, heq⟩

/-- A name without `&` is found in the string exactly when the first parameter has it. -/
theorem startsWithCase_and_iff_hasName (hname : IsParamName name) :
    startsWithCase name pos = true ∧ pos[name.length]? = some equalSign ↔
      HasName name (pos.takeWhile (· ≠ ampersand)) := by
  rw [startsWithCase_and_iff, hasName_iff hname.2]
  constructor
  · rintro ⟨n, rest, rfl, heq⟩
    refine ⟨n, rest.takeWhile (· ≠ ampersand), ?_, heq⟩
    have hn : ampersand ∉ n := fun h => hname.1 ((mem_of_eqIgnoreCase (by decide) heq).1 h)
    rw [List.takeWhile_append, takeWhile_no_sep hn, if_pos rfl, List.takeWhile_cons_of_pos (by decide)]
  · rintro ⟨n, rest, htake, heq⟩
    refine ⟨n, rest ++ pos.dropWhile (· ≠ ampersand), ?_, heq⟩
    rw [← List.cons_append, ← List.append_assoc, ← htake, List.takeWhile_append_dropWhile]

theorem not_hasName_nil : ¬ HasName name [] := by
  rintro ⟨n, hn, -⟩
  cases hn

theorem HasName.eqIgnoreCase (h : HasName name param) (h' : HasName other param) : eqIgnoreCase name other = true := by
  obtain ⟨n, hn, heq⟩ := h
  obtain ⟨n', hn', heq'⟩ := h'
  obtain rfl : n = n' := Option.mem_unique hn hn'
  rw [← eqIgnoreCase_congr heq, heq']

/-! ### Lookup -/

theorem paramsOf_no_sep (h : ampersand ∉ pos) : paramsOf pos = [pos] := List.splitOn_eq_singleton h

theorem paramsOf_sep (h : ampersand ∉ param) : paramsOf (param ++ ampersand :: pos) = param :: paramsOf pos := by
  rw [paramsOf, List.splitOn_append_cons_self, List.splitOn_eq_singleton h]
  rfl

theorem findQueryParamLoop_eq (hname : IsParamName name) {fuel : Nat} (hfuel : pos.length < fuel) :
    (findQueryParamLoop name fuel pos).map (·.takeWhile (· ≠ ampersand)) = (paramsOf pos).find? (HasName name) := by
  induction fuel generalizing pos with
  | zero => omega
  | succ fuel ih =>
    rw [findQueryParamLoop]
    split
    · next hnil =>
      rw [hnil, paramsOf_no_sep (by simp), List.find?_singleton, if_neg (by simpa using not_hasName_nil)]
      rfl
    · simp only [startsWithCase_and_iff_hasName hname]
      rcases sep_cases ampersand pos with hsep | ⟨param, rest, rfl, hsep⟩
      · rw [paramsOf_no_sep hsep, takeWhile_no_sep hsep, dropWhile_no_sep hsep, List.find?_singleton]
        split
        · next h => rw [if_pos (by simpa using h), Option.map_some, takeWhile_no_sep hsep]
        · next h =>
          rw [if_neg (by simpa using h)]
          rfl
      · rw [paramsOf_sep hsep, takeWhile_sep hsep, dropWhile_sep hsep]
        split
        · next h => rw [List.find?_cons_of_pos (by simpa using h), Option.map_some, takeWhile_sep hsep]
        · next h =>
          rw [List.find?_cons_of_neg (by simpa using h)]
          refine ih ?_
          rw [List.length_append, List.length_cons] at hfuel
          omega

/-- `http_parse_query_param` decodes the value of the first parameter with the name. -/
theorem httpParseQueryParam_eq (hname : IsParamName name) (valueSize : Nat) :
    httpParseQueryParam queryString name valueSize = ((paramsOf queryString).find? (HasName name)).bind fun param =>
      let value := param.drop (name.length + 1)
      if value.length ≥ valueSize then none else httpUrlDecode value := by
  rw [httpParseQueryParam, findQueryParam, ← findQueryParamLoop_eq hname (Nat.lt_succ_self _)]
  cases hfind : findQueryParamLoop name (queryString.length + 1) queryString with
  | none => rfl
  | some pos =>
    have hfound := findQueryParamLoop_eq hname (Nat.lt_succ_self queryString.length)
    rw [hfind] at hfound
    have hhas : HasName name (pos.takeWhile (· ≠ ampersand)) := by simpa using List.find?_some hfound.symm
    obtain ⟨n, rest, rfl, hn⟩ := startsWithCase_and_iff.1 ((startsWithCase_and_iff_hasName hname).2 hhas)
    have hsep : ampersand ∉ n ++ [equalSign] := by
      rw [List.mem_append, List.mem_singleton, not_or]
      exact ⟨fun h => hname.1 ((mem_of_eqIgnoreCase (by decide) hn).1 h), by decide⟩
    have hlen : name.length + 1 = (n ++ [equalSign]).length := by
      rw [List.length_append, length_of_eqIgnoreCase hn, List.length_singleton]
    rw [Option.map_some, Option.bind_some, ← List.singleton_append (l := rest), ← List.append_assoc,
      List.takeWhile_append, takeWhile_no_sep hsep, if_pos rfl, hlen, List.drop_left' rfl]
    dsimp only
    rw [List.drop_left' rfl]

end

/-! ### Filtering -/

section
variable {name other queryString param pos : List UInt8} {kept : List (List UInt8)}

/-- The output and the separator, where a parameter is already out. -/
def joinedBefore (kept : List (List UInt8)) : List UInt8 := if kept = [] then [] else joinParams kept ++ [ampersand]

theorem joinParams_append (kept : List (List UInt8)) (param : List UInt8) :
    joinParams (kept ++ [param]) = joinedBefore kept ++ param := by
  unfold joinedBefore
  unfold joinParams
  induction kept with
  | nil => rw [List.nil_append, if_pos rfl, List.intercalate_singleton, List.nil_append]
  | cons a kept ih =>
    rw [if_neg (List.cons_ne_nil a kept), List.cons_append, List.intercalate_cons_of_ne_nil (by simp), ih]
    split
    · next hnil => rw [hnil, List.nil_append, List.intercalate_singleton]
    · next hne =>
      rw [List.intercalate_cons_of_ne_nil hne]
      simp only [List.append_assoc]

theorem paramsOf_joinParams (h : ∀ param ∈ kept, ampersand ∉ param) (hne : kept ≠ []) :
    paramsOf (joinParams kept) = kept :=
  List.splitOn_intercalate ampersand h hne

theorem paramsWithout_cons (h : ampersand ∉ param) (pos : List UInt8) :
    paramsWithout name (param ++ ampersand :: pos) =
      if param ≠ [] ∧ ¬ HasName name param then param :: paramsWithout name pos else paramsWithout name pos := by
  rw [paramsWithout, paramsOf_sep h, List.filter_cons]
  simp only [decide_eq_true_eq]
  rfl

theorem paramsWithout_single (h : ampersand ∉ param) :
    paramsWithout name param = if param ≠ [] ∧ ¬ HasName name param then [param] else [] := by
  rw [paramsWithout, paramsOf_no_sep h, List.filter_cons, List.filter_nil]
  simp only [decide_eq_true_eq]

theorem HasName.length_lt (h : HasName name param) : name.length < param.length := by
  obtain ⟨n, hn, heq⟩ := h
  unfold nameOf at hn
  split at hn
  · next hmem =>
    cases hn
    obtain ⟨a, rest, rfl, ha⟩ := List.eq_append_cons_of_mem hmem
    rw [takeWhile_sep ha] at heq
    rw [← length_of_eqIgnoreCase heq, List.length_append, List.length_cons]
    omega
  · cases hn

/-- `should_exclude`. -/
theorem shouldExclude_iff (hname : IsParamName name) :
    (pos.takeWhile (· ≠ ampersand)).length > name.length ∧ pos[name.length]? = some equalSign ∧
        startsWithCase name pos = true ↔ HasName name (pos.takeWhile (· ≠ ampersand)) := by
  rw [← startsWithCase_and_iff_hasName hname, and_comm (a := pos[name.length]? = _), and_iff_right_iff_imp,
    startsWithCase_and_iff_hasName hname]
  exact HasName.length_lt

/-- Where there is room for the separator and the parameter, they are put out. -/
theorem filterQueryParamLoop_keep {outputSize : Nat} (hroom : (joinedBefore kept).length + param.length < outputSize)
    (hparam : param ≠ []) (next : List UInt8 → Option (List UInt8)) :
    (if ¬ decide (kept = []) = true ∧ (joinParams kept).length + 1 ≥ outputSize then none
      else
        let output := if decide (kept = []) = true then joinParams kept else joinParams kept ++ [ampersand]
        if output.length + param.length ≥ outputSize then none else next (output ++ param)) =
      next (joinParams (kept ++ [param])) := by
  have hpos := List.length_pos_iff.2 hparam
  have hout : (if decide (kept = []) = true then joinParams kept else joinParams kept ++ [ampersand]) =
      joinedBefore kept := by
    unfold joinedBefore
    by_cases hkept : kept = []
    · simp [hkept, joinParams]
    · simp [hkept]
  rw [hout, if_neg, joinParams_append]
  · exact if_neg (by omega)
  · rintro ⟨hkept, hfull⟩
    rw [joinedBefore, if_neg (by simpa using hkept), List.length_append, List.length_singleton] at hroom
    omega

/-- The loop appends what stays of the rest, if there is room for the rest. -/
theorem filterQueryParamLoop_eq (hname : IsParamName name) {outputSize fuel : Nat} (hfuel : pos.length < fuel)
    (hroom : (joinedBefore kept).length + pos.length < outputSize) :
    filterQueryParamLoop name outputSize fuel pos (joinParams kept) (kept = []) =
      some (joinParams (kept ++ paramsWithout name pos)) := by
  induction fuel generalizing pos kept with
  | zero => omega
  | succ fuel ih =>
    rw [filterQueryParamLoop]
    split
    · next hnil => rw [hnil, paramsWithout_single (by simp), if_neg (by simp), List.append_nil]
    · next hne =>
      have hpos := List.length_pos_iff.2 hne
      simp only [shouldExclude_iff hname, List.length_pos_iff]
      rcases sep_cases ampersand pos with hsep | ⟨param, rest, rfl, hsep⟩
      · rw [paramsWithout_single hsep, takeWhile_no_sep hsep, dropWhile_no_sep hsep]
        simp only [and_comm (a := ¬ HasName name pos)]
        split
        · next hkeep => exact filterQueryParamLoop_keep hroom hkeep.1 some
        · rw [List.append_nil]
      · rw [List.length_append, List.length_cons] at hfuel hroom
        rw [paramsWithout_cons hsep, takeWhile_sep hsep, dropWhile_sep hsep]
        simp only [and_comm (a := ¬ HasName name param)]
        split
        · next hkeep =>
          have hlen := congrArg List.length (joinParams_append kept param)
          rw [List.length_append] at hlen
          refine (filterQueryParamLoop_keep (by omega) hkeep.1 fun output =>
            filterQueryParamLoop name outputSize fuel rest output false).trans ?_
          have hroom' : (joinedBefore (kept ++ [param])).length + rest.length < outputSize := by
            rw [joinedBefore, if_neg (by simp), List.length_append, List.length_singleton]
            omega
          have hnext := ih (by omega) hroom'
          rw [decide_eq_false (by simp)] at hnext
          rw [hnext, List.append_assoc, List.singleton_append]
        · exact ih (by omega) (by omega)

/-- `http_filter_query_param` puts out, in order, the parameters that are not empty and have another name. -/
theorem httpFilterQueryParam_eq (hname : IsParamName name) {outputSize : Nat} (hsize : queryString.length < outputSize) :
    httpFilterQueryParam queryString name outputSize = some (joinParams (paramsWithout name queryString)) := by
  have hroom : (joinedBefore []).length + queryString.length < outputSize := by simpa [joinedBefore] using hsize
  rw [httpFilterQueryParam, if_neg (by omega)]
  exact filterQueryParamLoop_eq hname (Nat.lt_succ_self _) hroom

theorem length_joinParams_cons (param : List UInt8) (kept : List (List UInt8)) :
    (joinParams (param :: kept)).length = param.length + if kept = [] then 0 else (joinParams kept).length + 1 := by
  unfold joinParams
  split
  · next hnil => rw [hnil, List.intercalate_singleton, Nat.add_zero]
  · next hne =>
    rw [List.intercalate_cons_of_ne_nil hne, List.length_append, List.length_append, List.length_singleton]
    omega

theorem length_joinParams_le {kept' : List (List UInt8)} (h : List.Sublist kept kept') :
    (joinParams kept).length ≤ (joinParams kept').length := by
  induction h with
  | slnil => exact Nat.le_refl _
  | cons param h ih =>
    rw [length_joinParams_cons]
    split
    · next hnil =>
      rw [hnil] at ih
      exact ih.trans (Nat.zero_le _)
    · omega
  | cons_cons param h ih =>
    rw [length_joinParams_cons, length_joinParams_cons]
    split
    · omega
    · next hne =>
      rw [if_neg fun hnil => hne (List.sublist_nil.1 (by rwa [hnil] at h))]
      omega

theorem joinParams_cons_cons (param next : List UInt8) (ps : List (List UInt8)) :
    joinParams (param :: next :: ps) = param ++ ampersand :: joinParams (next :: ps) := by
  simp [joinParams, List.intercalate, List.intersperse]

theorem joinParams_singleton (param : List UInt8) : joinParams [param] = param := by
  simp [joinParams, List.intercalate]

theorem length_le_joinParams (ps : List (List UInt8)) : ps.length ≤ (joinParams ps).length + 1 := by
  induction ps with
  | nil => exact Nat.zero_le _
  | cons param ps ih =>
    rw [length_joinParams_cons, List.length_cons]
    split
    · next h =>
      rw [h, List.length_nil]
      omega
    · omega

theorem joinedBefore_cons (param : List UInt8) (pre : List (List UInt8)) :
    joinedBefore (param :: pre) = param ++ ampersand :: joinedBefore pre := by
  unfold joinedBefore
  rw [if_neg (List.cons_ne_nil _ _)]
  split
  · next h =>
    rw [h]
    simp [joinParams]
  · next h =>
    rw [joinParams, joinParams, List.intercalate_cons_of_ne_nil h]
    simp

theorem joinParams_split (pre post : List (List UInt8)) (param : List UInt8) :
    joinParams (pre ++ param :: post) = joinedBefore pre ++ joinParams (param :: post) := by
  induction pre with
  | nil => rfl
  | cons a pre ih =>
    rw [List.cons_append, joinParams, List.intercalate_cons_of_ne_nil (by simp), ← joinParams, ih, joinedBefore_cons]
    simp

theorem length_joinParams (ps : List (List UInt8)) :
    (joinParams ps).length = (ps.map fun param => param.length + 1).sum - 1 := by
  induction ps with
  | nil => rfl
  | cons param ps ih =>
    rw [length_joinParams_cons, List.map_cons, List.sum_cons, ih]
    cases ps with
    | nil => simp
    | cons next ps =>
      rw [if_neg (List.cons_ne_nil _ _), List.map_cons, List.sum_cons]
      omega

theorem length_joinedBefore (pre : List (List UInt8)) :
    (joinedBefore pre).length = (pre.map fun param => param.length + 1).sum := by
  induction pre with
  | nil => rfl
  | cons param pre ih =>
    rw [joinedBefore_cons, List.length_append, List.length_cons, ih, List.map_cons, List.sum_cons]
    omega

theorem length_filtered (name queryString : List UInt8) :
    (joinParams (paramsWithout name queryString)).length ≤ queryString.length :=
  (length_joinParams_le List.filter_sublist).trans
    (congrArg List.length (List.intercalate_splitOn ampersand)).le

theorem ampersand_not_mem_paramsOf (queryString : List UInt8) : ∀ param ∈ paramsOf queryString, ampersand ∉ param := by
  induction hlen : queryString.length using Nat.strong_induction_on generalizing queryString with
  | _ n ih =>
    rcases sep_cases ampersand queryString with hsep | ⟨param, rest, rfl, hsep⟩
    · rw [paramsOf_no_sep hsep]
      exact fun param hparam => List.mem_singleton.1 hparam ▸ hsep
    · rw [List.length_append, List.length_cons] at hlen
      rw [paramsOf_sep hsep]
      exact List.forall_mem_cons.2 ⟨hsep, ih rest.length (by omega) rest rfl⟩

/-- What is put out has the parameters that stay, or only an empty one. -/
theorem paramsOf_filtered (name queryString : List UInt8) :
    paramsOf (joinParams (paramsWithout name queryString)) =
      if paramsWithout name queryString = [] then [[]] else paramsWithout name queryString := by
  split
  · next hnil => rw [hnil]; rfl
  · next hne =>
    exact paramsOf_joinParams (fun param hparam =>
      ampersand_not_mem_paramsOf queryString param (List.mem_of_mem_filter hparam)) hne

theorem paramsWithout_filtered (name queryString : List UInt8) :
    paramsWithout name (joinParams (paramsWithout name queryString)) = paramsWithout name queryString := by
  rw [paramsWithout, paramsOf_filtered]
  split
  · next hnil => rw [hnil, List.filter_cons, if_neg (by simp), List.filter_nil]
  · rw [paramsWithout, List.filter_filter]
    simp only [Bool.and_self]

/-- The first parameter with a name is the same before and after another name is taken out. -/
theorem find_filtered (hother : eqIgnoreCase other name = false) :
    (paramsOf (joinParams (paramsWithout name queryString))).find? (HasName other) =
      (paramsOf queryString).find? (HasName other) := by
  have hfind : (paramsWithout name queryString).find? (HasName other) = (paramsOf queryString).find? (HasName other) := by
    rw [paramsWithout, List.find?_filter]
    congr 1
    funext param
    by_cases h : HasName other param
    · have hne : param ≠ [] := fun hnil => not_hasName_nil (hnil ▸ h)
      have hnot : ¬ HasName name param := fun hname => Bool.false_ne_true (hother.symm.trans (h.eqIgnoreCase hname))
      simp [h, hne, hnot]
    · simp [h]
  rw [paramsOf_filtered, ← hfind]
  split
  · next hnil => rw [hnil, List.find?_singleton, if_neg (by simpa using not_hasName_nil), List.find?_nil]
  · rfl

theorem find_excluded (name queryString : List UInt8) :
    (paramsOf (joinParams (paramsWithout name queryString))).find? (HasName name) = none := by
  rw [paramsOf_filtered, List.find?_eq_none]
  intro param hparam
  split at hparam
  · rw [List.mem_singleton.1 hparam]
    simpa using not_hasName_nil
  · simpa using (of_decide_eq_true (List.mem_filter.1 hparam).2).2

end

/-- Taking the parameters of a name out of a query string: what is put out is the `&`-join, in order, of those that are
not empty and have another name; the name is not found in it; every other name, whatever the case, is looked up with
the same result as before; and filtering it again changes nothing. -/
theorem http_query_filter_lookup {name queryString : List UInt8} (hname : IsParamName name) {outputSize : Nat}
    (hsize : queryString.length < outputSize) :
    ∃ output, httpFilterQueryParam queryString name outputSize = some output ∧
      output = joinParams ((paramsOf queryString).filter fun param => param ≠ [] ∧ ¬ HasName name param) ∧
      (∀ valueSize, httpParseQueryParam output name valueSize = none) ∧
      (∀ other, IsParamName other → eqIgnoreCase other name = false → ∀ valueSize,
        httpParseQueryParam output other valueSize = httpParseQueryParam queryString other valueSize) ∧
      httpFilterQueryParam output name outputSize = some output := by
  refine ⟨_, httpFilterQueryParam_eq hname hsize, rfl, fun valueSize => ?_, fun other hother hne valueSize => ?_, ?_⟩
  · rw [httpParseQueryParam_eq hname, find_excluded, Option.bind_none]
  · rw [httpParseQueryParam_eq hother, httpParseQueryParam_eq hother, find_filtered hne]
  · rw [httpFilterQueryParam_eq hname (lt_of_le_of_lt (length_filtered name queryString) hsize), paramsWithout_filtered]

theorem http_query_filter_lookup_example :
    ∃ output, httpFilterQueryParam (str "&r2h-token=x&fcc=1%32&R2H-Token=y&r2h-token") (str "r2h-token") 64 = some output ∧
      output = joinParams ((paramsOf (str "&r2h-token=x&fcc=1%32&R2H-Token=y&r2h-token")).filter fun param =>
        param ≠ [] ∧ ¬ HasName (str "r2h-token") param) ∧
      (∀ valueSize, httpParseQueryParam output (str "r2h-token") valueSize = none) ∧
      (∀ other, IsParamName other → eqIgnoreCase other (str "r2h-token") = false → ∀ valueSize,
        httpParseQueryParam output other valueSize =
          httpParseQueryParam (str "&r2h-token=x&fcc=1%32&R2H-Token=y&r2h-token") other valueSize) ∧
      httpFilterQueryParam output (str "r2h-token") 64 = some output :=
  http_query_filter_lookup (by decide) (by decide)

end Rtp2httpd
