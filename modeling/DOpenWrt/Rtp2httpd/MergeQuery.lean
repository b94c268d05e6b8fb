import DOpenWrt.Lib.OverrideMerge
import DOpenWrt.Rtp2httpd.HttpQuery

/-!
# Merging query strings (`service.c`)

`merge_query_strings` lets the parameters of one query string override those of another. It is `OverrideMerge.merge`
of the two lists of parameters, with their names as keys.
-/

namespace Rtp2httpd
open CString
open OverrideMerge

/-! ### The source -/

/-- The parameters that a loop `while (p && *p)` comes to, which goes on behind the next `&`. -/
def visitParams : Nat → List UInt8 → List (List UInt8)
  | 0, _ => []
  | fuel + 1, p =>
    if p = [] then []
    else p.takeWhile (· ≠ ampersand) :: match p.dropWhile (· ≠ ampersand) with
      | [] => []
      | _ :: p => visitParams fuel p

/-- The loop over a whole string, a null pointer being as good as an empty one. -/
def queryParams (query : List UInt8) : List (List UInt8) :=
  -- a round consumes a byte or ends the loop
  visitParams (query.length + 1) query

/-- What stands before the first `=`, or all of the parameter. -/
def paramName (param : List UInt8) : List UInt8 := param.takeWhile (· ≠ equalSign)

/-- `MERGE_APPEND_SEP`. No result for -1. -/
def mergeAppendSep (outputSize : Nat) (output : List UInt8) : Option (List UInt8) :=
  if output.length > 0 then
    if output.length + 1 ≥ outputSize then none else some (output ++ [ampersand])
  else some output

/-- `MERGE_APPEND_PARAM`. -/
def mergeAppendParam (outputSize : Nat) (output param : List UInt8) : Option (List UInt8) :=
  (mergeAppendSep outputSize output).bind fun output =>
    if output.length + param.length ≥ outputSize then none else some (output ++ param)

/-- "Pass 1" at `bp`, with the part of the base in front of it. -/
def mergePass1 (overrideQuery : List UInt8) (outputSize : Nat) :
    Nat → (before bp output : List UInt8) → Option (List UInt8)
  | 0, _, _, output => some output
  | fuel + 1, before, bp, output =>
    if bp = [] then some output
    else
      let bparam := bp.takeWhile (· ≠ ampersand)
      let overridden := (queryParams overrideQuery).any fun oparam => paramName oparam = paramName bparam
      let firstOccurrence := ¬ (queryParams before).any fun pparam => paramName pparam = paramName bparam
      let emitted :=
        if overridden then
          if firstOccurrence then
            ((queryParams overrideQuery).filter fun oparam => paramName oparam = paramName bparam).foldlM
              (mergeAppendParam outputSize) output
          else some output
        else mergeAppendParam outputSize output bparam
      emitted.bind fun output =>
        match bp.dropWhile (· ≠ ampersand) with
        | [] => some output
        | _ :: bp => mergePass1 overrideQuery outputSize fuel (before ++ bparam ++ [ampersand]) bp output

/-- "Pass 2". -/
def mergePass2 (baseQuery overrideQuery : List UInt8) (outputSize : Nat) (output : List UInt8) : Option (List UInt8) :=
  (queryParams overrideQuery).foldlM (fun output oparam =>
    let foundInBase := (queryParams baseQuery).any fun bparam => paramName bparam = paramName oparam
    if ¬ foundInBase then mergeAppendParam outputSize output oparam else some output) output

/-- No result for -1. -/
def mergeQueryStrings (baseQuery overrideQuery : List UInt8) (outputSize : Nat) : Option (List UInt8) :=
  if outputSize = 0 then none
  else (mergePass1 overrideQuery outputSize (baseQuery.length + 1) [] baseQuery []).bind
    (mergePass2 baseQuery overrideQuery outputSize)

/-! ### Parameters -/

/-- What `&` separates: not empty, and without one. -/
structure IsParam (param : List UInt8) : Prop where
  ne_nil : param ≠ []
  no_sep : ampersand ∉ param

instance IsParam.decidable (param : List UInt8) : Decidable (IsParam param) :=
  decidable_of_iff (param ≠ [] ∧ ampersand ∉ param) ⟨fun h => ⟨h.1, h.2⟩, fun h => ⟨h.1, h.2⟩⟩

section
variable {bs os ps pre : List (List UInt8)} {param output : List UInt8} {outputSize fuel : Nat}

theorem joinParams_ne_nil (hps : ∀ param ∈ ps, IsParam param) (hne : ps ≠ []) : joinParams ps ≠ [] := by
  cases ps with
  | nil => exact absurd rfl hne
  | cons param ps =>
    have hparam := List.length_pos_of_ne_nil (hps param (List.mem_cons_self ..)).ne_nil
    refine List.ne_nil_of_length_pos ?_
    rw [length_joinParams_cons]
    omega

/-- The loop comes to every parameter. -/
theorem visitParams_joinParams (hps : ∀ param ∈ ps, IsParam param) (hfuel : (joinParams ps).length < fuel) :
    visitParams fuel (joinParams ps) = ps := by
  induction ps generalizing fuel with
  | nil =>
    cases fuel with
    | zero => rfl
    | succ fuel => rfl
  | cons param ps ih =>
    obtain ⟨fuel, rfl⟩ : ∃ n, fuel = n + 1 := ⟨fuel - 1, by omega⟩
    have hparam := hps param (List.mem_cons_self ..)
    have hrest := fun p hp => hps p (List.mem_cons_of_mem param hp)
    rw [visitParams, if_neg (joinParams_ne_nil hps (List.cons_ne_nil _ _))]
    cases ps with
    | nil => rw [joinParams_singleton, takeWhile_no_sep hparam.no_sep, dropWhile_no_sep hparam.no_sep]
    | cons next ps =>
      rw [joinParams_cons_cons, List.length_append, List.length_cons] at hfuel
      rw [joinParams_cons_cons, takeWhile_sep hparam.no_sep, dropWhile_sep hparam.no_sep]
      dsimp only
      rw [ih hrest (by omega)]

theorem queryParams_joinParams (hps : ∀ param ∈ ps, IsParam param) : queryParams (joinParams ps) = ps :=
  visitParams_joinParams hps (Nat.lt_succ_self _)

/-- In front of `bp` every parameter ends with its `&`. -/
theorem visitParams_terminated (hpre : ∀ param ∈ pre, IsParam param)
    (hfuel : (pre.flatMap (· ++ [ampersand])).length < fuel) : visitParams fuel (pre.flatMap (· ++ [ampersand])) = pre := by
  induction pre generalizing fuel with
  | nil =>
    cases fuel with
    | zero => rfl
    | succ fuel => rfl
  | cons param pre ih =>
    obtain ⟨fuel, rfl⟩ : ∃ n, fuel = n + 1 := ⟨fuel - 1, by omega⟩
    have hparam := hpre param (List.mem_cons_self ..)
    rw [List.flatMap_cons, List.append_assoc, List.singleton_append] at hfuel ⊢
    rw [List.length_append, List.length_cons] at hfuel
    rw [visitParams, if_neg (by simp), takeWhile_sep hparam.no_sep, dropWhile_sep hparam.no_sep]
    dsimp only
    rw [ih (fun p hp => hpre p (List.mem_cons_of_mem param hp)) (by omega)]

theorem queryParams_terminated (hpre : ∀ param ∈ pre, IsParam param) :
    queryParams (pre.flatMap (· ++ [ampersand])) = pre :=
  visitParams_terminated hpre (Nat.lt_succ_self _)

theorem any_paramName (ps : List (List UInt8)) (param : List UInt8) :
    ((ps.any fun p => paramName p = paramName param) = true) = (paramName param ∈ ps.map paramName) := by
  simp [List.any_eq_true]

/-- "Pass 1" appends what becomes of the parameters of the base. -/
theorem mergePass1_eq (hos : ∀ param ∈ os, IsParam param) (hpre : ∀ param ∈ pre, IsParam param)
    (hbs : ∀ param ∈ bs, IsParam param) (hfuel : (joinParams bs).length < fuel) :
    mergePass1 (joinParams os) outputSize fuel (pre.flatMap (· ++ [ampersand])) (joinParams bs) output =
      (mergeFrom paramName os pre bs).foldlM (mergeAppendParam outputSize) output := by
  induction bs generalizing fuel pre output with
  | nil =>
    cases fuel with
    | zero => rfl
    | succ fuel => rfl
  | cons param bs ih =>
    obtain ⟨fuel, rfl⟩ : ∃ n, fuel = n + 1 := ⟨fuel - 1, by omega⟩
    have hparam := hbs param (List.mem_cons_self ..)
    have hrest := fun p hp => hbs p (List.mem_cons_of_mem param hp)
    have hpre' : ∀ p ∈ pre ++ [param], IsParam p := List.forall_mem_append.2 ⟨hpre, List.forall_mem_singleton.2 hparam⟩
    -- the parameter and what is behind it
    obtain ⟨hname, hnext⟩ : (joinParams (param :: bs)).takeWhile (· ≠ ampersand) = param ∧
        ∀ output, (match (joinParams (param :: bs)).dropWhile (· ≠ ampersand) with
          | [] => some output
          | _ :: bp => mergePass1 (joinParams os) outputSize fuel (pre.flatMap (· ++ [ampersand]) ++ param ++ [ampersand])
              bp output) = (mergeFrom paramName os (pre ++ [param]) bs).foldlM (mergeAppendParam outputSize) output := by
      cases bs with
      | nil =>
        rw [joinParams_singleton, takeWhile_no_sep hparam.no_sep, dropWhile_no_sep hparam.no_sep]
        exact ⟨rfl, fun _ => rfl⟩
      | cons next bs =>
        rw [joinParams_cons_cons, List.length_append, List.length_cons] at hfuel
        rw [joinParams_cons_cons, takeWhile_sep hparam.no_sep, dropWhile_sep hparam.no_sep]
        refine ⟨rfl, fun output => ?_⟩
        have hbefore : pre.flatMap (· ++ [ampersand]) ++ param ++ [ampersand] =
            (pre ++ [param]).flatMap (· ++ [ampersand]) := by
          rw [List.flatMap_append, List.flatMap_singleton, List.append_assoc]
        dsimp only
        rw [hbefore]
        exact ih hpre' hrest (by omega)
    rw [mergePass1, if_neg (joinParams_ne_nil hbs (List.cons_ne_nil _ _)), hname]
    dsimp only
    simp only [hnext, queryParams_joinParams hos, queryParams_terminated hpre, any_paramName]
    rw [mergeFrom, List.foldlM_append]
    show Option.bind _ _ = Option.bind _ _
    refine congrArg (Option.bind · _) ?_
    by_cases hover : paramName param ∈ os.map paramName
    · by_cases hseen : paramName param ∈ pre.map paramName
      · rw [if_pos hover, if_neg (not_not_intro hseen), emit_seen hover hseen]
        rfl
      · rw [if_pos hover, if_pos hseen, emit_first hover hseen]
        rfl
    · rw [if_neg hover, emit_kept hover]
      simp

/-- "Pass 2" appends the parameters whose names the base lacks. -/
theorem mergePass2_eq (hos : ∀ param ∈ os, IsParam param) (hbs : ∀ param ∈ bs, IsParam param) :
    mergePass2 (joinParams bs) (joinParams os) outputSize output =
      (extra paramName bs os).foldlM (mergeAppendParam outputSize) output := by
  rw [mergePass2, queryParams_joinParams hos, queryParams_joinParams hbs, extra]
  simp only [any_paramName]
  induction os generalizing output with
  | nil => rfl
  | cons param os ih =>
    have hrest := fun p hp => hos p (List.mem_cons_of_mem param hp)
    rw [List.foldlM_cons]
    by_cases hfound : paramName param ∈ bs.map paramName
    · rw [if_neg (not_not_intro hfound), List.filter_cons_of_neg (by simpa using hfound)]
      exact ih hrest
    · rw [if_pos hfound, List.filter_cons_of_pos (by simpa using hfound), List.foldlM_cons]
      exact congrArg _ (funext fun output => ih hrest)

/-! ### The output -/

theorem mergeAppendParam_eq (hps : ∀ p ∈ ps, IsParam p) (hparam : IsParam param) (hout : output = joinParams ps) :
    mergeAppendParam outputSize output param =
      if (joinParams (ps ++ [param])).length < outputSize then some (joinParams (ps ++ [param])) else none := by
  have hpos := List.length_pos_of_ne_nil hparam.ne_nil
  rw [joinParams_append, joinedBefore, mergeAppendParam, mergeAppendSep, hout]
  by_cases hne : ps = []
  · subst hne
    rw [if_pos rfl, if_neg (show ¬ (joinParams []).length > 0 by decide)]
    show (if (joinParams []).length + param.length ≥ outputSize then none else some (joinParams [] ++ param)) = _
    rw [show joinParams [] = [] from rfl, List.length_nil, Nat.zero_add, List.nil_append]
    by_cases hroom : param.length < outputSize
    · rw [if_neg (by omega), if_pos hroom]
    · rw [if_pos (by omega), if_neg hroom]
  · have hlen := List.length_pos_of_ne_nil (joinParams_ne_nil hps hne)
    rw [if_neg hne, if_pos hlen, List.length_append, List.length_append, List.length_singleton]
    by_cases hroom : (joinParams ps).length + 1 + param.length < outputSize
    · rw [if_pos hroom, if_neg (by omega), Option.bind_some, if_neg]
      rw [List.length_append, List.length_singleton]
      omega
    · rw [if_neg hroom]
      split
      · rfl
      · rw [Option.bind_some, if_pos]
        rw [List.length_append, List.length_singleton]
        omega

/-- Parameters are appended as long as there is room for all of them. -/
theorem foldlM_mergeAppendParam (hpre : ∀ p ∈ pre, IsParam p) (hps : ∀ p ∈ ps, IsParam p)
    (hroom : (joinParams pre).length < outputSize) :
    ps.foldlM (mergeAppendParam outputSize) (joinParams pre) =
      if (joinParams (pre ++ ps)).length < outputSize then some (joinParams (pre ++ ps)) else none := by
  induction ps generalizing pre with
  | nil =>
    rw [List.append_nil, if_pos hroom]
    rfl
  | cons param ps ih =>
    have hparam := hps param (List.mem_cons_self ..)
    have hpre' : ∀ p ∈ pre ++ [param], IsParam p := List.forall_mem_append.2 ⟨hpre, List.forall_mem_singleton.2 hparam⟩
    rw [List.foldlM_cons, mergeAppendParam_eq hpre hparam rfl, List.append_cons pre param ps]
    by_cases hnext : (joinParams (pre ++ [param])).length < outputSize
    · rw [if_pos hnext]
      exact ih hpre' (fun p hp => hps p (List.mem_cons_of_mem param hp)) hnext
    · have hle := length_joinParams_le (List.sublist_append_left (pre ++ [param]) ps)
      rw [if_neg hnext, if_neg (by omega)]
      rfl

theorem mem_merge {p : List UInt8} (h : p ∈ merge paramName bs os) : p ∈ bs ∨ p ∈ os := by
  have hmem : p ∈ withKey paramName (paramName p) (merge paramName bs os) := mem_withKey.2 ⟨h, rfl⟩
  rw [withKey_merge] at hmem
  split at hmem
  · exact .inr (mem_withKey.1 hmem).1
  · exact .inl (mem_withKey.1 hmem).1

theorem isParam_merge (hbs : ∀ p ∈ bs, IsParam p) (hos : ∀ p ∈ os, IsParam p) : ∀ p ∈ merge paramName bs os, IsParam p :=
  fun p hp => (mem_merge hp).elim (hbs p) (hos p)

/-- The source computes the merge of the two lists of parameters, if there is room for it. -/
theorem mergeQueryStrings_eq (hbs : ∀ p ∈ bs, IsParam p) (hos : ∀ p ∈ os, IsParam p) (outputSize : Nat) :
    mergeQueryStrings (joinParams bs) (joinParams os) outputSize =
      if (joinParams (merge paramName bs os)).length < outputSize then some (joinParams (merge paramName bs os))
      else none := by
  unfold mergeQueryStrings
  split
  · next h => rw [h, if_neg (Nat.not_lt_zero _)]
  · next h =>
    have hpass1 : mergePass1 (joinParams os) outputSize ((joinParams bs).length + 1) [] (joinParams bs) [] =
        (mergeFrom paramName os [] bs).foldlM (mergeAppendParam outputSize) [] :=
      @mergePass1_eq bs os [] _ _ _ hos nofun hbs (Nat.lt_succ_self _)
    rw [hpass1]
    have hpass2 : mergePass2 (joinParams bs) (joinParams os) outputSize =
        fun output => (extra paramName bs os).foldlM (mergeAppendParam outputSize) output :=
      funext fun output => mergePass2_eq hos hbs
    rw [hpass2]
    show (_ >>= _ : Option _) = _
    rw [← List.foldlM_append]
    exact @foldlM_mergeAppendParam _ [] _ nofun (isParam_merge hbs hos) (Nat.pos_of_ne_zero h)

end

/-- The parameters of a name are those of the override, if it has the name; the names of the base stand before the
others, in the orders of their first places. Merging the override again keeps all this, and changes nothing exactly if
what only the override has is grouped by name. -/
theorem mergeQueryStrings_overrides {bs os : List (List UInt8)} (hbs : ∀ p ∈ bs, IsParam p) (hos : ∀ p ∈ os, IsParam p)
    {outputSize : Nat} {output : List UInt8}
    (h : mergeQueryStrings (joinParams bs) (joinParams os) outputSize = some output) :
    ∃ ps, output = joinParams ps ∧ (∀ p ∈ ps, IsParam p) ∧
      (∀ n, withKey paramName n ps =
        if n ∈ os.map paramName then withKey paramName n os else withKey paramName n bs) ∧
      firsts paramName [] ps = firsts paramName [] bs ++ firsts paramName [] (extra paramName bs os) ∧
      ∃ ps', mergeQueryStrings output (joinParams os) outputSize = some (joinParams ps') ∧ (∀ p ∈ ps', IsParam p) ∧
        (∀ n, withKey paramName n ps' = withKey paramName n ps) ∧ firsts paramName [] ps' = firsts paramName [] ps ∧
        (joinParams ps' = output ↔ grouped paramName (extra paramName bs os) = extra paramName bs os) := by
  have hparams := isParam_merge hbs hos
  have hparams' := isParam_merge hparams hos
  rw [mergeQueryStrings_eq hbs hos] at h
  split at h
  · next hroom =>
    obtain rfl := Option.some.inj h
    have hlen : (joinParams (merge paramName (merge paramName bs os) os)).length =
        (joinParams (merge paramName bs os)).length := by
      rw [length_joinParams, length_joinParams, ((merge_merge_perm bs os).map _).sum_eq]
    refine ⟨_, rfl, hparams, fun n => ?_, firsts_merge bs os, _, ?_, hparams', withKey_merge_merge bs os,
      firsts_merge_merge bs os, ?_⟩
    · have hn : withKey paramName n (merge paramName bs os) = _ := withKey_merge bs os n
      split at hn <;> rename_i hmem
      · rw [hn, if_pos hmem]
      · rw [hn, if_neg hmem]
    · rw [mergeQueryStrings_eq hparams hos, hlen, if_pos hroom]
    · rw [← merge_merge_eq_iff]
      exact ⟨fun heq => by rw [← queryParams_joinParams hparams', heq, queryParams_joinParams hparams], congrArg _⟩
  · cases h

/-- The theorem for a name in both, twice in the override, and a name on either side only. -/
theorem mergeQueryStrings_overrides_example :
    ∃ ps, str "b=0&a=1&a=2&x&c" = joinParams ps ∧ (∀ p ∈ ps, IsParam p) ∧
      (∀ n, withKey paramName n ps = if n ∈ [str "a=1", str "c", str "a=2"].map paramName then
        withKey paramName n [str "a=1", str "c", str "a=2"] else
          withKey paramName n [str "b=0", str "a", str "x", str "a=9"]) ∧
      firsts paramName [] ps = [str "b", str "a", str "x", str "c"] := by
  have h := @mergeQueryStrings_overrides [str "b=0", str "a", str "x", str "a=9"] [str "a=1", str "c", str "a=2"]
    (by decide) (by decide) 64 (str "b=0&a=1&a=2&x&c") (by decide)
  obtain ⟨ps, hout, hparams, hnames, hfirsts, -⟩ := h
  exact ⟨ps, hout, hparams, hnames, hfirsts.trans (by decide)⟩

/-- The first merge leaves the two values apart that only the override has, the second puts them together. -/
theorem mergeQueryStrings_twice :
    mergeQueryStrings (str "x=1") (str "a=1&b=2&a=3") 64 = some (str "x=1&a=1&b=2&a=3") ∧
      mergeQueryStrings (str "x=1&a=1&b=2&a=3") (str "a=1&b=2&a=3") 64 = some (str "x=1&a=1&a=3&b=2") := by
  decide

end Rtp2httpd
