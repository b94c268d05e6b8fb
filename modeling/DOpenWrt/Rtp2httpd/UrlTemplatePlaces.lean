import DOpenWrt.Rtp2httpd.UrlTemplateReach
import Mathlib.Data.List.DropRight

/-!
# Where the placeholders of a URL stand

Every placeholder ends at a closing brace. The analysis counts at most one for each brace: the first one that is opened
behind the brace before, in the path or in the parameter value that the brace stands in. Rendering replaces at most one
for each brace: the first one that it knows, wherever it is opened behind the brace before.
-/

namespace Rtp2httpd

/-- A closing brace of the string, by what stands before it. -/
def Closes (s left : List UInt8) : Prop := ∃ right, s = left ++ closeBrace :: right

/-- What stands behind the last separator. -/
def behindLast (sep : UInt8) (s : List UInt8) : List UInt8 := s.rtakeWhile (· ≠ sep)

/-- The first placeholder with the property that is opened in `s` and closed right behind it. -/
def firstOpened (p : Placeholder → Prop) [DecidablePred p] : Option UInt8 → List UInt8 → Option Placeholder
  | _, [] => none
  | prev, c :: rest =>
    match opening prev (c :: rest) with
    | none => firstOpened p (some c) rest
    | some (isShortSyntax, inner) =>
      if p ⟨isShortSyntax, inner⟩ then some ⟨isShortSyntax, inner⟩ else firstOpened p (some c) rest

/-- The parameter value that the beginning of a query ends in. -/
def valueAt (query : List UInt8) : Option (List UInt8) :=
  if equalSign ∈ behindLast ampersand query then
    some ((behindLast ampersand query).dropWhile (· ≠ equalSign)).tail
  else none

/-- The path or parameter value that the beginning of a URL ends in. -/
def partAt (left : List UInt8) : Option (List UInt8) :=
  if questionMark ∈ left then valueAt (left.dropWhile (· ≠ questionMark)).tail else some left

/-- The placeholder opened first in the part of the URL that the brace behind `left` stands in. -/
def FirstAt (left : List UInt8) (x : Placeholder) : Prop :=
  ∃ part, partAt left = some part ∧ firstOpened (fun _ => True) none (behindLast closeBrace part) = some x

/-- The placeholder that the analysis counts at the brace behind `left`. -/
def CountedAt (left : List UInt8) (x : Placeholder) : Prop := FirstAt left x ∧ x.inner.length < innerSize

/-- Rendering replaces the placeholder, or ends at it. -/
def Taken (x : Placeholder) : Prop := IsTooLong x.inner ∨ Replaced x

instance Taken.decidable : DecidablePred Taken := fun _ => inferInstanceAs (Decidable (_ ∨ _))

/-- The placeholder that rendering takes at the brace behind `left`. -/
def TakenAt (left : List UInt8) (x : Placeholder) : Prop :=
  firstOpened Taken none (behindLast closeBrace left) = some x

/-- At these times the placeholder can be written: it and its value fit their buffers, and the times are there. -/
def Writable (ctx : SeekTimes) (x : Placeholder) : Prop :=
  ¬ IsTooLong x.inner ∧ ∃ value, (Token.value x).render ctx = .ok value

/-- At these times everything that rendering takes before the brace can be written. -/
def WritableBefore (ctx : SeekTimes) (left : List UInt8) : Prop :=
  ∀ l, Closes left l → ∀ x, TakenAt l x → Writable ctx x

/-! ### Braces -/

section
variable {s a b left rest : List UInt8} {sep c : UInt8}

theorem closes_append : Closes (a ++ b) left ↔ Closes a left ∨ ∃ l, left = a ++ l ∧ Closes b l := by
  constructor
  · rintro ⟨right, h⟩
    rcases List.append_eq_append_iff.1 h with ⟨l, rfl, hb⟩ | ⟨l, rfl, hright⟩
    · exact .inr ⟨l, rfl, right, hb⟩
    · rcases List.cons_eq_append_iff.1 hright with ⟨rfl, hb⟩ | ⟨l', rfl, hb⟩
      · exact .inr ⟨[], by simp, right, hb⟩
      · exact .inl ⟨l', rfl⟩
  · rintro (⟨right, rfl⟩ | ⟨l, rfl, right, rfl⟩)
    · exact ⟨right ++ b, by simp⟩
    · exact ⟨right, by simp⟩

theorem closes_cons : Closes (c :: rest) left ↔ (c = closeBrace ∧ left = []) ∨ ∃ l, left = c :: l ∧ Closes rest l := by
  constructor
  · rintro ⟨right, h⟩
    rcases List.cons_eq_append_iff.1 h with ⟨rfl, hc⟩ | ⟨l, rfl, hrest⟩
    · exact .inl ⟨(List.cons.inj hc).1.symm, rfl⟩
    · exact .inr ⟨l, rfl, right, hrest⟩
  · rintro (⟨rfl, rfl⟩ | ⟨l, rfl, right, rfl⟩)
    · exact ⟨rest, rfl⟩
    · exact ⟨right, rfl⟩

theorem not_closes (h : closeBrace ∉ s) : ¬ Closes s left := by
  rintro ⟨right, rfl⟩
  exact h (List.mem_append_right left List.mem_cons_self)

theorem closes_brace (h : closeBrace ∉ a) :
    Closes (a ++ closeBrace :: rest) left ↔ left = a ∨ ∃ l, left = a ++ closeBrace :: l ∧ Closes rest l := by
  rw [closes_append, or_iff_right (not_closes h)]
  constructor
  · rintro ⟨l, rfl, hl⟩
    rcases closes_cons.1 hl with ⟨-, rfl⟩ | ⟨l', rfl, hl'⟩
    · exact .inl (List.append_nil a)
    · exact .inr ⟨l', rfl, hl'⟩
  · rintro (rfl | ⟨l, rfl, hl⟩)
    · exact ⟨[], (List.append_nil left).symm, closes_cons.2 (.inl ⟨rfl, rfl⟩)⟩
    · exact ⟨_, rfl, closes_cons.2 (.inr ⟨l, rfl, hl⟩)⟩

theorem closes_sep (hsep : sep ≠ closeBrace) :
    Closes (a ++ sep :: rest) left ↔ Closes a left ∨ ∃ l, left = a ++ sep :: l ∧ Closes rest l := by
  rw [closes_append]
  refine or_congr_right ⟨?_, ?_⟩
  · rintro ⟨l, rfl, hl⟩
    rcases closes_cons.1 hl with ⟨hc, -⟩ | ⟨l', rfl, hl'⟩
    · exact absurd hc hsep
    · exact ⟨l', rfl, hl'⟩
  · rintro ⟨l, rfl, hl⟩
    exact ⟨_, rfl, closes_cons.2 (.inr ⟨l, rfl, hl⟩)⟩

theorem Closes.mem (h : Closes s left) : ∀ c ∈ left, c ∈ s := by
  obtain ⟨right, rfl⟩ := h
  exact fun c => List.mem_append_left _

/-! ### Behind the last separator -/

theorem behindLast_no_sep (h : sep ∉ s) : behindLast sep s = s := by
  unfold behindLast List.rtakeWhile
  rw [takeWhile_no_sep (fun hmem => h (List.mem_reverse.1 hmem)), List.reverse_reverse]

theorem behindLast_sep (sep : UInt8) (a rest : List UInt8) :
    behindLast sep (a ++ sep :: rest) = behindLast sep rest := by
  unfold behindLast List.rtakeWhile
  rw [List.reverse_append, List.reverse_cons, List.append_assoc, List.singleton_append]
  by_cases h : sep ∈ rest.reverse
  · obtain ⟨b, tail, hrest, hb⟩ := List.eq_append_cons_of_mem h
    rw [hrest, List.append_assoc, List.cons_append, takeWhile_sep hb, takeWhile_sep hb]
  · rw [takeWhile_sep h, takeWhile_no_sep h]

theorem behindLast_append (h : sep ∉ b) : behindLast sep (a ++ b) = behindLast sep a ++ b := by
  rcases sep_cases sep a.reverse with hno | ⟨x, y, hrev, hx⟩
  · have ha : sep ∉ a := fun hmem => hno (List.mem_reverse.2 hmem)
    rw [behindLast_no_sep ha, behindLast_no_sep fun hmem => (List.mem_append.1 hmem).elim ha h]
  · have ha : a = y.reverse ++ sep :: x.reverse := by
      rw [← List.reverse_reverse a, hrev]
      simp
    have hx' : sep ∉ x.reverse := fun hmem => hx (List.mem_reverse.1 hmem)
    rw [ha, List.append_assoc, List.cons_append, behindLast_sep, behindLast_sep, behindLast_no_sep hx',
      behindLast_no_sep fun hmem => (List.mem_append.1 hmem).elim hx' h]

end

/-! ### The first placeholder -/

section
variable {p : Placeholder → Prop} [DecidablePred p] {prev : Option UInt8} {s l r inner rest : List UInt8} {c : UInt8}
  {isShortSyntax : Bool} {x y : Placeholder}

theorem opening_append (prev : Option UInt8) (c : UInt8) (s rest : List UInt8) : opening prev (c :: s ++ closeBrace :: rest) =
    (opening prev (c :: s)).map fun o => (o.1, o.2 ++ closeBrace :: rest) := by
  rw [List.cons_append, opening, opening]
  by_cases hdollar : c = dollar ∧ s.head? = some openBrace
  · obtain ⟨tail, rfl⟩ : ∃ tail, s = openBrace :: tail := ⟨s.tail, List.eq_cons_of_mem_head? hdollar.2⟩
    rw [if_pos hdollar, if_pos ⟨hdollar.1, rfl⟩]
    rfl
  · have hdollar' : ¬ (c = dollar ∧ (s ++ closeBrace :: rest).head? = some openBrace) := by
      rintro ⟨hc, hhead⟩
      rcases s with _ | ⟨d, s⟩
      · exact absurd (Option.some.inj hhead) (by decide)
      · exact hdollar ⟨hc, hhead⟩
    rw [if_neg hdollar, if_neg hdollar']
    split_ifs <;> rfl

theorem opening_closeBrace (prev : Option UInt8) (rest : List UInt8) : opening prev (closeBrace :: rest) = none := by
  have hdollar : ¬ (closeBrace = dollar ∧ rest.head? = some openBrace) := fun h => absurd h.1 (by decide)
  have hbrace : ¬ (closeBrace = openBrace ∧ prev ≠ some dollar) := fun h => absurd h.1 (by decide)
  rw [opening, if_neg hdollar, if_neg hbrace]

theorem firstOpened_none (h : opening prev (c :: rest) = none) :
    firstOpened p prev (c :: rest) = firstOpened p (some c) rest := by
  rw [firstOpened, h]

theorem firstOpened_some (h : opening prev (c :: rest) = some (isShortSyntax, inner)) :
    firstOpened p prev (c :: rest) =
      if p ⟨isShortSyntax, inner⟩ then some ⟨isShortSyntax, inner⟩ else firstOpened p (some c) rest := by
  rw [firstOpened, h]

/-- Only a brace behind a dollar is read by what stands before it. -/
theorem firstOpened_prev (h : prev ≠ some dollar) : firstOpened p prev s = firstOpened p none s := by
  rcases s with _ | ⟨c, rest⟩
  · rfl
  · have hopen : opening prev (c :: rest) = opening none (c :: rest) := by
      unfold opening
      simp [h]
    unfold firstOpened
    rw [hopen]

theorem length_of_opening (h : opening prev (c :: rest) = some (isShortSyntax, inner)) :
    inner.length ≤ rest.length ∧ rest.length ≤ inner.length + 1 := by
  have hlen := congrArg List.length (opening_eq_some h)
  cases isShortSyntax
  · simp at hlen
    omega
  · simp at hlen
    omega

theorem firstOpened_spec (h : firstOpened p prev s = some x) : p x ∧ x.inner.length < s.length := by
  induction s generalizing prev with
  | nil => cases h
  | cons c rest ih =>
    have hlater : firstOpened p (some c) rest = some x → p x ∧ x.inner.length < (c :: rest).length :=
      fun h => ⟨(ih h).1, (ih h).2.trans (Nat.lt_succ_self _)⟩
    rcases hopen : opening prev (c :: rest) with _ | ⟨isShortSyntax, inner⟩
    · rw [firstOpened_none hopen] at h
      exact hlater h
    · rw [firstOpened_some hopen] at h
      by_cases hp : p ⟨isShortSyntax, inner⟩
      · rw [if_pos hp] at h
        cases h
        exact ⟨hp, Nat.lt_succ_of_le (length_of_opening hopen).1⟩
      · rw [if_neg hp] at h
        exact hlater h

/-- The brace of `${` opens nothing by itself. -/
theorem firstOpened_behind (hopen : opening prev (c :: rest) = some (isShortSyntax, inner))
    (h : firstOpened p (some c) rest = some x) : x.inner.length < inner.length := by
  have hp := opening_eq_some hopen
  cases isShortSyntax with
  | true =>
    cases hp
    exact (firstOpened_spec h).2
  | false =>
    obtain ⟨rfl, rfl⟩ : c = dollar ∧ rest = openBrace :: inner := List.cons.inj hp
    have hnone : opening (some dollar) (openBrace :: inner) = none := by
      have hdollar : ¬ (openBrace = dollar ∧ inner.head? = some openBrace) := fun h => absurd h.1 (by decide)
      rw [opening, if_neg hdollar, if_neg fun h => h.2 rfl]
    rw [firstOpened_none hnone] at h
    exact (firstOpened_spec h).2

/-- What is opened first of all is the placeholder, or stands around it. -/
theorem firstOpened_first (h : firstOpened p prev s = some y) :
    ∃ x, firstOpened (fun _ => True) prev s = some x ∧ (x = y ∨ y.inner.length < x.inner.length) := by
  induction s generalizing prev with
  | nil => cases h
  | cons c rest ih =>
    rcases hopen : opening prev (c :: rest) with _ | ⟨isShortSyntax, inner⟩
    · rw [firstOpened_none hopen] at h ⊢
      exact ih h
    · rw [firstOpened_some hopen] at h ⊢
      refine ⟨⟨isShortSyntax, inner⟩, if_pos trivial, ?_⟩
      by_cases hp : p ⟨isShortSyntax, inner⟩
      · rw [if_pos hp] at h
        exact .inl (Option.some.inj h)
      · rw [if_neg hp] at h
        exact .inr (firstOpened_behind hopen h)

theorem firstOpened_of_first (h : firstOpened (fun _ => True) prev s = some x) (hp : p x) :
    firstOpened p prev s = some x := by
  induction s generalizing prev with
  | nil => cases h
  | cons c rest ih =>
    rcases hopen : opening prev (c :: rest) with _ | ⟨isShortSyntax, inner⟩
    · rw [firstOpened_none hopen] at h ⊢
      exact ih h
    · rw [firstOpened_some hopen, if_pos trivial] at h
      cases h
      rw [firstOpened_some hopen, if_pos hp]

/-- What is opened first in `l ++ c :: r` is opened first in `r`, or begins before `r`. -/
theorem firstOpened_append (hc : c ≠ dollar) (l r : List UInt8) :
    firstOpened p prev (l ++ c :: r) = firstOpened p none r ∨
      ∃ y, firstOpened p prev (l ++ c :: r) = some y ∧ r.length ≤ y.inner.length := by
  induction l generalizing prev with
  | nil =>
    have hlater : firstOpened p (some c) r = firstOpened p none r := firstOpened_prev fun h => hc (Option.some.inj h)
    rw [List.nil_append]
    rcases hopen : opening prev (c :: r) with _ | ⟨isShortSyntax, inner⟩
    · rw [firstOpened_none hopen]
      exact .inl hlater
    · have hinner : inner = r := by
        have hp := opening_eq_some hopen
        cases isShortSyntax with
        | true => exact (List.cons.inj hp).2.symm
        | false => exact absurd (List.cons.inj hp).1 hc
      rw [firstOpened_some hopen]
      by_cases hp : p ⟨isShortSyntax, inner⟩
      · rw [if_pos hp]
        exact .inr ⟨_, rfl, hinner ▸ le_refl _⟩
      · rw [if_neg hp]
        exact .inl hlater
  | cons d l ih =>
    rw [List.cons_append]
    rcases hopen : opening prev (d :: (l ++ c :: r)) with _ | ⟨isShortSyntax, inner⟩
    · rw [firstOpened_none hopen]
      exact ih
    · have hlen := (length_of_opening hopen).2
      rw [List.length_append, List.length_cons] at hlen
      rw [firstOpened_some hopen]
      by_cases hp : p ⟨isShortSyntax, inner⟩
      · rw [if_pos hp]
        exact .inr ⟨_, rfl, by dsimp only; omega⟩
      · rw [if_neg hp]
        exact ih

end

/-! ### What the analysis counts -/

/-- The values of the parameters of a query. -/
def valuesOf (query : List UInt8) : List (List UInt8) :=
  ((paramsOf query).filter (equalSign ∈ ·)).map fun param => (param.dropWhile (· ≠ equalSign)).tail

/-- The placeholders that the analysis counts. -/
def countedPlaceholders (url : List UInt8) : List Placeholder :=
  placeholdersIn (url.takeWhile (· ≠ questionMark)) ++
    (valuesOf (url.dropWhile (· ≠ questionMark)).tail).flatMap placeholdersIn

section
variable {prev : Option UInt8} {s a left rest url query value : List UInt8} {x : Placeholder} {fuel : Nat}

theorem placeholdersLoop_no_brace (h : closeBrace ∉ s) : placeholdersLoop fuel prev s = [] := by
  induction fuel generalizing prev s with
  | zero => rfl
  | succ fuel ih =>
    rcases s with _ | ⟨c, rest⟩
    · rfl
    · have hrest : closeBrace ∉ rest := fun hmem => h (List.mem_cons_of_mem c hmem)
      rw [placeholdersLoop]
      rcases hopen : opening prev (c :: rest) with _ | ⟨isShortSyntax, innerStart⟩
      · exact ih hrest
      · have hsplit : splitClosing innerStart = none := by
          refine splitClosing_eq_none.2 fun hmem => h ?_
          rw [opening_eq_some hopen]
          exact List.mem_append_right _ hmem
        simp only [hsplit]
        exact ih hrest

/-- The loop up to the first brace: it counts what is opened first. -/
theorem placeholdersLoop_brace (prev : Option UInt8) (h : closeBrace ∉ a)
    (hfuel : (a ++ closeBrace :: rest).length < fuel) :
    ∃ fuel', rest.length < fuel' ∧ ∀ x, x ∈ placeholdersLoop fuel prev (a ++ closeBrace :: rest) ↔
      (firstOpened (fun _ => True) prev a = some x ∧ x.inner.length < innerSize) ∨
        x ∈ placeholdersLoop fuel' (some closeBrace) rest := by
  induction a generalizing prev fuel with
  | nil =>
    rcases fuel with _ | fuel
    · exact absurd hfuel (Nat.not_lt_zero _)
    · refine ⟨fuel, Nat.lt_of_succ_lt_succ hfuel, fun x => ?_⟩
      rw [List.nil_append, placeholdersLoop, opening_closeBrace]
      exact ⟨.inr, fun h => h.resolve_left fun h => nomatch h.1⟩
  | cons c a ih =>
    rcases fuel with _ | fuel
    · exact absurd hfuel (Nat.not_lt_zero _)
    · have ha : closeBrace ∉ a := fun hmem => h (List.mem_cons_of_mem c hmem)
      have happend := opening_append prev c a rest
      rw [List.cons_append] at happend hfuel ⊢
      rw [placeholdersLoop, happend]
      rcases hopen : opening prev (c :: a) with _ | ⟨isShortSyntax, inner⟩
      · rw [firstOpened_none hopen]
        exact ih _ ha (Nat.lt_of_succ_lt_succ hfuel)
      · have hinner : closeBrace ∉ inner := by
          intro hmem
          refine h ?_
          rw [opening_eq_some hopen]
          exact List.mem_append_right _ hmem
        have hrest : rest.length < fuel := by
          simp only [List.length_cons, List.length_append] at hfuel
          omega
        rw [firstOpened_some hopen, if_pos trivial]
        simp only [Option.map_some, splitClosing_append hinner]
        refine ⟨fuel, hrest, fun x => ?_⟩
        by_cases hlong : inner.length ≥ innerSize
        · rw [if_pos hlong, or_iff_right]
          rintro ⟨hx, hlt⟩
          cases hx
          exact absurd hlt (Nat.not_lt.2 hlong)
        · rw [if_neg hlong, List.mem_cons]
          refine or_congr_left ⟨?_, fun h => (Option.some.inj h.1).symm⟩
          rintro rfl
          exact ⟨rfl, Nat.lt_of_not_le hlong⟩

theorem mem_placeholdersLoop (hfuel : s.length < fuel) (hprev : prev ≠ some dollar) :
    x ∈ placeholdersLoop fuel prev s ↔ ∃ left, Closes s left ∧
      firstOpened (fun _ => True) none (behindLast closeBrace left) = some x ∧ x.inner.length < innerSize := by
  induction hn : s.length using Nat.strong_induction_on generalizing s prev fuel with
  | _ n ih =>
    rcases sep_cases closeBrace s with hno | ⟨a, rest, rfl, ha⟩
    · rw [placeholdersLoop_no_brace hno]
      exact ⟨(nomatch ·), fun ⟨left, hleft, _⟩ => absurd hleft (not_closes hno)⟩
    · obtain ⟨fuel', hfuel', hmem⟩ := placeholdersLoop_brace prev ha hfuel
      have hlen : rest.length < n := by
        rw [← hn, List.length_append, List.length_cons]
        omega
      rw [hmem, firstOpened_prev hprev, ih _ hlen hfuel' (by decide) rfl]
      constructor
      · rintro (hx | ⟨l, hl, hx⟩)
        · refine ⟨a, (closes_brace ha).2 (.inl rfl), ?_⟩
          rwa [behindLast_no_sep ha]
        · refine ⟨_, (closes_brace ha).2 (.inr ⟨l, rfl, hl⟩), ?_⟩
          rwa [behindLast_sep]
      · rintro ⟨left, hleft, hx⟩
        rcases (closes_brace ha).1 hleft with rfl | ⟨l, rfl, hl⟩
        · rw [behindLast_no_sep ha] at hx
          exact .inl hx
        · rw [behindLast_sep] at hx
          exact .inr ⟨l, hl, hx⟩

theorem mem_placeholdersIn : x ∈ placeholdersIn s ↔ ∃ left, Closes s left ∧
    firstOpened (fun _ => True) none (behindLast closeBrace left) = some x ∧ x.inner.length < innerSize :=
  mem_placeholdersLoop (Nat.lt_succ_self _) (nomatch ·)

theorem valuesOf_cons (param : List UInt8) (hsep : ampersand ∉ param) (pos : List UInt8) :
    valuesOf (param ++ ampersand :: pos) = valuesOf param ++ valuesOf pos := by
  unfold valuesOf
  rw [paramsOf_sep hsep, paramsOf_no_sep hsep, ← List.map_append, ← List.filter_append]
  rfl

/-- The braces of one parameter. -/
theorem closes_valuesOf_no_sep (h : ampersand ∉ query) :
    (∃ value ∈ valuesOf query, Closes value s) ↔ ∃ left, Closes query left ∧ valueAt left = some s := by
  have hat : ∀ {left}, Closes query left → behindLast ampersand left = left :=
    fun hleft => behindLast_no_sep fun hmem => h (hleft.mem _ hmem)
  unfold valuesOf valueAt
  rw [paramsOf_no_sep h]
  rcases sep_cases equalSign query with hno | ⟨name, value, rfl, hname⟩
  · have hfilter : [query].filter (equalSign ∈ ·) = [] := List.filter_eq_nil_iff.2 (by simpa using hno)
    rw [hfilter]
    refine ⟨fun ⟨_, hmem, _⟩ => absurd hmem List.not_mem_nil, ?_⟩
    rintro ⟨left, hleft, hvalue⟩
    rw [hat hleft, if_neg fun hmem => hno (hleft.mem _ hmem)] at hvalue
    cases hvalue
  · have hfilter : [name ++ equalSign :: value].filter (equalSign ∈ ·) = [name ++ equalSign :: value] :=
      List.filter_eq_self.2 (by simp)
    rw [hfilter, List.map_singleton, dropWhile_sep hname]
    simp only [List.mem_singleton, exists_eq_left, List.tail_cons]
    constructor
    · intro hs
      have hclose : Closes (name ++ equalSign :: value) (name ++ equalSign :: s) :=
        (closes_sep (by decide)).2 (.inr ⟨s, rfl, hs⟩)
      refine ⟨_, hclose, ?_⟩
      rw [hat hclose, if_pos (List.mem_append_right name List.mem_cons_self), dropWhile_sep hname]
      rfl
    · rintro ⟨left, hleft, hvalue⟩
      rw [hat hleft] at hvalue
      rcases (closes_sep (by decide)).1 hleft with hname' | ⟨l, rfl, hl⟩
      · rw [if_neg fun hmem => hname (hname'.mem _ hmem)] at hvalue
        cases hvalue
      · rw [if_pos (List.mem_append_right name List.mem_cons_self), dropWhile_sep hname] at hvalue
        cases hvalue
        exact hl

/-- The braces of the parameter values of a query. -/
theorem closes_valuesOf : (∃ value ∈ valuesOf query, Closes value s) ↔
    ∃ left, Closes query left ∧ valueAt left = some s := by
  induction hn : query.length using Nat.strong_induction_on generalizing query with
  | _ n ih =>
    rcases sep_cases ampersand query with hno | ⟨param, pos, rfl, hsep⟩
    · exact closes_valuesOf_no_sep hno
    · have hlen : pos.length < n := by
        rw [← hn, List.length_append, List.length_cons]
        omega
      have hlater : ∀ l, valueAt (param ++ ampersand :: l) = valueAt l := by
        intro l
        unfold valueAt
        rw [behindLast_sep]
      simp only [valuesOf_cons param hsep, List.mem_append, or_and_right, exists_or]
      rw [closes_valuesOf_no_sep hsep, ih _ hlen rfl]
      constructor
      · rintro (⟨left, hleft, hvalue⟩ | ⟨l, hl, hvalue⟩)
        · exact ⟨left, (closes_sep (by decide)).2 (.inl hleft), hvalue⟩
        · exact ⟨_, (closes_sep (by decide)).2 (.inr ⟨l, rfl, hl⟩), (hlater l).trans hvalue⟩
      · rintro ⟨left, hleft, hvalue⟩
        rcases (closes_sep (by decide)).1 hleft with hleft | ⟨l, rfl, hl⟩
        · exact .inl ⟨left, hleft, hvalue⟩
        · exact .inr ⟨l, hl, (hlater l).symm.trans hvalue⟩

/-- The braces of the parts of a URL that the analysis reads. -/
theorem closes_partAt : (∃ left, Closes url left ∧ partAt left = some s) ↔
    Closes (url.takeWhile (· ≠ questionMark)) s ∨
      ∃ value ∈ valuesOf (url.dropWhile (· ≠ questionMark)).tail, Closes value s := by
  rw [closes_valuesOf]
  have hpath : ∀ {left}, questionMark ∉ left → partAt left = some left := fun h => if_neg h
  rcases sep_cases questionMark url with hno | ⟨path, query, rfl, hsep⟩
  · rw [takeWhile_no_sep hno, dropWhile_no_sep hno]
    have hnone : ¬ ∃ left, Closes [] left ∧ valueAt left = some s :=
      fun ⟨left, hleft, _⟩ => absurd hleft (not_closes List.not_mem_nil)
    rw [List.tail_nil, or_iff_left hnone]
    constructor
    · rintro ⟨left, hleft, hpart⟩
      rw [hpath fun hmem => hno (hleft.mem _ hmem)] at hpart
      cases hpart
      exact hleft
    · exact fun h => ⟨s, h, hpath fun hmem => hno (h.mem _ hmem)⟩
  · rw [takeWhile_sep hsep, dropWhile_sep hsep, List.tail_cons]
    have hquery : ∀ l, partAt (path ++ questionMark :: l) = valueAt l := by
      intro l
      unfold partAt
      rw [if_pos (List.mem_append_right path List.mem_cons_self), dropWhile_sep hsep]
      rfl
    constructor
    · rintro ⟨left, hleft, hpart⟩
      rcases (closes_sep (by decide)).1 hleft with hleft | ⟨l, rfl, hl⟩
      · rw [hpath fun hmem => hsep (hleft.mem _ hmem)] at hpart
        cases hpart
        exact .inl hleft
      · exact .inr ⟨l, hl, (hquery l).symm.trans hpart⟩
    · rintro (h | ⟨l, hl, hvalue⟩)
      · exact ⟨s, (closes_sep (by decide)).2 (.inl h), hpath fun hmem => hsep (h.mem _ hmem)⟩
      · exact ⟨_, (closes_sep (by decide)).2 (.inr ⟨l, rfl, hl⟩), (hquery l).trans hvalue⟩

/-- The placeholders that the analysis counts, by their braces. -/
theorem mem_countedPlaceholders : x ∈ countedPlaceholders url ↔ ∃ left, Closes url left ∧ CountedAt left x := by
  have hparts : x ∈ countedPlaceholders url ↔ ∃ s, (∃ left, Closes url left ∧ partAt left = some s) ∧
      firstOpened (fun _ => True) none (behindLast closeBrace s) = some x ∧ x.inner.length < innerSize := by
    unfold countedPlaceholders
    simp only [closes_partAt, List.mem_append, List.mem_flatMap, mem_placeholdersIn, or_and_right, exists_or]
    refine or_congr_right ⟨?_, ?_⟩
    · rintro ⟨value, hvalue, s, hs, hx⟩
      exact ⟨s, ⟨value, hvalue, hs⟩, hx⟩
    · rintro ⟨s, ⟨value, hvalue, hs⟩, hx⟩
      exact ⟨value, hvalue, s, hs, hx⟩
  rw [hparts]
  constructor
  · rintro ⟨s, ⟨left, hleft, hpart⟩, hfirst, hlt⟩
    exact ⟨left, hleft, ⟨s, hpart, hfirst⟩, hlt⟩
  · rintro ⟨left, hleft, ⟨s, hpart, hfirst⟩, hlt⟩
    exact ⟨s, ⟨left, hleft, hpart⟩, hfirst, hlt⟩

end

/-! ### What rendering takes -/

/-- The tokens of a brace: a placeholder that is too long is the last one. -/
def tokensAt (o : Option Placeholder) (p : List UInt8) (ts : List Token) : List Token :=
  match o with
  | none => ts
  | some x => if IsTooLong x.inner then [.tooLong p] else .value x :: ts

section
variable {prev : Option UInt8} {s a l left rest url : List UInt8} {ctx : SeekTimes} {x y : Placeholder} {fuel : Nat}
  {lits ts : List Token}
  {lits ts : List Token} {t : Token}

theorem takenAt_no_brace (h : closeBrace ∉ a) : TakenAt a x ↔ firstOpened Taken none a = some x := by
  rw [TakenAt, behindLast_no_sep h]

theorem takenAt_brace : TakenAt (a ++ closeBrace :: l) x ↔ TakenAt l x := by
  rw [TakenAt, TakenAt, behindLast_sep]

theorem writableBefore_no_brace (h : closeBrace ∉ a) : WritableBefore ctx a :=
  fun _ hl => absurd hl (not_closes h)

theorem writableBefore_brace (h : closeBrace ∉ a) : WritableBefore ctx (a ++ closeBrace :: l) ↔
    (∀ x, TakenAt a x → Writable ctx x) ∧ WritableBefore ctx l := by
  constructor
  · intro hbefore
    refine ⟨hbefore a ((closes_brace h).2 (.inl rfl)), fun l' hl' x hx => ?_⟩
    exact hbefore _ ((closes_brace h).2 (.inr ⟨l', rfl, hl'⟩)) x (takenAt_brace.2 hx)
  · rintro ⟨hfirst, hlater⟩ l' hl'
    rcases (closes_brace h).1 hl' with rfl | ⟨m, rfl, hm⟩
    · exact hfirst
    · exact fun x hx => hlater m hm x (takenAt_brace.1 hx)

theorem tokensLoop_no_brace (fuel : Nat) (prev : Option UInt8) (h : closeBrace ∉ s) :
    ∀ t ∈ tokensLoop fuel prev s, t.isLit = true := by
  induction fuel generalizing prev s with
  | zero => exact fun t ht => absurd ht List.not_mem_nil
  | succ fuel ih =>
    rcases s with _ | ⟨c, rest⟩
    · exact fun t ht => absurd ht List.not_mem_nil
    · have hrest : closeBrace ∉ rest := fun hmem => h (List.mem_cons_of_mem c hmem)
      have hlit : ∀ t ∈ Token.lit c :: tokensLoop fuel (some c) rest, t.isLit = true :=
        List.forall_mem_cons.2 ⟨rfl, ih _ hrest⟩
      rw [tokensLoop]
      rcases hopen : opening prev (c :: rest) with _ | ⟨isShortSyntax, innerStart⟩
      · exact hlit
      · have hsplit : splitClosing innerStart = none := by
          refine splitClosing_eq_none.2 fun hmem => h ?_
          rw [opening_eq_some hopen]
          exact List.mem_append_right _ hmem
        simp only [hsplit]
        exact hlit

/-- The tokens up to the first brace. -/
theorem tokensLoop_brace (prev : Option UInt8) (h : closeBrace ∉ a)
    (hfuel : (a ++ closeBrace :: rest).length < fuel) :
    ∃ lits fuel' p, (∀ t ∈ lits, Token.isLit t = true) ∧ rest.length < fuel' ∧
      tokensLoop fuel prev (a ++ closeBrace :: rest) =
        lits ++ tokensAt (firstOpened Taken prev a) p (tokensLoop fuel' (some closeBrace) rest) := by
  induction a generalizing prev fuel with
  | nil =>
    rcases fuel with _ | fuel
    · exact absurd hfuel (Nat.not_lt_zero _)
    · refine ⟨[.lit closeBrace], fuel, [], List.forall_mem_singleton.2 rfl, Nat.lt_of_succ_lt_succ hfuel, ?_⟩
      rw [List.nil_append, tokensLoop, opening_closeBrace]
      rfl
  | cons c a ih =>
    rcases fuel with _ | fuel
    · exact absurd hfuel (Nat.not_lt_zero _)
    · have ha : closeBrace ∉ a := fun hmem => h (List.mem_cons_of_mem c hmem)
      have happend := opening_append prev c a rest
      rw [List.cons_append] at happend hfuel ⊢
      obtain ⟨lits, fuel', p, hlits, hfuel', htokens⟩ :=
        ih (some c) ha (Nat.lt_of_succ_lt_succ hfuel)
      have hlit : ∃ lits fuel' p, (∀ t ∈ lits, Token.isLit t = true) ∧ rest.length < fuel' ∧
          Token.lit c :: tokensLoop fuel (some c) (a ++ closeBrace :: rest) =
            lits ++ tokensAt (firstOpened Taken (some c) a) p (tokensLoop fuel' (some closeBrace) rest) :=
        ⟨.lit c :: lits, fuel', p, List.forall_mem_cons.2 ⟨rfl, hlits⟩, hfuel', congrArg (Token.lit c :: ·) htokens⟩
      rw [tokensLoop, happend]
      rcases hopen : opening prev (c :: a) with _ | ⟨isShortSyntax, inner⟩
      · rw [firstOpened_none hopen]
        exact hlit
      · have hinner : closeBrace ∉ inner := by
          intro hmem
          refine h ?_
          rw [opening_eq_some hopen]
          exact List.mem_append_right _ hmem
        have hrest : rest.length < fuel := by
          simp only [List.length_cons, List.length_append] at hfuel
          omega
        rw [firstOpened_some hopen]
        simp only [Option.map_some, splitClosing_append hinner]
        by_cases hlong : IsTooLong inner
        · rw [if_pos hlong, if_pos (show Taken ⟨isShortSyntax, inner⟩ from .inl hlong)]
          exact ⟨[], fuel, _, fun t ht => absurd ht List.not_mem_nil, hrest, (if_pos hlong).symm⟩
        · rw [if_neg hlong]
          by_cases hreplaced : Replaced ⟨isShortSyntax, inner⟩
          · rw [if_pos hreplaced, if_pos (show Taken ⟨isShortSyntax, inner⟩ from .inr hreplaced)]
            exact ⟨[], fuel, [], fun t ht => absurd ht List.not_mem_nil, hrest, (if_neg hlong).symm⟩
          · rw [if_neg hreplaced, if_neg (show ¬ Taken ⟨isShortSyntax, inner⟩ from not_or_intro hlong hreplaced)]
            exact hlit

theorem exists_not_lit_append (hlits : ∀ t ∈ lits, Token.isLit t = true) :
    (∃ t ∈ lits ++ ts, t.isLit = false) ↔ ∃ t ∈ ts, t.isLit = false := by
  constructor
  · rintro ⟨t, ht, hlit⟩
    rcases List.mem_append.1 ht with ht | ht
    · exact absurd (hlits t ht) (by rw [hlit]; decide)
    · exact ⟨t, ht, hlit⟩
  · rintro ⟨t, ht, hlit⟩
    exact ⟨t, List.mem_append_right lits ht, hlit⟩

theorem exists_not_lit_loop (hfuel : s.length < fuel) (hprev : prev ≠ some dollar) :
    (∃ t ∈ tokensLoop fuel prev s, t.isLit = false) ↔ ∃ left x, Closes s left ∧ TakenAt left x := by
  induction hn : s.length using Nat.strong_induction_on generalizing s prev fuel with
  | _ n ih =>
    rcases sep_cases closeBrace s with hno | ⟨a, rest, rfl, ha⟩
    · constructor
      · rintro ⟨t, ht, hlit⟩
        exact absurd (tokensLoop_no_brace fuel prev hno t ht) (by rw [hlit]; decide)
      · rintro ⟨left, x, hleft, -⟩
        exact absurd hleft (not_closes hno)
    · obtain ⟨lits, fuel', p, hlits, hfuel', htokens⟩ := tokensLoop_brace prev ha hfuel
      have hlen : rest.length < n := by
        rw [← hn, List.length_append, List.length_cons]
        omega
      have hrest : (∃ t ∈ tokensLoop fuel' (some closeBrace) rest, t.isLit = false) ↔
          ∃ left x, Closes rest left ∧ TakenAt left x := ih _ hlen hfuel' (by decide) rfl
      rw [htokens, exists_not_lit_append hlits, firstOpened_prev hprev]
      rcases hfirst : firstOpened Taken none a with _ | x
      · refine hrest.trans ⟨?_, ?_⟩
        · rintro ⟨l, x, hl, hx⟩
          exact ⟨_, x, (closes_brace ha).2 (.inr ⟨l, rfl, hl⟩), takenAt_brace.2 hx⟩
        · rintro ⟨left, x, hleft, hx⟩
          rcases (closes_brace ha).1 hleft with rfl | ⟨l, rfl, hl⟩
          · rw [takenAt_no_brace ha, hfirst] at hx
            cases hx
          · exact ⟨l, x, hl, takenAt_brace.1 hx⟩
      · have hsome : ∃ t ∈ tokensAt (some x) p (tokensLoop fuel' (some closeBrace) rest), t.isLit = false := by
          unfold tokensAt
          dsimp only
          split_ifs
          · exact ⟨_, List.mem_singleton_self _, rfl⟩
          · exact ⟨_, List.mem_cons_self, rfl⟩
        refine iff_of_true hsome ⟨a, x, (closes_brace ha).2 (.inl rfl), ?_⟩
        exact (takenAt_no_brace ha).2 hfirst

/-- Rendering takes a placeholder if and only if it does so at some brace. -/
theorem exists_not_lit : (∃ t ∈ tokens url, t.isLit = false) ↔ ∃ left x, Closes url left ∧ TakenAt left x :=
  exists_not_lit_loop (Nat.lt_succ_self _) (nomatch ·)

theorem reaches_append (hlits : ∀ t ∈ lits, Token.isLit t = true) :
    Reaches ctx (lits ++ ts) (.value x) ↔ Reaches ctx ts (.value x) := by
  induction lits with
  | nil => exact Iff.rfl
  | cons t lits ih =>
    obtain ⟨ht, hlits⟩ := List.forall_mem_cons.1 hlits
    rw [← ih hlits]
    cases t with
    | lit c =>
      constructor
      · intro h
        cases h with
        | tail _ h => exact h
      · exact .tail rfl
    | value y => cases ht
    | tooLong p => cases ht

theorem reaches_value : Reaches ctx (.value y :: ts) (.value x) ↔
    y = x ∨ (∃ value, (Token.value y).render ctx = .ok value) ∧ Reaches ctx ts (.value x) := by
  constructor
  · intro h
    cases h with
    | head => exact .inl rfl
    | tail hy h => exact .inr ⟨⟨_, hy⟩, h⟩
  · rintro (rfl | ⟨⟨value, hy⟩, h⟩)
    · exact .head
    · exact .tail hy h

theorem not_reaches_tooLong {p : List UInt8} : ¬ Reaches ctx [.tooLong p] (.value x) := by
  intro h
  cases h with
  | tail _ h => cases h

theorem reaches_loop (hfuel : s.length < fuel) (hprev : prev ≠ some dollar) :
    Reaches ctx (tokensLoop fuel prev s) (.value x) ↔
      ∃ left, Closes s left ∧ TakenAt left x ∧ ¬ IsTooLong x.inner ∧ WritableBefore ctx left := by
  induction hn : s.length using Nat.strong_induction_on generalizing s prev fuel with
  | _ n ih =>
    rcases sep_cases closeBrace s with hno | ⟨a, rest, rfl, ha⟩
    · have hlits : Reaches ctx (tokensLoop fuel prev s ++ []) (.value x) ↔ Reaches ctx [] (.value x) :=
        reaches_append (tokensLoop_no_brace fuel prev hno)
      rw [List.append_nil] at hlits
      rw [hlits]
      exact ⟨(nomatch ·), fun ⟨left, hleft, _⟩ => absurd hleft (not_closes hno)⟩
    · obtain ⟨lits, fuel', p, hlits, hfuel', htokens⟩ := tokensLoop_brace prev ha hfuel
      have hlen : rest.length < n := by
        rw [← hn, List.length_append, List.length_cons]
        omega
      have hrest : Reaches ctx (tokensLoop fuel' (some closeBrace) rest) (.value x) ↔
          ∃ left, Closes rest left ∧ TakenAt left x ∧ ¬ IsTooLong x.inner ∧ WritableBefore ctx left :=
        ih _ hlen hfuel' (by decide) rfl
      have hbraces : (∃ left, Closes (a ++ closeBrace :: rest) left ∧ TakenAt left x ∧ ¬ IsTooLong x.inner ∧
          WritableBefore ctx left) ↔ (firstOpened Taken none a = some x ∧ ¬ IsTooLong x.inner) ∨
            (∀ y, firstOpened Taken none a = some y → Writable ctx y) ∧
              Reaches ctx (tokensLoop fuel' (some closeBrace) rest) (.value x) := by
        rw [hrest]
        constructor
        · rintro ⟨left, hleft, hx, hlong, hbefore⟩
          rcases (closes_brace ha).1 hleft with rfl | ⟨l, rfl, hl⟩
          · exact .inl ⟨(takenAt_no_brace ha).1 hx, hlong⟩
          · obtain ⟨hfirst, hbefore⟩ := (writableBefore_brace ha).1 hbefore
            exact .inr ⟨fun y hy => hfirst y ((takenAt_no_brace ha).2 hy), l, hl, takenAt_brace.1 hx, hlong, hbefore⟩
        · rintro (⟨hx, hlong⟩ | ⟨hfirst, l, hl, hx, hlong, hbefore⟩)
          · exact ⟨a, (closes_brace ha).2 (.inl rfl), (takenAt_no_brace ha).2 hx, hlong, writableBefore_no_brace ha⟩
          · refine ⟨_, (closes_brace ha).2 (.inr ⟨l, rfl, hl⟩), takenAt_brace.2 hx, hlong, ?_⟩
            exact (writableBefore_brace ha).2 ⟨fun y hy => hfirst y ((takenAt_no_brace ha).1 hy), hbefore⟩
      rw [hbraces, htokens, reaches_append hlits, firstOpened_prev hprev]
      rcases firstOpened Taken none a with _ | y
      · refine ⟨fun h => .inr ⟨fun _ hy => (nomatch hy), h⟩, ?_⟩
        rintro (⟨h, -⟩ | ⟨-, h⟩)
        · cases h
        · exact h
      · unfold tokensAt
        dsimp only
        by_cases hlong : IsTooLong y.inner
        · rw [if_pos hlong]
          refine iff_of_false not_reaches_tooLong ?_
          rintro (⟨h, hnot⟩ | ⟨h, -⟩)
          · cases h
            exact hnot hlong
          · exact (h y rfl).1 hlong
        · rw [if_neg hlong, reaches_value]
          refine or_congr ⟨?_, fun h => Option.some.inj h.1⟩ (and_congr_left' ⟨?_, fun h => (h y rfl).2⟩)
          · rintro rfl
            exact ⟨rfl, hlong⟩
          · rintro hvalue z hz
            cases hz
            exact ⟨hlong, hvalue⟩

/-- Rendering comes to a placeholder at a brace, where everything before can be written at some times. -/
theorem reached_iff : Reached url (.value x) ↔
    ∃ left, Closes url left ∧ TakenAt left x ∧ ¬ IsTooLong x.inner ∧ ∃ ctx, WritableBefore ctx left := by
  unfold Reached tokens
  simp only [reaches_loop (Nat.lt_succ_self _) (show (none : Option UInt8) ≠ some dollar from nofun)]
  constructor
  · rintro ⟨ctx, left, hleft, hx, hlong, hbefore⟩
    exact ⟨left, hleft, hx, hlong, ctx, hbefore⟩
  · rintro ⟨left, hleft, hx, hlong, ctx, hbefore⟩
    exact ⟨ctx, left, hleft, hx, hlong, hbefore⟩

end

end Rtp2httpd
