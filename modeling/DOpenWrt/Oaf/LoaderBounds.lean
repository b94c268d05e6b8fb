import DOpenWrt.Lib.Except
import DOpenWrt.Lib.Run
import DOpenWrt.Oaf.NameTables
import DOpenWrt.Oaf.TimeConfig

/-!
# The arrays of the loaders

When the loaders of the daemon stay inside their arrays: for each loader a condition on what it reads, one line, value or
token at a time.
-/

namespace Oaf
open CString (str)

theorem not_ok_write {α : Type} : ¬ ∃ a, (.error .write : Except OutOfBounds α) = .ok a := by
  rintro ⟨a, h⟩
  cases h

theorem ok_ok {α : Type} (a : α) : ∃ b, (.ok a : Except OutOfBounds α) = .ok b := ⟨a, rfl⟩

/-! ### Lists of UCI -/

/-- The text of a list. -/
def UciLookup.text (delimt : List UInt8) : UciLookup → List UInt8
  | .optionList values _ => delimt.intercalate values
  | _ => []

/-- A list fits with its NUL, unless it is empty. -/
def ListFits (delimt : List UInt8) (outLen : ℕ) : UciLookup → Prop
  | .optionList values _ => values = [] ∨ (delimt.intercalate values).length < outLen
  | _ => True

section
variable {delimt name : List UInt8} {outLen : ℕ} {values : List (List UInt8)}

theorem intercalate_concat (delimt : List UInt8) (values : List (List UInt8)) (name : List UInt8) :
    delimt.intercalate (values ++ [name]) =
      if values = [] then name else delimt.intercalate values ++ delimt ++ name := by
  induction values with
  | nil => rw [List.nil_append, List.intercalate_singleton, if_pos rfl]
  | cons value values ih =>
    rw [if_neg (List.cons_ne_nil _ _), List.cons_append, List.intercalate_cons_of_ne_nil (by simp), ih]
    split
    · next hnil => rw [hnil, List.intercalate_singleton]
    · next hne => rw [List.intercalate_cons_of_ne_nil hne]; simp only [List.append_assoc]

/-- What `output` holds after some values. -/
structure Appended (delimt : List UInt8) (outLen : ℕ) (values : List (List UInt8)) (state : Bool × List UInt8) : Prop where
  sep : state.1 = true ↔ values ≠ []
  output : state.2 = delimt.intercalate values

theorem appendString_ok {size : ℕ} {output s : List UInt8} :
    (∃ r, appendString size output s = .ok r) ↔ output.length + s.length < size := by
  rw [appendString]
  split
  · next h => exact iff_of_true (ok_ok _) h
  · next h => exact iff_of_false not_ok_write h

theorem appendString_eq {size : ℕ} {output s r : List UInt8} (h : appendString size output s = .ok r) :
    r = output ++ s := by
  rw [appendString] at h
  split at h
  · exact (Except.ok.inj h).symm
  · cases h

/-- With a value before it, a value needs room for the separator too. -/
theorem appendSeparator_eq {state : Bool × List UInt8} (h : Appended delimt outLen values state) :
    appendSeparator outLen delimt state =
      if values = [] then .ok [] else appendString outLen (delimt.intercalate values) (delimt.take outLen) := by
  rw [appendSeparator, h.output]
  split
  · next hsep => rw [if_neg (h.sep.1 hsep)]
  · next hsep =>
    have hnil : values = [] := not_not.1 fun hne => hsep (h.sep.2 hne)
    rw [if_pos hnil, hnil]; rfl

theorem appendValue_ok {state : Bool × List UInt8} (h : Appended delimt outLen values state) :
    (∃ r, appendValue outLen delimt state name = .ok r) ↔ (delimt.intercalate (values ++ [name])).length < outLen := by
  have hname (output : List UInt8) : (∃ r, (do
      let output ← appendString outLen output name
      return (true, output)) = .ok r) ↔ output.length + name.length < outLen := by
    rw [Except.exists_bind_eq_ok, ← appendString_ok]
    exact exists_congr fun r => and_iff_left (ok_ok _)
  rw [appendValue, appendSeparator_eq h, intercalate_concat]
  split
  · rw [Except.ok_bind, hname, List.length_nil, Nat.zero_add]
  · rw [Except.exists_bind_eq_ok, List.length_append, List.length_append]
    constructor
    · rintro ⟨output, houtput, hrest⟩
      have hfirst := appendString_ok.1 ⟨output, houtput⟩
      rw [hname, appendString_eq houtput, List.length_append] at hrest
      rw [List.length_take] at hfirst hrest
      omega
    · intro hroom
      have htake : delimt.take outLen = delimt := List.take_of_length_le (by omega)
      obtain ⟨output, houtput⟩ := (@appendString_ok outLen (delimt.intercalate values) delimt).2 (by omega)
      refine ⟨output, htake.symm ▸ houtput, (hname output).2 ?_⟩
      rwa [appendString_eq houtput, List.length_append]

theorem Appended.step {state state' : Bool × List UInt8} (h : Appended delimt outLen values state)
    (hstep : appendValue outLen delimt state name = .ok state') : Appended delimt outLen (values ++ [name]) state' := by
  have hroom := (appendValue_ok h).1 ⟨_, hstep⟩
  rw [appendValue, appendSeparator_eq h] at hstep
  obtain ⟨before, hbefore, hstep⟩ := Except.bind_eq_ok.1 hstep
  obtain ⟨output, houtput, hstep⟩ := Except.bind_eq_ok.1 hstep
  obtain rfl := Except.ok.inj hstep
  obtain rfl := appendString_eq houtput
  refine ⟨iff_of_true rfl (by simp), ?_⟩
  rw [intercalate_concat] at hroom ⊢
  split
  · next hnil =>
    rw [if_pos hnil] at hbefore
    rw [← Except.ok.inj hbefore]; rfl
  · next hne =>
    rw [if_neg hne, List.length_append, List.length_append] at hroom
    rw [if_neg hne] at hbefore
    rw [appendString_eq hbefore, List.take_of_length_le (by omega)]

theorem length_intercalate_le (before behind : List (List UInt8)) :
    (delimt.intercalate before).length ≤ (delimt.intercalate (before ++ behind)).length := by
  induction behind using List.reverseRecOn with
  | nil => rw [List.append_nil]
  | append_singleton behind name ih =>
    rw [← List.append_assoc, intercalate_concat]
    split
    · next hnil => rw [(List.append_eq_nil_iff.1 hnil).1]; exact Nat.zero_le _
    · rw [List.append_assoc, List.length_append]
      exact ih.trans (Nat.le_add_right ..)

theorem appended_nil : Appended delimt outLen [] (false, []) := ⟨iff_of_false Bool.false_ne_true (not_not.2 rfl), rfl⟩

theorem appendValues_ok :
    (∃ s', values.foldlM (appendValue outLen delimt) (false, []) = .ok s') ↔
      values = [] ∨ (delimt.intercalate values).length < outLen := by
  rw [Run.foldlM_ok_iff_start (I := Appended delimt outLen) (fun _ _ _ _ => Appended.step)
    (fun _ _ _ => appendValue_ok) appended_nil]
  constructor
  · intro hall
    rcases List.eq_nil_or_concat' values with rfl | ⟨before, name, rfl⟩
    · exact .inl rfl
    · exact .inr (hall before name [] rfl)
  · rintro (rfl | hroom) before name behind heq
    · exact absurd heq (by simp)
    · refine (length_intercalate_le _ behind).trans_lt ?_
      rwa [List.append_assoc, List.singleton_append, ← heq]

end

theorem afUciGetListValue_ok {lookup : UciLookup} {output delimt : List UInt8} {outLen : ℕ} :
    (∃ r, afUciGetListValue lookup output outLen delimt = .ok r) ↔ ListFits delimt outLen lookup := by
  cases lookup with
  | notFound => exact iff_of_true (ok_ok _) trivial
  | sectionType type => exact iff_of_true (ok_ok _) trivial
  | optionString value => exact iff_of_true (ok_ok _) trivial
  | optionList values raw =>
    rw [afUciGetListValue, Except.exists_bind_eq_ok, ListFits, ← appendValues_ok]
    exact exists_congr fun s => and_iff_left (ok_ok _)

/-- The text of the list is in `output` then. -/
theorem afUciGetListValue_text {lookup : UciLookup} {delimt : List UInt8} {outLen : ℕ} {r : ℤ × List UInt8}
    (h : afUciGetListValue lookup [] outLen delimt = .ok r) : r.2 = lookup.text delimt := by
  cases lookup with
  | notFound => exact (Except.ok.inj h) ▸ rfl
  | sectionType type => exact (Except.ok.inj h) ▸ rfl
  | optionString value => exact (Except.ok.inj h) ▸ rfl
  | optionList values raw =>
    rw [afUciGetListValue] at h
    obtain ⟨state, hrun, hr⟩ := Except.bind_eq_ok.1 h
    have hend := Run.foldlM_invariant (I := Appended delimt outLen) (fun _ _ _ _ => Appended.step) appended_nil hrun
    exact (Except.ok.inj hr) ▸ hend.output

/-! ### The time configuration -/

section
variable {unfit : ℤ → ℤ}

/-- The part of a token behind the weekdays. -/
def timePart (p : List UInt8) : List UInt8 :=
  match p.findIdx? (· = ';'.toUInt8) with
  | some semicolon => p.drop (semicolon + 1)
  | none => p

/-- A token with a start and an end, which takes a place of the list. -/
def isTimed (unfit : ℤ → ℤ) (p : List UInt8) : Bool := (scanNumbers unfit [':', '-', ':'] (timePart p)).length = 4

/-- The weekdays of the token fit their buffer. -/
def WeekdaysFit (p : List UInt8) : Prop := ∀ semicolon, p.findIdx? (· = ';'.toUInt8) = some semicolon → semicolon < weekdayStrLen

/-- The days are weekdays, the time list fits its buffer, and every token of it comes when there is a place left. -/
structure TimeFits (unfit : ℤ → ℤ) (uci : Uci) : Prop where
  days : ∀ p ∈ tokens ' ' (optionText uci "appfilter.time.days"), 0 ≤ atoi unfit p ∧ atoi unfit p < 7
  list : ListFits (str " ") maxTimeListLen (uci "appfilter.time.time")
  periods : ∀ before p behind, periodTokens ((uci "appfilter.time.time").text (str " ")) = before ++ p :: behind →
    before.countP (isTimed unfit) < maxTimeList ∧ WeekdaysFit p

theorem setDay_ok {days : Fin 7 → ℤ} {p : List UInt8} :
    (∃ days', setDay unfit days p = .ok days') ↔ 0 ≤ atoi unfit p ∧ atoi unfit p < 7 := by
  rw [setDay]
  split
  · next h => exact iff_of_true (ok_ok _) ⟨h.1, by omega⟩
  · next h => exact iff_of_false not_ok_write fun hday => h ⟨hday.1, by omega⟩

theorem setDays_ok {days : Fin 7 → ℤ} {items : List (List UInt8)} :
    (∃ days', items.foldlM (setDay unfit) days = .ok days') ↔ ∀ p ∈ items, 0 ≤ atoi unfit p ∧ atoi unfit p < 7 := by
  rw [Run.foldlM_ok_iff_start (I := fun _ _ => True) (D := fun _ p => 0 ≤ atoi unfit p ∧ atoi unfit p < 7)
    (fun _ _ _ _ _ _ => trivial) (fun _ _ _ _ => setDay_ok) trivial]
  constructor
  · intro hall p hp
    obtain ⟨before, behind, heq⟩ := List.append_of_mem hp
    exact hall before p behind heq
  · intro hall before p behind heq
    exact hall p (heq ▸ List.mem_append_right _ List.mem_cons_self)

/-- The places taken after some tokens. -/
def Counted (unfit : ℤ → ℤ) (done : List (List UInt8)) (state : AfTimeConfig × ℤ) : Prop :=
  state.1.timeNum = done.countP (isTimed unfit)

theorem loadPeriod_ok {state : AfTimeConfig × ℤ} {p : List UInt8} :
    (∃ state', loadPeriod unfit state p = .ok state') ↔ state.1.timeNum < maxTimeList ∧ WeekdaysFit p := by
  rw [loadPeriod, WeekdaysFit]
  dsimp only
  split
  · next h =>
    rw [and_iff_right h]
    cases hfind : p.findIdx? (· = ';'.toUInt8) with
    | none => exact iff_of_true (ok_ok _) fun _ hnone => absurd hnone (Option.some_ne_none _).symm
    | some semicolon =>
      dsimp only
      split
      · next hlong => exact iff_of_false not_ok_write fun hall => Nat.not_lt.2 hlong (hall semicolon rfl)
      · next hshort => exact iff_of_true (ok_ok _) fun _ heq => Option.some.inj heq ▸ Nat.not_le.1 hshort
  · next h => exact iff_of_false not_ok_write fun hplace => h hplace.1

theorem loadPeriod_timeNum {state state' : AfTimeConfig × ℤ} {p : List UInt8}
    (h : loadPeriod unfit state p = .ok state') :
    state'.1.timeNum = if isTimed unfit p then state.1.timeNum + 1 else state.1.timeNum := by
  rw [loadPeriod] at h
  dsimp only at h
  rw [isTimed, timePart]
  split at h
  · cases hfind : p.findIdx? (· = ';'.toUInt8) with
    | none =>
      rw [hfind] at h
      obtain rfl := Except.ok.inj h
      simp only [decide_eq_true_eq]
    | some semicolon =>
      rw [hfind] at h
      dsimp only at h
      split at h
      · cases h
      · obtain rfl := Except.ok.inj h
        simp only [decide_eq_true_eq]
  · cases h

theorem Counted.step {done : List (List UInt8)} {state state' : AfTimeConfig × ℤ} {p : List UInt8}
    (h : Counted unfit done state) (hstep : loadPeriod unfit state p = .ok state') :
    Counted unfit (done ++ [p]) state' := by
  rw [Counted, loadPeriod_timeNum hstep, List.countP_append, List.countP_singleton, h]
  split <;> rfl

theorem loadPeriods_ok {tConfig : AfTimeConfig} {oldVerConfig : ℤ} (hzero : tConfig.timeNum = 0)
    {items : List (List UInt8)} :
    (∃ state', items.foldlM (loadPeriod unfit) (tConfig, oldVerConfig) = .ok state') ↔
      ∀ before p behind, items = before ++ p :: behind →
        before.countP (isTimed unfit) < maxTimeList ∧ WeekdaysFit p :=
  Run.foldlM_ok_iff_start (I := Counted unfit)
    (D := fun before p => before.countP (isTimed unfit) < maxTimeList ∧ WeekdaysFit p)
    (fun _ _ _ _ => Counted.step) (fun _ _ _ h => h ▸ loadPeriod_ok) hzero

theorem afLoadTimeConfig_ok {uci : Uci} : (∃ r, afLoadTimeConfig unfit uci = .ok r) ↔ TimeFits unfit uci := by
  have hsplit : TimeFits unfit uci ↔ (∀ p ∈ tokens ' ' (optionText uci "appfilter.time.days"),
      0 ≤ atoi unfit p ∧ atoi unfit p < 7) ∧ ListFits (str " ") maxTimeListLen (uci "appfilter.time.time") ∧
        ∀ before p behind, periodTokens ((uci "appfilter.time.time").text (str " ")) = before ++ p :: behind →
          before.countP (isTimed unfit) < maxTimeList ∧ WeekdaysFit p :=
    ⟨fun h => ⟨h.days, h.list, h.periods⟩, fun h => ⟨h.1, h.2.1, h.2.2⟩⟩
  rw [hsplit, afLoadTimeConfig]
  dsimp only
  rw [Except.exists_bind_eq_ok, ← @setDays_ok unfit fun _ => 0, ← @afUciGetListValue_ok _ []]
  constructor
  · rintro ⟨days, hdays, hrest⟩
    obtain ⟨list, hlist, hend⟩ := Except.exists_bind_eq_ok.1 hrest
    refine ⟨⟨days, hdays⟩, ⟨list, hlist⟩, ?_⟩
    rw [← afUciGetListValue_text hlist]
    split at hend
    · next hnil =>
      rw [hnil]
      exact fun before p behind heq => absurd heq (by simp)
    · obtain ⟨state, hstate, -⟩ := Except.exists_bind_eq_ok.1 hend
      refine (loadPeriods_ok ?_).1 ⟨state, hstate⟩
      rfl
  · rintro ⟨⟨days, hdays⟩, ⟨list, hlist⟩, hperiods⟩
    rw [← afUciGetListValue_text hlist] at hperiods
    refine ⟨days, hdays, Except.exists_bind_eq_ok.2 ⟨list, hlist, ?_⟩⟩
    split
    · exact ok_ok _
    · refine Except.exists_bind_eq_ok.2 (Exists.imp (fun state hstate => ⟨hstate, ?_⟩) ((loadPeriods_ok ?_).2 hperiods))
      · split <;> exact ok_ok _
      · rfl

end

/-! ### The tables of names -/

section
variable {unfit : ℤ → ℤ} {behind : List UInt8} {line : List UInt8}

/-- The word behind the number of an application. -/
def appWord (unfit : ℤ → ℤ) (info : List UInt8) : Option (List UInt8) := do
  let (_, rest) ← scanNumber unfit info
  let (word, _) ← scanWord rest
  return word

def isTaken (line : List UInt8) : Bool := (appLineColon line).isSome

/-- Every line that is taken finds room, and so do what is before its colon and the name in it. -/
def NamesFit (unfit : ℤ → ℤ) (behind : List UInt8) (lines : List (List UInt8)) : Prop :=
  ∀ before line rest, lines = before ++ line :: rest → ∀ colon, appLineColon line = some colon →
    colon ≤ appInfoBufLen ∧ (∀ word, appWord unfit (appInfo behind line colon) = some word → word.length < nameBufLen) ∧
      before.countP isTaken < maxSupportAppNum

theorem storeWord_ok {size : ℕ} {word : List UInt8} : (∃ r, storeWord size word = .ok r) ↔ word.length < size := by
  rw [storeWord]
  split
  · next h => exact iff_of_true (ok_ok _) h
  · next h => exact iff_of_false not_ok_write h

theorem storeWord_eq {size : ℕ} {word r : List UInt8} (h : storeWord size word = .ok r) :
    r = word ∧ word.length < size := by
  have hlt := storeWord_ok.1 ⟨r, h⟩
  rw [storeWord, if_pos hlt] at h
  exact ⟨(Except.ok.inj h).symm, hlt⟩

theorem scanApp_ok {info : List UInt8} :
    (∃ r, scanApp unfit info = .ok r) ↔ ∀ word, appWord unfit info = some word → word.length < nameBufLen := by
  rw [scanApp, appWord]
  cases scanNumber unfit info with
  | none => exact iff_of_true (ok_ok _) fun _ h => absurd h (Option.some_ne_none _).symm
  | some number =>
    dsimp only [Option.bind_eq_bind, Option.bind_some]
    cases scanWord number.2 with
    | none => exact iff_of_true (ok_ok _) fun _ h => absurd h (Option.some_ne_none _).symm
    | some word =>
      dsimp only [Option.bind_some]
      rw [Except.exists_bind_eq_ok]
      refine Iff.trans (exists_congr fun r => and_iff_left (ok_ok _)) (storeWord_ok.trans ?_)
      exact ⟨fun h _ heq => Option.some.inj heq ▸ h, fun h => h _ rfl⟩

/-- The name that has been read is short enough. -/
theorem scanApp_length {info : List UInt8} {r : Option ℤ × List UInt8} (h : scanApp unfit info = .ok r) :
    r.2.length < nameBufLen := by
  have hzero : ([] : List UInt8).length < nameBufLen := by decide
  rw [scanApp] at h
  cases hnumber : scanNumber unfit info with
  | none =>
    rw [hnumber] at h
    exact Except.ok.inj h ▸ hzero
  | some number =>
    rw [hnumber] at h
    dsimp only at h
    cases hword : scanWord number.2 with
    | none =>
      rw [hword] at h
      exact Except.ok.inj h ▸ hzero
    | some word =>
      rw [hword] at h
      obtain ⟨name, hname, hr⟩ := Except.bind_eq_ok.1 h
      obtain ⟨rfl, hlt⟩ := storeWord_eq hname
      exact Except.ok.inj hr ▸ hlt

theorem addAppName_ok {table : List AppNameInfo} :
    (∃ r, addAppName unfit behind table line = .ok r) ↔ ∀ colon, appLineColon line = some colon →
      colon ≤ appInfoBufLen ∧
        (∀ word, appWord unfit (appInfo behind line colon) = some word → word.length < nameBufLen) ∧
          table.length < maxSupportAppNum := by
  rw [addAppName]
  cases appLineColon line with
  | none => exact iff_of_true (ok_ok _) fun _ h => absurd h (Option.some_ne_none _).symm
  | some colon =>
    have hone (P : ℕ → Prop) : (∀ c, some colon = some c → P c) ↔ P colon :=
      ⟨fun h => h colon rfl, fun h c hc => Option.some.inj hc ▸ h⟩
    dsimp only
    rw [hone, ← scanApp_ok]
    split
    · next hlong => exact iff_of_false not_ok_write fun h => Nat.not_le.2 hlong h.1
    · next hshort =>
      rw [and_iff_right (Nat.not_lt.1 hshort), Except.exists_bind_eq_ok]
      constructor
      · rintro ⟨r, hr, hrest⟩
        refine ⟨⟨r, hr⟩, ?_⟩
        split at hrest
        · exact absurd hrest not_ok_write
        · next hroom => exact Nat.not_le.1 hroom
      · rintro ⟨⟨r, hr⟩, hroom⟩
        refine ⟨r, hr, ?_⟩
        rw [if_neg (Nat.not_le.2 hroom), Except.exists_bind_eq_ok]
        obtain ⟨name, hname⟩ := storeWord_ok.2 (scanApp_length hr)
        exact ⟨name, hname, ok_ok _⟩

theorem addAppName_length {table table' : List AppNameInfo} (h : addAppName unfit behind table line = .ok table') :
    table'.length = if isTaken line then table.length + 1 else table.length := by
  rw [addAppName] at h
  rw [isTaken]
  cases hcolon : appLineColon line with
  | none =>
    rw [hcolon] at h
    exact Except.ok.inj h ▸ rfl
  | some colon =>
    rw [hcolon] at h
    dsimp only at h
    split at h
    · cases h
    · obtain ⟨r, -, hrest⟩ := Except.bind_eq_ok.1 h
      split at hrest
      · cases hrest
      · obtain ⟨name, -, hend⟩ := Except.bind_eq_ok.1 hrest
        rw [← Except.ok.inj hend, List.length_append]; rfl

theorem initAppNameTable_ok {file : List UInt8} {table : List AppNameInfo} :
    (∃ r, initAppNameTable unfit behind (some file) table = .ok r) ↔ NamesFit unfit behind (fileLines file) :=
  Run.foldlM_ok_iff_start (I := fun done table => table.length = done.countP isTaken)
    (D := fun before line => ∀ colon, appLineColon line = some colon → colon ≤ appInfoBufLen ∧
      (∀ word, appWord unfit (appInfo behind line colon) = some word → word.length < nameBufLen) ∧
        before.countP isTaken < maxSupportAppNum)
    (fun done _ line _ h hstep => by
      rw [addAppName_length hstep, List.countP_append, List.countP_singleton, h]
      split <;> rfl)
    (fun _ _ _ h => h ▸ addAppName_ok) rfl

end

/-! ### The table of class names -/

section
variable {unfit : ℤ → ℤ} {classId : ℤ} {line : List UInt8}

/-- The number at the head of a line of the class file. -/
def lineClassId (unfit : ℤ → ℤ) (line : List UInt8) : Option ℤ := (scanNumber unfit line).map Prod.fst

/-- The second word behind the number. -/
def lineClassName (unfit : ℤ → ℤ) (line : List UInt8) : Option (List UInt8) := do
  let (_, rest) ← scanNumber unfit line
  let (word, _) ← scanWord rest >>= fun word => scanWord word.2
  return word

/-- The number in `class_id` after some lines: the last one that has been read. -/
def classIdAfter (unfit : ℤ → ℤ) (classId : ℤ) (lines : List (List UInt8)) : ℤ :=
  (lines.filterMap (lineClassId unfit)).getLast?.getD classId

def classNameAfter (unfit : ℤ → ℤ) (lines : List (List UInt8)) : List UInt8 :=
  (lines.filterMap (lineClassName unfit)).getLast?.getD []

/-- At every line the number is that of a row and the name fits the row. -/
def ClassesFit (unfit : ℤ → ℤ) (classId : ℤ) (lines : List (List UInt8)) : Prop :=
  ∀ before line rest, lines = before ++ line :: rest →
    (1 ≤ classIdAfter unfit classId (before ++ [line]) ∧
      classIdAfter unfit classId (before ++ [line]) ≤ maxAppType) ∧
      (classNameAfter unfit (before ++ [line])).length < maxClassNameLen

theorem classIdAfter_concat (done : List (List UInt8)) :
    classIdAfter unfit classId (done ++ [line]) = (lineClassId unfit line).getD (classIdAfter unfit classId done) := by
  rw [classIdAfter, List.filterMap_append]
  cases h : lineClassId unfit line with
  | none => rw [List.filterMap_cons_none h, List.filterMap_nil, List.append_nil]; rfl
  | some id => rw [List.filterMap_cons_some h, List.filterMap_nil, List.getLast?_concat]; rfl

theorem classNameAfter_concat (done : List (List UInt8)) :
    classNameAfter unfit (done ++ [line]) = (lineClassName unfit line).getD (classNameAfter unfit done) := by
  rw [classNameAfter, List.filterMap_append]
  cases h : lineClassName unfit line with
  | none => rw [List.filterMap_cons_none h, List.filterMap_nil, List.append_nil]; rfl
  | some name => rw [List.filterMap_cons_some h, List.filterMap_nil, List.getLast?_concat]; rfl

/-- `sscanf` sets what it reads. -/
theorem scanClass_eq (state : ClassTable)
    (h : ∀ name, lineClassName unfit line = some name → name.length < nameBufLen) :
    scanClass unfit state line = .ok { state with
      classId := (lineClassId unfit line).getD state.classId
      className := (lineClassName unfit line).getD state.className } := by
  rw [lineClassName] at h
  rw [scanClass, lineClassId, lineClassName]
  cases hnumber : scanNumber unfit line with
  | none => rfl
  | some number =>
    rw [hnumber] at h
    dsimp only [Option.bind_eq_bind, Option.bind_some, Option.map_some] at h ⊢
    cases hword : (scanWord number.2).bind fun word => scanWord word.2 with
    | none => rfl
    | some word =>
      rw [hword] at h
      dsimp only [Option.bind_some, pure]
      rw [storeWord, if_pos (h word.1 rfl)]; rfl

theorem scanClass_long (state : ClassTable) {name : List UInt8} (h : lineClassName unfit line = some name)
    (hlong : ¬ name.length < nameBufLen) : scanClass unfit state line = .error .write := by
  rw [lineClassName] at h
  rw [scanClass]
  cases hnumber : scanNumber unfit line with
  | none =>
    rw [hnumber] at h
    cases h
  | some number =>
    rw [hnumber] at h
    dsimp only [Option.bind_eq_bind, Option.bind_some] at h ⊢
    cases hword : (scanWord number.2).bind fun word => scanWord word.2 with
    | none =>
      rw [hword] at h
      cases h
    | some word =>
      rw [hword] at h
      obtain rfl := Option.some.inj h
      dsimp only
      rw [storeWord, if_neg hlong]; rfl

/-- What `class_id` and `class_name` hold after some lines. -/
structure Scanned (unfit : ℤ → ℤ) (classId : ℤ) (done : List (List UInt8)) (state : ClassTable) : Prop where
  id : state.classId = classIdAfter unfit classId done
  name : state.className = classNameAfter unfit done

theorem Scanned.scan {done : List (List UInt8)} {state : ClassTable} (h : Scanned unfit classId done state)
    (line : List UInt8) :
    Scanned unfit classId (done ++ [line]) { state with
      classId := (lineClassId unfit line).getD state.classId
      className := (lineClassName unfit line).getD state.className } :=
  ⟨by rw [h.id, classIdAfter_concat], by rw [h.name, classNameAfter_concat]⟩

theorem addClassName_ok {done : List (List UInt8)} {state : ClassTable} (h : Scanned unfit classId done state) :
    (∃ r, addClassName unfit state line = .ok r) ↔
      (1 ≤ classIdAfter unfit classId (done ++ [line]) ∧ classIdAfter unfit classId (done ++ [line]) ≤ maxAppType) ∧
        (classNameAfter unfit (done ++ [line])).length < maxClassNameLen := by
  have hnext := h.scan line
  have hrow {id : ℤ} : (0 ≤ id - 1 ∧ (id - 1).toNat < maxAppType) ↔ 1 ≤ id ∧ id ≤ maxAppType := by
    rw [maxAppType]
    omega
  rw [addClassName]
  by_cases hshort : ∀ name, lineClassName unfit line = some name → name.length < nameBufLen
  · rw [scanClass_eq state hshort, Except.ok_bind, ← hnext.id, ← hnext.name, ← hrow]
    split
    · next hid =>
      rw [and_iff_right hid, ← storeWord_ok, Except.exists_bind_eq_ok]
      exact exists_congr fun name => and_iff_left (ok_ok _)
    · next hid => exact iff_of_false not_ok_write fun hall => hid hall.1
  · obtain ⟨name, hname⟩ := not_forall.1 hshort
    obtain ⟨hread, hlong⟩ := Classical.not_imp.1 hname
    rw [scanClass_long state hread hlong]
    refine iff_of_false not_ok_write fun hall => hlong ?_
    have hfits := hall.2
    rw [classNameAfter_concat, hread] at hfits
    exact hfits.trans (by decide)

theorem Scanned.step {done : List (List UInt8)} {state state' : ClassTable} (h : Scanned unfit classId done state)
    (hstep : addClassName unfit state line = .ok state') : Scanned unfit classId (done ++ [line]) state' := by
  rw [addClassName] at hstep
  by_cases hshort : ∀ name, lineClassName unfit line = some name → name.length < nameBufLen
  · rw [scanClass_eq state hshort, Except.ok_bind] at hstep
    split at hstep
    · obtain ⟨name, -, hend⟩ := Except.bind_eq_ok.1 hstep
      have hnext := h.scan line
      exact Except.ok.inj hend ▸ ⟨hnext.id, hnext.name⟩
    · cases hstep
  · obtain ⟨name, hname⟩ := not_forall.1 hshort
    obtain ⟨hread, hlong⟩ := Classical.not_imp.1 hname
    rw [scanClass_long state hread hlong] at hstep
    cases hstep

theorem initAppClassNameTable_ok {file : List UInt8} {table : Fin maxAppType → List UInt8} :
    (∃ r, initAppClassNameTable unfit classId (some file) table = .ok r) ↔ ClassesFit unfit classId (fileLines file) := by
  rw [initAppClassNameTable, Except.exists_bind_eq_ok]
  refine Iff.trans (exists_congr fun s => and_iff_left (ok_ok _)) ?_
  exact Run.foldlM_ok_iff_start (I := Scanned unfit classId)
    (D := fun before line => (1 ≤ classIdAfter unfit classId (before ++ [line]) ∧
      classIdAfter unfit classId (before ++ [line]) ≤ maxAppType) ∧
        (classNameAfter unfit (before ++ [line])).length < maxClassNameLen)
    (fun _ _ _ _ => Scanned.step) (fun _ _ _ => addClassName_ok) ⟨rfl, rfl⟩

end

/-! ### All loaders -/

/-- What the loaders read, and what is in memory before. -/
structure LoaderInput where
  unfit : ℤ → ℤ
  lookup : UciLookup
  output : List UInt8
  outLen : ℕ
  delimt : List UInt8
  uci : Uci
  behind : List UInt8
  featureFile : Option (List UInt8)
  appTable : List AppNameInfo
  classId : ℤ
  classFile : Option (List UInt8)
  classTable : Fin maxAppType → List UInt8

/-- No loader writes outside its arrays. -/
structure LoadersSafe (input : LoaderInput) : Prop where
  list : ∃ r, afUciGetListValue input.lookup input.output input.outLen input.delimt = .ok r
  time : ∃ r, afLoadTimeConfig input.unfit input.uci = .ok r
  names : ∃ r, initAppNameTable input.unfit input.behind input.featureFile input.appTable = .ok r
  classes : ∃ r, initAppClassNameTable input.unfit input.classId input.classFile input.classTable = .ok r

/-- What is read fits. -/
structure LoadersFit (input : LoaderInput) : Prop where
  list : ListFits input.delimt input.outLen input.lookup
  time : TimeFits input.unfit input.uci
  names : ∀ file, input.featureFile = some file → NamesFit input.unfit input.behind (fileLines file)
  classes : ∀ file, input.classFile = some file → ClassesFit input.unfit input.classId (fileLines file)

theorem loadersSafe_iff (input : LoaderInput) : LoadersSafe input ↔ LoadersFit input := by
  have hnames : (∃ r, initAppNameTable input.unfit input.behind input.featureFile input.appTable = .ok r) ↔
      ∀ file, input.featureFile = some file → NamesFit input.unfit input.behind (fileLines file) := by
    cases input.featureFile with
    | none => exact iff_of_true (ok_ok _) fun _ h => absurd h (Option.some_ne_none _).symm
    | some file => exact initAppNameTable_ok.trans ⟨fun h _ heq => Option.some.inj heq ▸ h, fun h => h file rfl⟩
  have hclasses : (∃ r, initAppClassNameTable input.unfit input.classId input.classFile input.classTable = .ok r) ↔
      ∀ file, input.classFile = some file → ClassesFit input.unfit input.classId (fileLines file) := by
    cases input.classFile with
    | none => exact iff_of_true (ok_ok _) fun _ h => absurd h (Option.some_ne_none _).symm
    | some file => exact initAppClassNameTable_ok.trans ⟨fun h _ heq => Option.some.inj heq ▸ h, fun h => h file rfl⟩
  exact ⟨fun h => ⟨afUciGetListValue_ok.1 h.list, afLoadTimeConfig_ok.1 h.time, hnames.1 h.names, hclasses.1 h.classes⟩,
    fun h => ⟨afUciGetListValue_ok.2 h.list, afLoadTimeConfig_ok.2 h.time, hnames.2 h.names, hclasses.2 h.classes⟩⟩

/-- A configuration whose only value is the seventh day. -/
def seventhDay : LoaderInput where
  unfit := id
  lookup := .notFound
  output := []
  outLen := 1024
  delimt := str " "
  uci := fun key => if key = "appfilter.time.days" then .optionString (str "7") else .notFound
  behind := []
  featureFile := none
  appTable := []
  classId := 0
  classFile := none
  classTable := fun _ => []

/-- The day is written behind the array. -/
theorem loaders_seventhDay : ¬ LoadersSafe seventhDay := by
  rintro ⟨-, ⟨r, h⟩, -, -⟩
  have hfault : afLoadTimeConfig seventhDay.unfit seventhDay.uci = .error .write := rfl
  rw [hfault] at h
  cases h

end Oaf
