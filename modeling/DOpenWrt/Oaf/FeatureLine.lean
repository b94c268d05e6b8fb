import DOpenWrt.Lib.Except
import DOpenWrt.Oaf.FeatureParse

/-!
# A line of the feature file

`af_init_feature` on `id name:[f1,f2,...]`. It adds the nodes of the features in turn, unless there is a `#` in the line,
a bracket in a feature, or a last feature that leaves no room for the second NUL.
-/

namespace Oaf
open CString (str isdigit digitsVal)

def openBracket : UInt8 := '['.toUInt8
def closeBracket : UInt8 := ']'.toUInt8
def hash : UInt8 := '#'.toUInt8

/-- The parts of a line, of which the list fits `feature_buf`. -/
structure FeatureLine where
  id : Numeral
  name : List UInt8
  features : List Feature
  noComma : ∀ f ∈ features, comma ∉ f.text
  list_lt : (joinedWith comma (features.map fun f => f.text)).length < featureBufLen

namespace FeatureLine
variable (line : FeatureLine)

def listText : List UInt8 := joinedWith comma (line.features.map fun f => f.text)

/-- What stands before the list. -/
def head : List UInt8 := line.id.digits ++ space :: (line.name ++ [colon])

def text : List UInt8 := line.head ++ openBracket :: (line.listText ++ [closeBracket])

def appId : ℤ := digitsVal line.id.digits

/-- The line is read as it is meant. -/
def Kept : Prop :=
  line.features = [] ∨
    hash ∉ line.text ∧ (∀ f ∈ line.features, openBracket ∉ f.text) ∧
      (∀ f, line.features.getLast? = some f → f.text.length + 1 < maxFeatureStrLen) ∧
      ∀ f ∈ line.features, ∀ text, f.extra = .search text → text = []

end FeatureLine

/-! ### The brackets -/

section
variable {inner pre : List UInt8} {p : ℕ} {pos : Option ℕ} {len : ℤ}

theorem bracketLoop_close (h : openBracket ∉ inner) (at' : ℕ) :
    bracketLoop (inner ++ [closeBracket]) p (some at') len = (some at', ((p + inner.length : ℕ) : ℤ) - at') := by
  induction inner generalizing p len with
  | nil => rfl
  | cons c inner ih =>
    rw [List.mem_cons, not_or] at h
    have hc : ¬ c = '['.toUInt8 := Ne.symm h.1
    rw [List.cons_append, bracketLoop, if_neg hc]
    simp only [ih h.2, List.length_cons, Nat.add_right_comm, Nat.add_assoc]

theorem bracketLoop_open (rest : List UInt8) :
    bracketLoop (openBracket :: rest) p pos len = bracketLoop rest (p + 1) (some (p + 1)) len := by
  cases pos <;> rfl

/-- Only the last opening bracket counts. -/
theorem bracketLoop_last (h : openBracket ∉ inner) :
    bracketLoop (pre ++ openBracket :: (inner ++ [closeBracket])) p pos len =
      (some (p + pre.length + 1), (inner.length : ℤ)) := by
  induction pre generalizing p pos len with
  | nil =>
    have hlen : ((p + 1 + inner.length : ℕ) : ℤ) - (p + 1 : ℕ) = inner.length := by omega
    rw [List.nil_append, bracketLoop_open, bracketLoop_close h, hlen]; rfl
  | cons c pre ih =>
    have hpos : p + 1 + pre.length + 1 = p + (c :: pre).length + 1 := by rw [List.length_cons]; omega
    rw [List.cons_append, bracketLoop.eq_def]
    dsimp only
    split
    · exact ih.trans (by rw [hpos])
    · cases pos with
      | none => exact ih.trans (by rw [hpos])
      | some at' => exact ih.trans (by rw [hpos])

theorem featureBuf_last (hpre : pre ≠ []) (h : openBracket ∉ inner) (hlt : inner.length < featureBufLen) :
    featureBuf (pre ++ openBracket :: (inner ++ [closeBracket])) = .ok inner := by
  obtain ⟨c, pre, rfl⟩ := List.exists_cons_of_ne_nil hpre
  have hdrop : (c :: pre ++ openBracket :: (inner ++ [closeBracket])).drop (1 + pre.length + 1) =
      inner ++ [closeBracket] := by
    have hsplit : c :: pre ++ openBracket :: (inner ++ [closeBracket]) =
        (c :: pre ++ [openBracket]) ++ (inner ++ [closeBracket]) := by simp
    have hlength : 1 + pre.length + 1 = (c :: pre ++ [openBracket]).length := by simp; omega
    rw [hsplit, hlength, List.drop_left]
  rw [featureBuf, List.cons_append, List.drop_one, List.tail_cons, bracketLoop_last h, ← List.cons_append]
  cases inner with
  | nil => rfl
  | cons d inner =>
    have hne : ¬ (((d :: inner).length : ℤ) = 0) := by rw [List.length_cons]; omega
    simp only [hdrop, if_neg hne, Int.toNat_natCast, List.take_left, copyField_ok hlt.le, readField_ok hlt, Bind.bind,
      Except.bind]

end

/-! ### The list of features -/

section
variable {features result : List FeatureListNode} {appId : Option ℤ} {name item rest : List UInt8} {c : UInt8}

theorem addAppFeatureNode_added {proto : ℕ} {sport ignore : ℤ} {info : PortInfo} {host request dict search : List UInt8}
    (h : addAppFeatureNode features item appId name proto sport info host request dict search ignore = .ok result) :
    ∃ node : FeatureListNode, result = node :: features ∧ node.feature = item := by
  obtain ⟨_, -, h⟩ := Except.bind_eq_ok.1 h
  obtain ⟨_, -, h⟩ := Except.bind_eq_ok.1 h
  obtain ⟨_, -, h⟩ := Except.bind_eq_ok.1 h
  split at h
  · obtain ⟨feature, hfeature, h⟩ := Except.bind_eq_ok.1 h
    obtain ⟨_, -, h⟩ := Except.bind_eq_ok.1 h
    refine ⟨_, (Except.ok.inj h).symm, ?_⟩
    rw [copyString] at hfeature
    split at hfeature
    · exact (Except.ok.inj hfeature).symm
    · exact absurd hfeature (by simp)
  · exact absurd h (by simp)

/-- A feature adds at most the node of its own text. -/
theorem addAppFeature_added (h : addAppFeature features appId name item = .ok result) :
    result = features ∨ ∃ node : FeatureListNode, result = node :: features ∧ node.feature = item := by
  rw [addAppFeature] at h
  split at h
  · exact .inl (Except.ok.inj h).symm
  · obtain ⟨f, -, h⟩ := Except.bind_eq_ok.1 h
    split at h
    · exact .inl (Except.ok.inj h).symm
    · obtain ⟨sport, -, h⟩ := Except.bind_eq_ok.1 h
      obtain ⟨dport, -, h⟩ := Except.bind_eq_ok.1 h
      obtain ⟨info, -, h⟩ := Except.bind_eq_ok.1 h
      obtain ⟨host, -, h⟩ := Except.bind_eq_ok.1 h
      obtain ⟨request, -, h⟩ := Except.bind_eq_ok.1 h
      obtain ⟨search, -, h⟩ := Except.bind_eq_ok.1 h
      obtain ⟨dict, -, h⟩ := Except.bind_eq_ok.1 h
      exact .inr (addAppFeatureNode_added h)

theorem commaLoop_of_ne (hc : c ≠ comma) :
    commaLoop appId item (c :: rest) features = commaLoop appId (item ++ [c]) rest features := if_pos hc

theorem commaLoop_item (h : comma ∉ item) :
    commaLoop appId [] (item ++ rest) features = commaLoop appId item rest features :=
  @collect_item item rest _ comma (fun item rest => commaLoop appId item rest features)
    (fun _ hc _ _ => commaLoop_of_ne hc) h []

/-- What is added are pieces of the text. -/
theorem commaLoop_added (h : commaLoop appId item rest features = .ok result) :
    ∃ added : List FeatureListNode, result = added ++ features ∧
      (added.map fun node => node.feature.length + 1).sum ≤ item.length + rest.length + 1 := by
  induction rest generalizing item features with
  | nil =>
    rw [commaLoop] at h
    split at h
    · exact ⟨[], (Except.ok.inj h).symm, Nat.zero_le _⟩
    split at h
    · exact absurd h (by simp)
    rcases addAppFeature_added h with rfl | ⟨node, rfl, hnode⟩
    · exact ⟨[], rfl, Nat.zero_le _⟩
    · refine ⟨[node], rfl, ?_⟩
      rw [List.map_singleton, List.sum_singleton, hnode]; rfl
  | cons c rest ih =>
    rw [commaLoop] at h
    split at h
    · obtain ⟨added, hadded, hsum⟩ := ih h
      refine ⟨added, hadded, hsum.trans ?_⟩
      rw [List.length_append, List.length_singleton, List.length_cons]
      omega
    split at h
    · exact ⟨[], (Except.ok.inj h).symm, Nat.zero_le _⟩
    split at h
    · exact absurd h (by simp)
    obtain ⟨middle, hmiddle, h⟩ := Except.bind_eq_ok.1 h
    obtain ⟨added, rfl, hsum⟩ := ih h
    rw [List.length_nil, Nat.zero_add] at hsum
    rcases addAppFeature_added hmiddle with rfl | ⟨node, rfl, hnode⟩
    · refine ⟨added, rfl, hsum.trans ?_⟩
      rw [List.length_cons]
      omega
    · refine ⟨added ++ [node], by rw [List.append_assoc]; rfl, ?_⟩
      rw [List.map_append, List.sum_append, List.map_singleton, List.sum_singleton, hnode, List.length_cons]
      omega

end

/-! ### Lines -/

section
variable {features : List FeatureListNode} {appId : Option ℤ} {fs : List Feature}

/-- The features of a list are added one after the other; the last one must leave room for a second NUL. -/
theorem commaLoop_features (hne : fs ≠ []) (h : ∀ f ∈ fs, comma ∉ f.text) :
    commaLoop appId [] (joinedWith comma (fs.map fun f => f.text)) features =
      if (fs.getLast hne).text.length + 1 < maxFeatureStrLen then
        .ok ((fs.map fun f => f.found appId []).reverse ++ features)
      else .error .write := by
  induction fs generalizing features with
  | nil => exact absurd rfl hne
  | cons f fs ih =>
    have hf := h f List.mem_cons_self
    have hlt : f.text.length < maxFeatureStrLen := f.fits.text_lt
    have hadd : addAppFeature features appId [] f.text = .ok (f.found appId [] :: features) :=
      f.addAppFeature_text features (by decide)
    cases fs with
    | nil =>
      have hitem := @commaLoop_item features appId f.text [] hf
      rw [List.append_nil] at hitem
      rw [List.map_singleton, joinedWith, hitem, commaLoop, if_neg (Nat.not_lt.2 hlt), List.getLast_singleton]
      split
      · next h => rw [if_neg (Nat.not_lt.2 h.ge)]
      · next h =>
        rw [if_pos (Nat.lt_of_le_of_ne hlt h), hadd]; rfl
    | cons next fs =>
      have hrest := @ih (f.found appId [] :: features) (List.cons_ne_nil _ _) fun g hg =>
        h g (List.mem_cons_of_mem _ hg)
      have hcomma : ¬ comma ≠ ','.toUInt8 := not_not.2 rfl
      rw [List.map_cons, List.map_cons, joinedWith, commaLoop_item hf, commaLoop, if_neg hcomma,
        if_neg (Nat.not_lt.2 hlt.le), if_neg (Nat.ne_of_lt hlt), hadd, Except.ok_bind]
      rw [List.map_cons] at hrest
      rw [hrest, List.getLast_cons_cons]
      split
      · simp
      · rfl

end

namespace FeatureLine
variable (line : FeatureLine) (features : List FeatureListNode)

theorem head_ne_nil : line.head ≠ [] := fun h => line.id.digits_ne (List.append_eq_nil_iff.1 h).1

theorem kSscanfInt_text : (kSscanfInt line.text).map Prod.fst = some line.appId := by
  have hread := @Numeral.kSscanfInt_digits (space :: (line.name ++ [colon]) ++ openBracket ::
    (line.listText ++ [closeBracket])) line.id fun c hc => by rw [← Option.some.inj hc]; decide
  rw [text, head, List.append_assoc, hread]; rfl

/-- What is made of `feature_buf`. -/
def bufFeatures (appId : ℤ) (buf : List UInt8) (features : List FeatureListNode) :
    Except DpiFault (List FeatureListNode) :=
  match buf with
  | [] => commaLoop (some appId) [] [] features
  | c :: rest => commaLoop (some appId) [c] rest features

theorem afInitFeature_brackets {pre inner : List UInt8}
    (htext : line.text = pre ++ openBracket :: (inner ++ [closeBracket])) (hpre : pre ≠ [])
    (hinner : openBracket ∉ inner) (hlt : inner.length < featureBufLen) (hhash : hash ∉ line.text) :
    afInitFeature features line.text = bufFeatures line.appId inner features := by
  have hbuf : featureBuf line.text = .ok inner := by rw [htext, featureBuf_last hpre hinner hlt]
  have hnot : ¬ '#'.toUInt8 ∈ line.text := hhash
  rw [afInitFeature, if_neg hnot, line.kSscanfInt_text, hbuf]
  rfl

theorem bufFeatures_added {appId : ℤ} {buf : List UInt8} {result : List FeatureListNode}
    (h : bufFeatures appId buf features = .ok result) : ∃ added : List FeatureListNode, result = added ++ features ∧
      (added.map fun node => node.feature.length + 1).sum ≤ buf.length + 1 := by
  cases buf with
  | nil => exact commaLoop_added h
  | cons c rest =>
    obtain ⟨added, hadded, hsum⟩ := commaLoop_added h
    refine ⟨added, hadded, hsum.trans ?_⟩
    simp only [List.length_cons, List.length_nil]
    omega

theorem text_ne_nil (f : Feature) : f.text ≠ [] := fun h => by
  have hlength := f.minFeatureStrLen_le
  rw [h] at hlength
  exact absurd hlength (by decide)

theorem bufFeatures_listText {appId : ℤ} (hne : line.features ≠ []) : bufFeatures appId line.listText features =
    commaLoop (some appId) [] line.listText features := by
  obtain ⟨f, fs, hcons⟩ := List.exists_cons_of_ne_nil hne
  obtain ⟨c, tail, hf⟩ := List.exists_cons_of_ne_nil (text_ne_nil f)
  have hc : c ≠ comma := fun heq => line.noComma f (hcons ▸ List.mem_cons_self) (heq ▸ hf ▸ List.mem_cons_self)
  obtain ⟨rest, htext⟩ : ∃ rest, line.listText = c :: rest := by
    rw [listText, hcons]
    cases fs with
    | nil => exact ⟨tail, hf⟩
    | cons next fs =>
      exact ⟨_, congrArg (· ++ comma :: joinedWith comma ((next :: fs).map fun f => f.text)) hf⟩
  rw [htext, bufFeatures, commaLoop_of_ne hc]; rfl

/-- A line without features adds nothing. -/
theorem afInitFeature_nil (h : line.features = []) : afInitFeature features line.text = .ok features := by
  have hlist : line.listText = [] := by rw [listText, h]; rfl
  by_cases hhash : hash ∈ line.text
  · exact if_pos hhash
  · rw [line.afInitFeature_brackets features rfl line.head_ne_nil (by rw [hlist]; exact List.not_mem_nil) (by rw [hlist]; decide)
      hhash, hlist]
    rfl

/-- A bracket in a feature: what is added is less than the list. -/
theorem afInitFeature_lt (hhash : hash ∉ line.text) (h : openBracket ∈ line.listText)
    {result : List FeatureListNode} (hresult : afInitFeature features line.text = .ok result) :
    ∃ added : List FeatureListNode, result = added ++ features ∧
      (added.map fun node => node.feature.length + 1).sum < line.listText.length + 1 := by
  obtain ⟨behind, before, hsplit, hbehind⟩ := List.eq_append_cons_of_mem (List.mem_reverse.2 h)
  have hlist : line.listText = before.reverse ++ openBracket :: behind.reverse := by
    rw [← List.reverse_reverse line.listText, hsplit, List.reverse_append, List.reverse_cons, List.append_assoc]; rfl
  have hlength : behind.reverse.length < line.listText.length := by
    rw [hlist, List.length_append, List.length_cons]
    omega
  have htext : line.text = (line.head ++ openBracket :: before.reverse) ++ openBracket ::
      (behind.reverse ++ [closeBracket]) := by
    rw [text, hlist]
    simp
  have hpre : line.head ++ openBracket :: before.reverse ≠ [] := fun h =>
    line.head_ne_nil (List.append_eq_nil_iff.1 h).1
  rw [line.afInitFeature_brackets features htext hpre (fun h => hbehind (List.mem_reverse.1 h))
    (hlength.trans line.list_lt) hhash] at hresult
  obtain ⟨added, hadded, hsum⟩ := bufFeatures_added features hresult
  exact ⟨added, hadded, by omega⟩

/-- Otherwise all features are added, or the last one is too long. -/
theorem afInitFeature_features (hhash : hash ∉ line.text) (h : openBracket ∉ line.listText) (hne : line.features ≠ []) :
    afInitFeature features line.text =
      if (line.features.getLast hne).text.length + 1 < maxFeatureStrLen then
        .ok ((line.features.map fun f => f.found (some line.appId) []).reverse ++ features)
      else .error .write := by
  rw [line.afInitFeature_brackets features rfl line.head_ne_nil h line.list_lt hhash,
    line.bufFeatures_listText features hne, listText, commaLoop_features hne line.noComma]

theorem mem_listText {c : UInt8} (hc : c ≠ comma) : c ∈ line.listText ↔ ∃ f ∈ line.features, c ∈ f.text := by
  constructor
  · intro h
    rcases mem_joinedWith h with h | ⟨item, hitem, h⟩
    · exact absurd h hc
    · obtain ⟨f, hf, rfl⟩ := List.mem_map.1 hitem
      exact ⟨f, hf, h⟩
  · rintro ⟨f, hf, h⟩
    exact mem_joinedWith_of_mem (List.mem_map_of_mem hf) h

theorem length_listText (hne : line.features ≠ []) (nodes : Feature → FeatureListNode)
    (hnodes : ∀ f, (nodes f).feature = f.text) :
    line.listText.length + 1 = ((line.features.map nodes).reverse.map fun node => node.feature.length + 1).sum := by
  have htotal := @length_joinedWith comma (line.features.map fun f => f.text) fun h => hne (List.map_eq_nil_iff.1 h)
  rw [listText, htotal, List.map_reverse, List.sum_reverse, List.map_map, List.map_map]
  simp only [Function.comp_def, hnodes]

theorem afInitFeature_iff : afInitFeature features line.text =
    .ok ((line.features.map fun f => f.node (some line.appId) []).reverse ++ features) ↔ line.Kept := by
  by_cases hnil : line.features = []
  · refine iff_of_true ?_ (.inl hnil)
    rw [line.afInitFeature_nil features hnil, hnil]; rfl
  rw [Kept, or_iff_right hnil]
  by_cases hhash : hash ∈ line.text
  · refine iff_of_false (fun h => ?_) fun h => h.1 hhash
    have hsame : afInitFeature features line.text = .ok features := if_pos hhash
    have hlength := congrArg List.length (Except.ok.inj (hsame.symm.trans h))
    have hpos := List.length_pos_iff.2 hnil
    rw [List.length_append, List.length_reverse, List.length_map] at hlength
    omega
  rw [and_iff_right hhash]
  by_cases hopen : openBracket ∈ line.listText
  · refine iff_of_false (fun h => ?_) fun h => ?_
    · obtain ⟨added, hadded, hsum⟩ := line.afInitFeature_lt features hhash hopen h
      rw [← List.append_cancel_right hadded,
        line.length_listText hnil (fun f => f.node (some line.appId) []) fun _ => rfl] at hsum
      exact absurd hsum (Nat.lt_irrefl _)
    · obtain ⟨f, hf, hmem⟩ := (line.mem_listText (by decide)).1 hopen
      exact h.1 f hf hmem
  have hall : ∀ f ∈ line.features, openBracket ∉ f.text := fun f hf hmem =>
    hopen ((line.mem_listText (by decide)).2 ⟨f, hf, hmem⟩)
  rw [and_iff_right hall, line.afInitFeature_features features hhash hopen hnil,
    List.getLast?_eq_getLast_of_ne_nil hnil]
  split
  · next hlast =>
    have hlast' : ∀ f, some (line.features.getLast hnil) = some f → f.text.length + 1 < maxFeatureStrLen :=
      fun f hf => Option.some.inj hf ▸ hlast
    rw [and_iff_right hlast', Except.ok.injEq, List.append_left_inj, List.reverse_inj, List.map_inj_left]
    exact forall₂_congr fun f _ => f.found_eq_node (some line.appId) []
  · next hlast => exact iff_of_false (fun h => absurd h (by simp)) fun h => hlast (h.1 _ rfl)

end FeatureLine

/-! ### Correctness -/

/-- A feature becomes its node unless its last field is a `search` that is not empty; a line becomes the nodes of its
features if it is `Kept`. -/
theorem features_read_iff (f : Feature) (line : FeatureLine) (features : List FeatureListNode) (appId : Option ℤ)
    (name : List UInt8) (hname : name.length < maxAppNameLen) :
    (addAppFeature features appId name f.text = .ok (f.node appId name :: features) ↔
      ∀ text, f.extra = .search text → text = []) ∧
    (afInitFeature features line.text =
      .ok ((line.features.map fun f => f.node (some line.appId) []).reverse ++ features) ↔ line.Kept) := by
  refine ⟨?_, line.afInitFeature_iff features⟩
  rw [f.addAppFeature_text features hname, Except.ok.injEq, List.cons_eq_cons, and_iff_left rfl, f.found_eq_node]

/-- A feature with seven fields. -/
def searchSpec : FeatureSpec where
  udp := false
  sport := none
  dport := []
  hostUrl := str "a.com"
  requestUrl := []
  dict := []
  extra := .search (str "needle")

theorem searchSpec_fits : searchSpec.Fits where
  sport_lt := by decide
  dport_lt := by decide
  dport_le := by decide
  hostUrl_lt := by decide
  hostUrl_noSep := by decide
  requestUrl_noSep := by decide
  dict_le := by decide
  searchStr_lt := by decide
  searchStr_noSep := by decide
  text_lt := by decide

def searchFeature : Feature := ⟨searchSpec, searchSpec_fits⟩

theorem searchFeature_dropped : searchFeature.text = str "tcp;;;a.com;;;needle" ∧
    addAppFeature [] none [] searchFeature.text ≠ .ok [searchFeature.node none []] := by
  refine ⟨by decide, fun h => ?_⟩
  have hsearch : (addAppFeature [] none [] searchFeature.text).toOption.map (·.map fun n => n.searchStr) =
      some [[]] := by decide +kernel
  rw [h] at hsearch
  exact absurd hsearch (by decide)

/-! ### A line that is read -/

def numeral (digits : List UInt8)
    (h : (digits ≠ [] ∧ ∀ c ∈ digits, isdigit c = true) ∧ digitsVal digits < 2 ^ 31) : Numeral :=
  ⟨digits, h.1.1, h.1.2, h.2⟩

theorem digits_one : (str "1" ≠ [] ∧ ∀ c ∈ str "1", isdigit c = true) ∧ digitsVal (str "1") < 2 ^ 31 :=
  ⟨⟨by decide, List.all_eq_true.1 rfl⟩, by decide⟩

theorem digits_80 : (str "80" ≠ [] ∧ ∀ c ∈ str "80", isdigit c = true) ∧ digitsVal (str "80") < 2 ^ 31 :=
  ⟨⟨by decide, List.all_eq_true.1 rfl⟩, by decide⟩

theorem digits_8000 : (str "8000" ≠ [] ∧ ∀ c ∈ str "8000", isdigit c = true) ∧ digitsVal (str "8000") < 2 ^ 31 :=
  ⟨⟨by decide, List.all_eq_true.1 rfl⟩, by decide⟩

theorem hexDigits : ∀ c ∈ str "1f", isxdigit c = true := List.all_eq_true.1 rfl

theorem dictEntry_lt : (entryText true (numeral (str "80") digits_80) (str "1f")).length < posBufLen := by decide

/-- Eight fields: ports, the last one of them excluded, a position from the end, a search text and a mark. -/
def portsSpec : FeatureSpec where
  udp := false
  sport := none
  dport := [⟨0, false, 0, numeral (str "80") digits_80, none, 1⟩,
    ⟨1, true, 0, numeral (str "1") digits_one, some (0, numeral (str "8000") digits_8000), 0⟩]
  hostUrl := str "a.com"
  requestUrl := str "/x"
  dict := [⟨true, numeral (str "80") digits_80, str "1f", List.cons_ne_nil _ _, hexDigits, dictEntry_lt⟩]
  extra := .ignore (str "needle") (some (numeral (str "1") digits_one))

theorem portsSpec_fits : portsSpec.Fits where
  sport_lt := by decide
  dport_lt := by decide
  dport_le := by decide
  hostUrl_lt := by decide
  hostUrl_noSep := by decide
  requestUrl_noSep := by decide
  dict_le := by decide
  searchStr_lt := by decide
  searchStr_noSep := by decide
  text_lt := by decide

/-- Seven fields with an empty search. -/
def sourceSpec : FeatureSpec where
  udp := true
  sport := some (numeral (str "8000") digits_8000)
  dport := []
  hostUrl := []
  requestUrl := []
  dict := []
  extra := .search []

theorem sourceSpec_fits : sourceSpec.Fits where
  sport_lt := by decide
  dport_lt := by decide
  dport_le := by decide
  hostUrl_lt := by decide
  hostUrl_noSep := by decide
  requestUrl_noSep := by decide
  dict_le := by decide
  searchStr_lt := by decide
  searchStr_noSep := by decide
  text_lt := by decide

def portsFeature : Feature := ⟨portsSpec, portsSpec_fits⟩

def sourceFeature : Feature := ⟨sourceSpec, sourceSpec_fits⟩

theorem twoFeatures_noComma : ∀ f ∈ [sourceFeature, portsFeature], comma ∉ f.text := by
  simp only [List.forall_mem_cons]
  decide

theorem twoFeatures_list_lt :
    (joinedWith comma ([sourceFeature, portsFeature].map fun f => f.text)).length < featureBufLen := by
  decide

def twoFeatures : FeatureLine where
  id := numeral (str "8000") digits_8000
  name := str "a b"
  features := [sourceFeature, portsFeature]
  noComma := twoFeatures_noComma
  list_lt := twoFeatures_list_lt

theorem twoFeatures_kept : twoFeatures.Kept := by
  refine .inr ⟨by decide, ?_, ?_, ?_⟩
  · simp only [twoFeatures, List.forall_mem_cons]
    decide
  · rintro f ⟨⟩
    decide
  · simp only [twoFeatures, List.forall_mem_cons]
    refine ⟨?_, ?_, fun f hf => absurd hf List.not_mem_nil⟩
    · rintro text ⟨⟩
      rfl
    · rintro text ⟨⟩

theorem features_read_iff_two :
    twoFeatures.text = str "8000 a b:[udp;8000;;;;;,tcp;;80 | !1-8000;a.com;/x;-80:1f;needle;1]" ∧
    addAppFeature [] (some 8000) [] portsFeature.text = .ok [portsFeature.node (some 8000) []] ∧
    afInitFeature [] twoFeatures.text =
      .ok [portsFeature.node (some 8000) [], sourceFeature.node (some 8000) []] := by
  have hextra : ∀ text, portsFeature.extra = .search text → text = [] := by
    rintro text ⟨⟩
  obtain ⟨hfeature, hline⟩ := features_read_iff portsFeature twoFeatures [] (some 8000) [] (by decide)
  exact ⟨by decide +kernel, hfeature.2 hextra, hline.2 twoFeatures_kept⟩

end Oaf
