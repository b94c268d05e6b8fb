import DOpenWrt.Oaf.FeatureGrammar

/-!
# Reading a feature

`add_app_feature` puts the node of a feature on the list. Of a feature with seven fields it drops the last one.
-/

namespace Oaf
open CString (str isspace isdigit digitsVal)

/-! ### Joined texts -/

section
variable {sep c : UInt8} {item : List UInt8} {items : List (List UInt8)}

theorem length_joinedWith (h : items ≠ []) :
    (joinedWith sep items).length + 1 = (items.map fun item => item.length + 1).sum := by
  induction items with
  | nil => exact absurd rfl h
  | cons item items ih =>
    cases items with
    | nil => rfl
    | cons next items =>
      have hrest := ih (List.cons_ne_nil _ _)
      rw [joinedWith, List.length_append, List.length_cons, List.map_cons, List.sum_cons, ← hrest]
      omega

theorem length_le_joinedWith (h : item ∈ items) : item.length ≤ (joinedWith sep items).length := by
  have htotal := @length_joinedWith sep items (List.ne_nil_of_mem h)
  have hone := List.le_sum_of_mem (List.mem_map_of_mem (f := fun item : List UInt8 => item.length + 1) h)
  omega

theorem mem_joinedWith (h : c ∈ joinedWith sep items) : c = sep ∨ ∃ item ∈ items, c ∈ item := by
  induction items with
  | nil => exact absurd h List.not_mem_nil
  | cons item items ih =>
    cases items with
    | nil => exact .inr ⟨item, List.mem_cons_self, h⟩
    | cons next items =>
      rw [joinedWith, List.mem_append, List.mem_cons] at h
      rcases h with h | h | h
      · exact .inr ⟨item, List.mem_cons_self, h⟩
      · exact .inl h
      · rcases ih h with h | ⟨item, hitem, hc⟩
        · exact .inl h
        · exact .inr ⟨item, List.mem_cons_of_mem _ hitem, hc⟩

theorem mem_joinedWith_of_mem (hitem : item ∈ items) (hc : c ∈ item) : c ∈ joinedWith sep items := by
  induction items with
  | nil => exact absurd hitem List.not_mem_nil
  | cons first items ih =>
    cases items with
    | nil => exact List.mem_singleton.1 hitem ▸ hc
    | cons next items =>
      rw [joinedWith, List.mem_append, List.mem_cons]
      rcases List.mem_cons.1 hitem with rfl | hitem
      · exact .inl hc
      · exact .inr (.inr (ih hitem))

theorem joined_eq (items : List (List UInt8)) : joined items = joinedWith bar items := by
  induction items with
  | nil => rfl
  | cons item items ih =>
    cases items with
    | nil => rfl
    | cons next items => rw [joined, ih]; rfl

end

/-! ### The parameters -/

section
variable {c : UInt8} {item rest : List UInt8} {items : List (List UInt8)} {n paramNum : ℕ} {f : FeatureFields}

/-- The parameters one after the other. -/
def setParams (f : FeatureFields) : ℕ → List (List UInt8) → Except DpiFault FeatureFields
  | _, [] => .ok f
  | paramNum, [item] => setLastParam item f paramNum
  | paramNum, item :: next :: items => do
    let f ← setParam item.length item f paramNum
    setParams f (paramNum + 1) (next :: items)

theorem featureLoop_of_ne (hc : c ≠ semicolon) :
    featureLoop item (c :: rest) paramNum f = featureLoop (item ++ [c]) rest paramNum f := if_pos hc

theorem featureLoop_semicolon : featureLoop item (semicolon :: rest) paramNum f = (do
    let f ← setParam item.length item f paramNum
    featureLoop [] rest (paramNum + 1) f) := if_neg (not_not.2 rfl)

theorem featureLoop_item (h : semicolon ∉ item) :
    featureLoop [] (item ++ rest) paramNum f = featureLoop item rest paramNum f :=
  @collect_item item rest _ semicolon (fun item rest => featureLoop item rest paramNum f)
    (fun _ hc _ _ => featureLoop_of_ne hc) h []

theorem featureLoop_joined (hne : items ≠ []) (h : ∀ item ∈ items, semicolon ∉ item) :
    featureLoop [] (joinedWith semicolon items) paramNum f = setParams f paramNum items := by
  induction items generalizing paramNum f with
  | nil => exact absurd rfl hne
  | cons item items ih =>
    have hitem := h item List.mem_cons_self
    cases items with
    | nil =>
      have hlast := @featureLoop_item item [] paramNum f hitem
      rw [List.append_nil] at hlast
      rw [joinedWith, hlast]; rfl
    | cons next items =>
      have hrest (f : FeatureFields) := @ih (paramNum + 1) f (List.cons_ne_nil _ _) fun item hmem =>
        h item (List.mem_cons_of_mem _ hmem)
      rw [joinedWith, featureLoop_item hitem, featureLoop_semicolon, setParams]
      simp only [hrest]

theorem copyField_ok {size : ℕ} (h : n ≤ size) : copyField size n item = .ok item := if_neg (Nat.not_lt.2 h)

theorem readField_ok {size : ℕ} (h : item.length < size) : readField size item = .ok item := if_pos h

theorem copyString_ok {size : ℕ} (h : item.length < size) : copyString size item = .ok item := if_pos h

end

/-! ### The fields of a feature -/

section
variable {c : UInt8}

theorem PortItem.mem_text {item : PortItem} (h : c ∈ item.text) :
    c = space ∨ c = bang ∨ c = dash ∨ isdigit c = true := by
  have hvalid := List.all_eq_true.1 item.validate_text c h
  rw [Bool.or_eq_true, Bool.or_eq_true, Bool.or_eq_true, decide_eq_true_iff, decide_eq_true_iff,
    decide_eq_true_iff] at hvalid
  rcases hvalid with ((h | h) | h) | h
  · exact .inl h
  · exact .inr (.inl h)
  · exact .inr (.inr (.inl h))
  · exact .inr (.inr (.inr h))

theorem PortItem.not_mem_text (item : PortItem) (hdigit : isdigit c = false) (hother : c ≠ space ∧ c ≠ bang ∧ c ≠ dash) :
    c ∉ item.text := fun h => by
  rcases item.mem_text h with h | h | h | h
  · exact hother.1 h
  · exact hother.2.1 h
  · exact hother.2.2 h
  · exact Bool.false_ne_true (hdigit.symm.trans h)

theorem PortItem.portText (item : PortItem) (h : item.text.length < onePortBufLen) : PortText item.text where
  noBar := item.not_mem_text (by decide) (by decide)
  onlySpaces c hc hspace := by
    rcases item.mem_text hc with h | h | h | h
    · exact h
    · rw [h] at hspace; exact absurd hspace (by decide)
    · rw [h] at hspace; exact absurd hspace (by decide)
    · exact absurd hspace (by rw [isdigit_not_space h]; exact Bool.false_ne_true)
  length_lt := h

theorem PortItem.exists_digit (item : PortItem) : ∃ c ∈ item.text, c ≠ space := by
  obtain ⟨c, tail, hdigits⟩ := List.exists_cons_of_ne_nil item.low.digits_ne
  have hmem : c ∈ item.low.digits := hdigits ▸ List.mem_cons_self
  refine ⟨c, ?_, isdigit_ne (item.low.isDigits c hmem) (by decide)⟩
  have hbody : c ∈ item.body := List.mem_append_left _ hmem
  rw [text, marked, List.mem_append, List.mem_append]
  refine .inl (.inr ?_)
  split
  · exact List.mem_cons_of_mem _ (List.mem_append_right _ hbody)
  · exact hbody

theorem numeralText_noSep (n : Option Numeral) (hc : isdigit c = false) : c ∉ numeralText n := fun h => by
  cases n with
  | none => exact List.not_mem_nil h
  | some n => exact Bool.false_ne_true (hc.symm.trans (n.isDigits c h))

namespace Feature
variable (f : Feature)

theorem dportText_noSep : semicolon ∉ f.dportText := fun h => by
  rw [FeatureSpec.dportText, joined_eq] at h
  rcases mem_joinedWith h with h | ⟨item, hitem, h⟩
  · exact absurd h (by decide)
  · obtain ⟨part, -, rfl⟩ := List.mem_map.1 hitem
    exact part.not_mem_text (by decide) (by decide) h

theorem dictText_noSep : semicolon ∉ f.dictText := fun h => by
  rw [FeatureSpec.dictText, joined_eq] at h
  rcases mem_joinedWith h with h | ⟨item, hitem, h⟩
  · exact absurd h (by decide)
  · obtain ⟨e, -, rfl⟩ := List.mem_map.1 hitem
    rcases e.isxdigit_or_of_mem h with h | h | h
    · exact absurd h (by decide)
    · exact absurd h (by decide)
    · exact absurd h (by decide)

theorem fields_noSep : ∀ item ∈ f.fields, semicolon ∉ item := by
  have hproto : semicolon ∉ f.protoStr := by
    rw [FeatureSpec.protoStr]
    split <;> decide
  have hextra : ∀ item ∈ f.extra.fields, semicolon ∉ item := by
    have hsearch := f.fits.searchStr_noSep
    cases hkind : f.extra with
    | none => exact List.forall_mem_nil _
    | search text =>
      rw [hkind] at hsearch
      exact List.forall_mem_singleton.2 hsearch
    | ignore text value =>
      rw [hkind] at hsearch
      exact List.forall_mem_cons.2 ⟨hsearch, List.forall_mem_singleton.2 (numeralText_noSep value (by decide))⟩
  simp only [FeatureSpec.fields, List.forall_mem_cons]
  exact ⟨hproto, numeralText_noSep _ (by decide), f.dportText_noSep, f.fits.hostUrl_noSep, f.fits.requestUrl_noSep,
    f.dictText_noSep, hextra⟩

theorem length_lt_of_mem {item : List UInt8} (h : item ∈ f.fields) : item.length < maxFeatureStrLen :=
  (length_le_joinedWith h).trans_lt f.fits.text_lt

theorem requestUrl_lt : f.requestUrl.length < requestUrlLen := f.length_lt_of_mem (by simp [FeatureSpec.fields])

theorem dictText_lt : f.dictText.length < dictLen := f.length_lt_of_mem (by simp [FeatureSpec.fields])

theorem minFeatureStrLen_le : minFeatureStrLen ≤ f.text.length := by
  have htotal := @length_joinedWith semicolon f.fields (List.cons_ne_nil _ _)
  have hproto : f.protoStr.length = 3 := by rw [FeatureSpec.protoStr]; split <;> decide
  rw [FeatureSpec.fields, List.map_cons, List.sum_cons, List.map_cons, List.sum_cons, List.map_cons, List.sum_cons,
    List.map_cons, List.sum_cons, List.map_cons, List.sum_cons, List.map_cons, List.sum_cons, hproto] at htotal
  rw [FeatureSpec.text, minFeatureStrLen, FeatureSpec.fields]
  omega

theorem featureProto_protoStr : featureProto f.protoStr = some f.proto := by
  rw [FeatureSpec.protoStr, FeatureSpec.proto]
  split <;> decide

theorem parsePortInfo_dportText : parsePortInfo f.dportText = .ok (f.dport.map PortItem.range) := by
  have hle := f.fits.dport_le
  have hlt := f.fits.dport_lt
  rw [FeatureSpec.dportText] at hlt ⊢
  cases hdport : f.dport with
  | nil => rfl
  | cons item items =>
    rw [hdport] at hle hlt
    have hread : (List.map PortItem.text (item :: items)).filterMap parseRangeValue =
        (item :: items).map PortItem.range := by
      have hone : parseRangeValue ∘ PortItem.text = some ∘ PortItem.range := funext PortItem.parse_text
      rw [List.filterMap_map, hone, List.filterMap_eq_map]
    rw [← hread]
    refine parsePortInfo_joined item.exists_digit (by rwa [List.length_map]) fun text htext => ?_
    obtain ⟨part, -, rfl⟩ := List.mem_map.1 htext
    rw [joined_eq] at hlt
    exact part.portText (((length_le_joinedWith htext).trans_lt hlt).trans (by decide))

end Feature

end

/-! ### The node -/

/-- What is kept of `search`: nothing if it is the last field. -/
def FeatureExtra.kept : FeatureExtra → List UInt8
  | .ignore text _ => text
  | _ => []

theorem FeatureExtra.kept_eq (e : FeatureExtra) : e.kept = e.searchStr ↔ ∀ text, e = .search text → text = [] := by
  cases e with
  | none => exact iff_of_true rfl fun _ h => absurd h (by simp)
  | search text => exact ⟨fun h s hs => (FeatureExtra.search.inj hs).symm.trans h.symm, fun h => (h text rfl).symm⟩
  | ignore text value => exact iff_of_true rfl fun _ h => absurd h (by simp)

namespace Feature
variable (f : Feature)

/-- The buffers of `add_app_feature` for this feature. -/
def read : FeatureFields where
  protoStr := f.protoStr
  srcPortStr := numeralText f.sport
  dstPortStr := f.dportText
  hostUrl := f.hostUrl
  requestUrl := f.requestUrl
  dict := f.dictText
  searchStr := f.extra.kept
  ignore := numeralValue f.extra.value

/-- The buffers before `dict`. -/
def readHead : FeatureFields where
  protoStr := f.protoStr
  srcPortStr := numeralText f.sport
  dstPortStr := f.dportText
  hostUrl := f.hostUrl
  requestUrl := f.requestUrl

theorem setParams_head : setParams {} 0 f.fields = setParams f.readHead 5 (f.dictText :: f.extra.fields) := by
  have hproto : f.protoStr.length ≤ protoStrLen := by rw [FeatureSpec.protoStr]; split <;> decide
  have hrequest := f.requestUrl_lt.le
  rw [FeatureSpec.fields]
  simp only [setParams, setParam, copyField_ok hproto, copyField_ok f.fits.sport_lt.le, copyField_ok f.fits.dport_lt.le,
    copyField_ok f.fits.hostUrl_lt.le, copyField_ok hrequest, Bind.bind, Except.bind, Pure.pure, Except.pure]
  rfl

theorem searchStr_le : f.extra.searchStr.length ≤ searchStrLen := f.fits.searchStr_lt.le.trans (by decide)

/-- The last parameter is kept if it is `dict` or `ignore`. -/
theorem setParams_tail : setParams f.readHead 5 (f.dictText :: f.extra.fields) = .ok f.read := by
  have hdict := f.dictText_lt
  have hsearch := f.searchStr_le
  have hignore (text : List UInt8) (value : Option Numeral) (h : f.extra = .ignore text value) :
      (numeralText value).length < tmpBufLen :=
    f.length_lt_of_mem (by simp [FeatureSpec.fields, h, FeatureExtra.fields])
  cases hextra : f.extra with
  | none =>
    rw [FeatureExtra.fields, setParams, setLastParam, if_pos (.inl rfl), setParam, copyField_ok hdict, read, hextra]; rfl
  | search text =>
    rw [FeatureExtra.fields, setParams, setParam, copyField_ok hdict.le, read, hextra]; rfl
  | ignore text value =>
    rw [hextra, FeatureExtra.searchStr] at hsearch
    have hvalue := hignore text value hextra
    rw [FeatureExtra.fields, setParams, setParam, copyField_ok hdict.le]
    simp only [Bind.bind, Except.bind, Pure.pure, Except.pure, setParams, setParam, copyField_ok hsearch]
    rw [setLastParam, if_pos (.inr rfl), setParam, setIgnore, copyField_ok hvalue]
    simp only [Bind.bind, Except.bind, Pure.pure, Except.pure, readField_ok hvalue, kAtoi_numeral]
    rw [read, hextra]; rfl

theorem featureFields_text : featureFields f.text = .ok f.read := by
  obtain ⟨c, rest, hcons, hc⟩ : ∃ c rest, f.text = c :: rest ∧ c ≠ semicolon := by
    rw [FeatureSpec.text, FeatureSpec.fields, joinedWith, FeatureSpec.protoStr]
    split
    · exact ⟨_, _, rfl, by decide⟩
    · exact ⟨_, _, rfl, by decide⟩
  have hloop := @featureLoop_joined f.fields 0 {} (List.cons_ne_nil _ _) f.fields_noSep
  rw [← FeatureSpec.text, hcons, featureLoop_of_ne hc, f.setParams_head, f.setParams_tail] at hloop
  rw [hcons]
  exact hloop

theorem kept_lt : f.extra.kept.length < maxSearchStrLen := by
  have h := f.fits.searchStr_lt
  cases hextra : f.extra with
  | none => exact Nat.zero_lt_succ _
  | search text => exact Nat.zero_lt_succ _
  | ignore text value =>
    rw [hextra] at h
    exact h

/-- The node that is added. -/
def found (appId : Option ℤ) (name : List UInt8) : FeatureListNode :=
  { f.node appId name with
    searchStr := f.extra.kept
    searchStr_lt := f.kept_lt }

theorem found_eq_node (appId : Option ℤ) (name : List UInt8) :
    f.found appId name = f.node appId name ↔ ∀ text, f.extra = .search text → text = [] := by
  rw [← f.extra.kept_eq]
  constructor
  · exact fun h => congrArg (fun n : FeatureListNode => n.searchStr) h
  · intro h
    simp only [found, h]
    rfl

variable {appId : Option ℤ} {name : List UInt8}

theorem addAppFeature_text (features : List FeatureListNode) (hname : name.length < maxAppNameLen) :
    addAppFeature features appId name f.text = .ok (f.found appId name :: features) := by
  have hkept : f.extra.kept.length < searchStrLen := f.kept_lt.trans (by decide)
  rw [addAppFeature, if_neg (Nat.not_lt.2 f.minFeatureStrLen_le), f.featureFields_text]
  simp only [Bind.bind, Except.bind, read, f.featureProto_protoStr, readField_ok f.fits.sport_lt, readField_ok f.fits.dport_lt,
    f.parsePortInfo_dportText, readField_ok f.fits.hostUrl_lt, readField_ok f.requestUrl_lt, readField_ok hkept,
    readField_ok f.dictText_lt, sscanfInt_numeral]
  have hhost : f.hostUrl.length < maxHostUrlLen := f.fits.hostUrl_lt.trans (by decide)
  have hrequest : f.requestUrl.length < maxRequestUrlLen := f.requestUrl_lt
  simp only [addAppFeatureNode, copyString_ok hname, copyString_ok hhost, copyString_ok hrequest, dif_pos f.kept_lt,
    copyString_ok f.fits.text_lt, FeatureSpec.dictText, parseDict_text f.fits.dict_le, Bind.bind, Except.bind]
  rfl

end Feature

end Oaf
