import DOpenWrt.Oaf.PortInfo

/-!
# What a port list means

A list keeps the items that can be read, in order. With a negated item among them only the negated items count: a port
matches when it lies in none. Otherwise it matches when it lies in one. A list of which nothing can be read matches every
port.
-/

namespace Oaf
open CString (str isspace isdigit digitsVal)

/-! ### Trimming -/

def space : UInt8 := ' '.toUInt8
def bar : UInt8 := '|'.toUInt8
def dash : UInt8 := '-'.toUInt8
def bang : UInt8 := '!'.toUInt8

def spaces (n : ℕ) : List UInt8 := List.replicate n space

/-- Neither end is white space. -/
def Tight (s : List UInt8) : Prop := (∀ c, s.head? = some c → kIsSpace c = false) ∧ ∀ c, s.getLast? = some c → kIsSpace c = false

section
variable {s t : List UInt8} {m n : ℕ} {c : UInt8}

theorem mem_spaces (h : c ∈ spaces n) : c = space := List.eq_of_mem_replicate h

theorem dropWhile_spaces (s : List UInt8) : (spaces n ++ s).dropWhile kIsSpace = s.dropWhile kIsSpace := by
  rw [List.dropWhile_append_of_pos fun c hc => by rw [mem_spaces hc]; decide]

theorem rdropWhile_spaces (s : List UInt8) : (s ++ spaces n).rdropWhile kIsSpace = s.rdropWhile kIsSpace := by
  have hreverse : (spaces n).reverse = spaces n := List.reverse_replicate ..
  rw [List.rdropWhile, List.reverse_append, hreverse, dropWhile_spaces, ← List.rdropWhile]

theorem Tight.rdropWhile (h : Tight s) : s.rdropWhile kIsSpace = s := by
  refine List.rdropWhile_eq_self_iff.2 fun hne => ?_
  rw [h.2 _ (List.getLast?_eq_getLast_of_ne_nil hne)]
  exact Bool.false_ne_true

theorem kTrim_spaces (h : Tight s) : kTrim (spaces m ++ s ++ spaces n) = s := by
  rw [kTrim, List.append_assoc, dropWhile_spaces]
  cases hs : s with
  | nil =>
    have hnil : (spaces n).dropWhile kIsSpace = [] := by
      have := dropWhile_spaces (n := n) []
      rwa [List.append_nil] at this
    rw [List.nil_append, hnil]; rfl
  | cons c s' =>
    have hc : kIsSpace c = false := h.1 c (by rw [hs]; rfl)
    rw [List.cons_append, List.dropWhile_cons_of_neg (by rw [hc]; exact Bool.false_ne_true), ← List.cons_append, ← hs,
      rdropWhile_spaces, h.rdropWhile]

end

/-! ### Well-formed items -/

/-- A decimal numeral that an `int` holds. -/
structure Numeral where
  digits : List UInt8
  digits_ne : digits ≠ []
  isDigits : ∀ c ∈ digits, isdigit c = true
  value_lt : digitsVal digits < 2 ^ 31

/-- An item `a`, `a-b`, `!a` or `!a-b`, with spaces at its ends, after the `!` and after the `-`. -/
structure PortItem where
  before : ℕ
  not : Bool
  afterNot : ℕ
  low : Numeral
  high : Option (ℕ × Numeral)
  after : ℕ

namespace PortItem

def highText (item : PortItem) : List UInt8 :=
  item.high.elim [] fun high => dash :: (spaces high.1 ++ high.2.digits)

def body (item : PortItem) : List UInt8 := item.low.digits ++ item.highText

def marked (item : PortItem) : List UInt8 := if item.not then bang :: (spaces item.afterNot ++ item.body) else item.body

def text (item : PortItem) : List UInt8 := spaces item.before ++ item.marked ++ spaces item.after

def range (item : PortItem) : RangeValue where
  not := item.not
  start := digitsVal item.low.digits
  stop := item.high.elim (digitsVal item.low.digits) fun high => digitsVal high.2.digits

end PortItem

section
variable {c : UInt8}

theorem isdigit_not_space (h : isdigit c = true) : kIsSpace c = false := by
  simp only [isdigit, decide_eq_true_eq] at h
  simp only [kIsSpace, isspace, Bool.or_eq_false_iff, decide_eq_false_iff_not]
  have h0 : '0'.toNat = 48 := rfl
  have h9 : '9'.toNat = 57 := rfl
  omega

theorem isdigit_ne {d : UInt8} (h : isdigit c = true) (hd : isdigit d = false) : c ≠ d := fun heq =>
  Bool.false_ne_true (hd.symm.trans (heq ▸ h))

namespace Numeral
variable (n : Numeral)

theorem tight : Tight n.digits where
  left _ h := isdigit_not_space (n.isDigits _ (List.mem_of_head? h))
  right _ h := isdigit_not_space (n.isDigits _ (List.mem_of_getLast? h))

theorem takeWhile_digits {rest : List UInt8} (hrest : ∀ c, rest.head? = some c → isdigit c = false) :
    (n.digits ++ rest).takeWhile isdigit = n.digits := by
  rw [List.takeWhile_append_of_pos n.isDigits]
  cases rest with
  | nil => exact List.append_nil _
  | cons c rest => rw [List.takeWhile_cons_of_neg (by rw [hrest c rfl]; exact Bool.false_ne_true), List.append_nil]

theorem toInt_value : (BitVec.ofInt 32 (digitsVal n.digits : ℤ)).toInt = digitsVal n.digits := by
  rw [BitVec.toInt_ofInt]
  have := n.value_lt
  exact Int.bmod_eq_of_le (by omega) (by omega)

/-- `%d` reads the numeral and stops behind it. -/
theorem sscanfInt_digits {rest : List UInt8} (hrest : ∀ c, rest.head? = some c → isdigit c = false) :
    sscanfInt (n.digits ++ rest) = some ((digitsVal n.digits : ℤ), rest) := by
  obtain ⟨c, tail, hdigits⟩ := List.exists_cons_of_ne_nil n.digits_ne
  have hc : isdigit c = true := n.isDigits c (hdigits ▸ List.mem_cons_self)
  have hspaces : (n.digits ++ rest).dropWhile kIsSpace = n.digits ++ rest := by
    rw [hdigits]
    exact List.dropWhile_cons_of_neg (by rw [isdigit_not_space hc]; exact Bool.false_ne_true)
  have hhead : (n.digits ++ rest).head? ≠ some '-'.toUInt8 := by
    rw [hdigits]
    exact fun h => isdigit_ne hc (by decide) (Option.some.inj h)
  rw [sscanfInt, hspaces, if_neg (fun h => hhead (of_decide_eq_true h)), if_neg (fun h => hhead (of_decide_eq_true h)),
    n.takeWhile_digits hrest, if_neg n.digits_ne, n.toInt_value, List.drop_left]

end Numeral

theorem sscanfInt_spaces (n : ℕ) (s : List UInt8) : sscanfInt (spaces n ++ s) = sscanfInt s := by
  rw [sscanfInt, dropWhile_spaces, ← sscanfInt]

namespace PortItem
variable (item : PortItem)

theorem highText_head (h : item.highText.head? = some c) : isdigit c = false := by
  rw [highText] at h
  cases hhigh : item.high with
  | none => rw [hhigh] at h; exact absurd h.symm (Option.some_ne_none _)
  | some high =>
    rw [hhigh] at h
    rw [← Option.some.inj h]
    decide

theorem body_tight : Tight item.body where
  left c h := by
    obtain ⟨d, tail, hdigits⟩ := List.exists_cons_of_ne_nil item.low.digits_ne
    rw [body, hdigits] at h
    rw [← Option.some.inj h]
    exact isdigit_not_space (item.low.isDigits d (hdigits ▸ List.mem_cons_self))
  right c h := by
    rw [body, highText] at h
    cases hhigh : item.high with
    | none =>
      rw [hhigh, Option.elim_none, List.append_nil] at h
      exact item.low.tight.2 c h
    | some high =>
      rw [hhigh, Option.elim_some, ← List.cons_append, ← List.append_assoc,
        List.getLast?_append_of_ne_nil _ high.2.digits_ne] at h
      exact high.2.tight.2 c h

theorem marked_tight : Tight item.marked := by
  rw [marked]
  split
  · refine ⟨fun c h => ?_, fun c h => ?_⟩
    · rw [← Option.some.inj h]; decide
    · have hne : item.body ≠ [] := fun h => item.low.digits_ne (List.append_eq_nil_iff.1 h).1
      rw [← List.cons_append, List.getLast?_append_of_ne_nil _ hne] at h
      exact item.body_tight.2 c h
  · exact item.body_tight

theorem kTrim_text : kTrim item.text = item.marked := kTrim_spaces item.marked_tight

/-- What `parse_range_value` leaves in `pure_range`. -/
theorem pureRange : kTrim (if item.not then item.marked.drop 1 else item.marked) = item.body := by
  have hbody (n : ℕ) : kTrim (spaces n ++ item.body) = item.body := by
    have := @kTrim_spaces item.body n 0 item.body_tight
    rwa [spaces, spaces, List.replicate_zero, List.append_nil] at this
  rw [marked]
  split
  · exact hbody item.afterNot
  · exact hbody 0

theorem marked_head : (item.marked.head? = some '!'.toUInt8) ↔ item.not = true := by
  rw [marked]
  constructor
  · intro h
    by_contra hnot
    rw [if_neg hnot] at h
    obtain ⟨d, tail, hdigits⟩ := List.exists_cons_of_ne_nil item.low.digits_ne
    rw [body, hdigits] at h
    exact isdigit_ne (item.low.isDigits d (hdigits ▸ List.mem_cons_self)) (by decide) (Option.some.inj h)
  · intro h
    rw [if_pos h]; rfl

theorem dash_mem_body : '-'.toUInt8 ∈ item.body ↔ item.high ≠ none := by
  have hlow : '-'.toUInt8 ∉ item.low.digits := fun h => isdigit_ne (item.low.isDigits _ h) (by decide) rfl
  rw [body, List.mem_append, or_iff_right hlow, highText]
  cases item.high with
  | none => exact iff_of_false List.not_mem_nil fun h => h rfl
  | some high => exact iff_of_true List.mem_cons_self (Option.some_ne_none high)

theorem validate_text : validateRangeValue item.text = true := by
  have hspace (n : ℕ) : validateRangeValue (spaces n) = true :=
    List.all_eq_true.2 fun c hc => by rw [mem_spaces hc]; decide
  have hdigits (n : Numeral) : validateRangeValue n.digits = true :=
    List.all_eq_true.2 fun c hc => by rw [n.isDigits c hc, Bool.or_true]
  have happend (s t : List UInt8) (hs : validateRangeValue s = true) (ht : validateRangeValue t = true) :
      validateRangeValue (s ++ t) = true := by
    rw [validateRangeValue, List.all_append, Bool.and_eq_true]
    exact ⟨hs, ht⟩
  have hhigh : validateRangeValue item.highText = true := by
    rw [highText]
    cases item.high with
    | none => rfl
    | some high => exact happend [dash] _ (by decide) (happend _ _ (hspace _) (hdigits _))
  have hbody : validateRangeValue item.body = true := happend _ _ (hdigits _) hhigh
  have hmarked : validateRangeValue item.marked = true := by
    rw [marked]
    split
    · exact happend [bang] _ (by decide) (happend _ _ (hspace _) hbody)
    · exact hbody
  exact happend _ _ (happend _ _ (hspace _) hmarked) (hspace _)

/-- A well-formed item is read as its range. -/
theorem parse_text : parseRangeValue item.text = some item.range := by
  have hnot : decide (item.marked.head? = some '!'.toUInt8) = item.not := by
    rw [Bool.eq_iff_iff, decide_eq_true_iff, item.marked_head]
  have hlow : sscanfInt item.body = some ((digitsVal item.low.digits : ℤ), item.highText) :=
    item.low.sscanfInt_digits fun _ => item.highText_head
  rw [parseRangeValue, item.validate_text, if_neg (by decide : ¬(!true) = true), item.kTrim_text]
  dsimp only
  rw [hnot, item.pureRange]
  cases hhigh : item.high with
  | none =>
    rw [if_neg fun h => item.dash_mem_body.1 h hhigh, hlow, range, hhigh]; rfl
  | some high =>
    have htext : item.highText = dash :: (spaces high.1 ++ high.2.digits) := by rw [highText, hhigh]; rfl
    have hdigits : sscanfInt (spaces high.1 ++ high.2.digits) = some ((digitsVal high.2.digits : ℤ), []) := by
      have := @Numeral.sscanfInt_digits high.2 [] fun _ h => absurd h.symm (Option.some_ne_none _)
      rwa [List.append_nil, ← sscanfInt_spaces high.1] at this
    have hrange : sscanfRange item.body = some ((digitsVal item.low.digits : ℤ), (digitsVal high.2.digits : ℤ)) := by
      rw [sscanfRange, hlow, htext]
      change (sscanfInt (spaces high.1 ++ high.2.digits)).bind _ = _
      rw [hdigits]; rfl
    rw [if_pos (item.dash_mem_body.2 (hhigh ▸ Option.some_ne_none _)), hrange, range, hhigh]; rfl

end PortItem
end

/-! ### The list -/

/-- The items with the separator between them. -/
def joined : List (List UInt8) → List UInt8
  | [] => []
  | [item] => item
  | item :: next :: items => item ++ bar :: joined (next :: items)

/-- A text that can stand between two separators and fits `one_port_buf`; its only white space is the space. -/
structure PortText (item : List UInt8) : Prop where
  noBar : bar ∉ item
  onlySpaces : ∀ c ∈ item, kIsSpace c = true → c = space
  length_lt : item.length < onePortBufLen

/-- The last item trimmed on its right. -/
def trimLast : List (List UInt8) → List (List UInt8)
  | [] => []
  | [item] => [item.rdropWhile kIsSpace]
  | item :: next :: items => item :: trimLast (next :: items)

section
variable {item : List UInt8} {items : List (List UInt8)}

theorem rdropWhile_bar (s t : List UInt8) :
    (s ++ bar :: t).rdropWhile kIsSpace = s ++ bar :: t.rdropWhile kIsSpace := by
  have hbar : kIsSpace bar = false := by decide
  rw [List.rdropWhile, List.rdropWhile, List.reverse_append, List.reverse_cons, List.append_assoc, List.dropWhile_append]
  split
  · next h =>
    rw [List.isEmpty_iff.1 h, List.singleton_append,
      List.dropWhile_cons_of_neg (by rw [hbar]; exact Bool.false_ne_true)]
    simp
  · simp

theorem rdropWhile_joined (items : List (List UInt8)) :
    (joined items).rdropWhile kIsSpace = joined (trimLast items) := by
  induction items with
  | nil => rfl
  | cons item items ih =>
    cases items with
    | nil => rfl
    | cons next items =>
      rw [joined, rdropWhile_bar, ih, trimLast]
      cases items <;> rfl

theorem trimLast_ne (h : items ≠ []) : trimLast items ≠ [] := by
  cases items with
  | nil => exact h
  | cons item items => cases items <;> exact List.cons_ne_nil _ _

theorem length_trimLast (items : List (List UInt8)) : (trimLast items).length = items.length := by
  induction items with
  | nil => rfl
  | cons item items ih =>
    cases items with
    | nil => rfl
    | cons next items => rw [trimLast, List.length_cons, ih]; rfl

theorem PortText.sublist {item' : List UInt8} (h : PortText item) (hsub : item'.Sublist item) : PortText item' where
  noBar hmem := h.noBar (hsub.subset hmem)
  onlySpaces c hc := h.onlySpaces c (hsub.subset hc)
  length_lt := hsub.length_le.trans_lt h.length_lt

theorem portText_trimLast (h : ∀ item ∈ items, PortText item) : ∀ item ∈ trimLast items, PortText item := by
  induction items with
  | nil => exact h
  | cons item items ih =>
    cases items with
    | nil =>
      intro trimmed hmem
      rw [List.mem_singleton.1 hmem]
      exact (h item List.mem_cons_self).sublist (List.rdropWhile_prefix kIsSpace _).sublist
    | cons next items =>
      intro trimmed hmem
      rcases List.mem_cons.1 hmem with rfl | hmem
      · exact h _ List.mem_cons_self
      · exact ih (fun item hitem => h item (List.mem_cons_of_mem _ hitem)) trimmed hmem

/-- An item is trimmed anyway. -/
theorem parse_of_trimmed {item' : List UInt8} (htrim : kTrim item' = kTrim item)
    (hvalid : validateRangeValue item' = validateRangeValue item) : parseRangeValue item' = parseRangeValue item := by
  rw [parseRangeValue, parseRangeValue, htrim, hvalid]

theorem validate_spaces {s t : List UInt8} (hs : ∀ c ∈ s, c = space) :
    validateRangeValue (s ++ t) = validateRangeValue t := by
  have hall : s.all (fun c => c = ' '.toUInt8 || c = '!'.toUInt8 || c = '-'.toUInt8 || isdigit c) = true :=
    List.all_eq_true.2 fun c hc => by rw [hs c hc]; decide
  rw [validateRangeValue, List.all_append, hall, Bool.true_and, ← validateRangeValue]

theorem parse_dropWhile (h : PortText item) : parseRangeValue (item.dropWhile kIsSpace) = parseRangeValue item := by
  refine parse_of_trimmed ?_ ?_
  · rw [kTrim, kTrim, List.dropWhile_idempotent]
  · have hspaces (c : UInt8) (hc : c ∈ item.takeWhile kIsSpace) : c = space :=
      h.onlySpaces c ((List.takeWhile_prefix kIsSpace).subset hc) (List.mem_takeWhile_imp hc)
    have := validate_spaces (t := item.dropWhile kIsSpace) hspaces
    rwa [List.takeWhile_append_dropWhile, eq_comm] at this

theorem parse_rdropWhile (h : PortText item) : parseRangeValue (item.rdropWhile kIsSpace) = parseRangeValue item := by
  have hsplit : item.rdropWhile kIsSpace ++ item.rtakeWhile kIsSpace = item := List.rdropWhile_append_rtakeWhile ..
  have hspaces (c : UInt8) (hc : c ∈ item.rtakeWhile kIsSpace) : c = space :=
    h.onlySpaces c ((List.rtakeWhile_suffix kIsSpace _).subset hc) (List.mem_rtakeWhile_imp hc)
  have hrepeat : item.rtakeWhile kIsSpace = spaces (item.rtakeWhile kIsSpace).length :=
    List.eq_replicate_of_mem hspaces
  refine parse_of_trimmed ?_ ?_
  · conv_rhs => rw [← hsplit, hrepeat]
    exact (kTrim_append_spaces _ _).symm
  · have hall : (item.rtakeWhile kIsSpace).all
        (fun c => c = ' '.toUInt8 || c = '!'.toUInt8 || c = '-'.toUInt8 || isdigit c) = true :=
      List.all_eq_true.2 fun c hc => by rw [hspaces c hc]; decide
    conv_rhs => rw [← hsplit]
    rw [validateRangeValue, validateRangeValue, List.all_append, hall, Bool.and_true]
where
  kTrim_append_spaces (s : List UInt8) (n : ℕ) : kTrim (s ++ spaces n) = kTrim s := by
    rw [kTrim, kTrim, List.dropWhile_append]
    split
    · next h =>
      have hnil := dropWhile_spaces (n := n) []
      rw [List.append_nil] at hnil
      rw [hnil, List.isEmpty_iff.1 h]; rfl
    · exact rdropWhile_spaces _

theorem parse_trimLast (h : ∀ item ∈ items, PortText item) :
    (trimLast items).filterMap parseRangeValue = items.filterMap parseRangeValue := by
  induction items with
  | nil => rfl
  | cons item items ih =>
    cases items with
    | nil =>
      rw [trimLast, List.filterMap_cons, List.filterMap_cons, parse_rdropWhile (h item List.mem_cons_self)]
    | cons next items =>
      have hrest := ih fun item hitem => h item (List.mem_cons_of_mem _ hitem)
      rw [trimLast, List.filterMap_cons, hrest]
      exact List.filterMap_cons.symm

/-! ### The loop -/

theorem addPortRange_ok {info : PortInfo} (hitem : item.length < onePortBufLen) (hinfo : info.length < maxPortRangeNum) :
    addPortRange info item = .ok (info ++ (parseRangeValue item).toList) := by
  rw [addPortRange, if_neg (Nat.not_le_of_lt hitem), if_neg fun h => Nat.not_le_of_lt hinfo h.2]

theorem portLoop_bar (item rest : List UInt8) (info : PortInfo) : portLoop item (bar :: rest) info = (do
    let info ← addPortRange info item
    portLoop [] rest info) := if_neg (not_not.2 rfl)

theorem portLoop_of_ne {c : UInt8} (h : c ≠ bar) (item rest : List UInt8) (info : PortInfo) :
    portLoop item (c :: rest) info = portLoop (item ++ [c]) rest info := if_pos h

theorem portLoop_item {item : List UInt8} (h : bar ∉ item) (read rest : List UInt8) (info : PortInfo) :
    portLoop read (item ++ rest) info = portLoop (read ++ item) rest info := by
  induction item generalizing read with
  | nil => rw [List.nil_append, List.append_nil]
  | cons c item ih =>
    rw [List.mem_cons, not_or] at h
    rw [List.cons_append, portLoop_of_ne (Ne.symm h.1), ih h.2, List.append_assoc]; rfl

/-- The loop keeps the items that are read. -/
theorem portLoop_joined (hne : items ≠ []) (h : ∀ item ∈ items, PortText item) {info : PortInfo}
    (hinfo : info.length + items.length ≤ maxPortRangeNum) :
    portLoop [] (joined items) info = .ok (info ++ items.filterMap parseRangeValue) := by
  induction items generalizing info with
  | nil => exact absurd rfl hne
  | cons item items ih =>
    have hitem := h item List.mem_cons_self
    rw [List.length_cons] at hinfo
    have hadd := @addPortRange_ok item info hitem.length_lt (by omega)
    have hcons : (item :: items).filterMap parseRangeValue =
        (parseRangeValue item).toList ++ items.filterMap parseRangeValue := by
      rw [List.filterMap_cons]
      cases parseRangeValue item <;> rfl
    rw [hcons, ← List.append_assoc]
    cases items with
    | nil =>
      have := portLoop_item hitem.noBar [] [] info
      rw [List.append_nil] at this
      rw [joined, this, List.nil_append, portLoop, hadd, List.filterMap_nil, List.append_nil]
    | cons next items =>
      have hlength : (parseRangeValue item).toList.length ≤ 1 := by cases parseRangeValue item <;> simp
      rw [joined, portLoop_item hitem.noBar, List.nil_append, portLoop_bar, hadd]
      refine ih (List.cons_ne_nil _ _) (fun item hmem => h item (List.mem_cons_of_mem _ hmem)) ?_
      rw [List.length_append]
      omega

theorem joined_dropWhile (hfirst : ¬∀ c ∈ item, kIsSpace c = true) :
    (joined (item :: items)).dropWhile kIsSpace = joined (item.dropWhile kIsSpace :: items) := by
  have hne : (item.dropWhile kIsSpace).isEmpty = false := by
    rw [List.isEmpty_eq_false_iff]
    exact fun h => hfirst (List.dropWhile_eq_nil_iff.1 h)
  cases items with
  | nil => rfl
  | cons next items => rw [joined, List.dropWhile_append, hne, joined]; rfl

/-- A list of at most five texts, the first not blank, is read item by item. -/
theorem parsePortInfo_joined (hfirst : ∃ c ∈ joined (items.take 1), c ≠ space) (hlength : items.length ≤ maxPortRangeNum)
    (h : ∀ item ∈ items, PortText item) : parsePortInfo (joined items) = .ok (items.filterMap parseRangeValue) := by
  cases items with
  | nil =>
    obtain ⟨c, hc, -⟩ := hfirst
    exact absurd hc List.not_mem_nil
  | cons item items =>
    obtain ⟨d, hd, hne⟩ := hfirst
    have hd : d ∈ item := hd
    have hitem := h item List.mem_cons_self
    have hrest (next : List UInt8) (hmem : next ∈ items) : PortText next := h next (List.mem_cons_of_mem _ hmem)
    have hdropped : PortText (item.dropWhile kIsSpace) := hitem.sublist (List.dropWhile_sublist _)
    let dropped := item.dropWhile kIsSpace :: items
    have htexts : ∀ item ∈ dropped, PortText item := by
      intro next hmem
      rcases List.mem_cons.1 hmem with rfl | hmem
      · exact hdropped
      · exact hrest next hmem
    have htrim : kTrim (joined (item :: items)) = joined (trimLast dropped) := by
      rw [kTrim, joined_dropWhile fun hall => hne (hitem.onlySpaces d hd (hall d hd)), rdropWhile_joined]
    have hread : (trimLast dropped).filterMap parseRangeValue = (item :: items).filterMap parseRangeValue := by
      rw [parse_trimLast htexts, List.filterMap_cons, List.filterMap_cons, parse_dropWhile hitem]
    have hroom : ([] : PortInfo).length + (trimLast dropped).length ≤ maxPortRangeNum := by
      rw [length_trimLast, List.length_nil, Nat.zero_add]
      exact hlength
    have hloop := portLoop_joined (trimLast_ne (List.cons_ne_nil _ _)) (portText_trimLast htexts) hroom
    rw [parsePortInfo, htrim]
    rw [List.nil_append, hread] at hloop
    cases htext : joined (trimLast dropped) with
    | nil =>
      rw [htext] at hloop
      rw [← hloop]; rfl
    | cons c rest =>
      -- the first byte is not the separator: the first item is not blank
      have hc : c ≠ bar := by
        obtain ⟨first, tail, hfirst⟩ := List.exists_cons_of_ne_nil
          (fun hnil => hne (hitem.onlySpaces d hd (List.dropWhile_eq_nil_iff.1 hnil d hd)) :
            item.dropWhile kIsSpace ≠ [])
        have hhead : (joined dropped).head? = some first := by
          cases items with
          | nil => exact congrArg List.head? hfirst
          | cons next items => exact congrArg List.head? (congrArg (· ++ bar :: joined (next :: items)) hfirst)
        have hprefix : c :: rest <+: joined dropped := by
          rw [← htext, ← rdropWhile_joined]
          exact List.rdropWhile_prefix kIsSpace _
        obtain ⟨_, hprefix⟩ := hprefix
        rw [← hprefix] at hhead
        rw [Option.some.inj hhead]
        exact fun heq => hdropped.noBar (heq ▸ hfirst ▸ List.mem_cons_self)
      rw [htext, portLoop_of_ne hc] at hloop
      exact hloop

end

/-! ### Matching -/

def RangeValue.Holds (range : RangeValue) (port : ℤ) : Prop := range.start ≤ port ∧ port ≤ range.stop

/-- What `af_match_port` tests: with a negated range only the negated ranges. -/
def PortMatches (ranges : PortInfo) (port : ℤ) : Prop :=
  ranges = [] ∨
  ((∃ range ∈ ranges, range.not = true) ∧ ∀ range ∈ ranges, range.not = true → ¬range.Holds port) ∨
  (∀ range ∈ ranges, range.not = false) ∧ ∃ range ∈ ranges, range.Holds port

theorem afMatchPort_iff (ranges : PortInfo) (port : ℤ) : afMatchPort ranges port = true ↔ PortMatches ranges port := by
  rw [afMatchPort, PortMatches]
  by_cases hnil : ranges = []
  · rw [if_pos hnil]
    exact iff_of_true rfl (.inl hnil)
  rw [if_neg hnil, or_iff_right hnil]
  by_cases hnot : ∃ range ∈ ranges, range.not = true
  · have hall : ¬∀ range ∈ ranges, range.not = false := fun h => by
      obtain ⟨range, hmem, htrue⟩ := hnot
      exact Bool.false_ne_true ((h range hmem).symm.trans htrue)
    rw [if_pos (List.any_eq_true.2 hnot), or_iff_left fun h => hall h.1, and_iff_right hnot, Bool.not_eq_true',
      List.any_eq_false]
    refine forall₂_congr fun range _ => ?_
    rw [Bool.and_eq_true, Bool.and_eq_true, decide_eq_true_iff, decide_eq_true_iff, and_assoc, not_and]; rfl
  · have hall : ∀ range ∈ ranges, range.not = false := fun range hmem =>
      Bool.eq_false_iff.2 fun htrue => hnot ⟨range, hmem, htrue⟩
    rw [if_neg fun h => hnot (List.any_eq_true.1 h), or_iff_right fun h => hnot h.1, and_iff_right hall,
      List.any_eq_true]
    refine exists_congr fun range => and_congr_right fun _ => ?_
    rw [Bool.and_eq_true, decide_eq_true_iff, decide_eq_true_iff]; rfl

/-- The list means what its readable items say; a well-formed item is read as its range. -/
theorem port_list_meaning (items : List (List UInt8)) (port : ℤ) (hfirst : ∃ c ∈ joined (items.take 1), c ≠ space)
    (hlength : items.length ≤ maxPortRangeNum) (h : ∀ item ∈ items, PortText item) :
    parsePortInfo (joined items) = .ok (items.filterMap parseRangeValue) ∧
    (afMatchPort (items.filterMap parseRangeValue) port = true ↔ PortMatches (items.filterMap parseRangeValue) port) ∧
    (∀ parts : List PortItem, items = parts.map PortItem.text →
      items.filterMap parseRangeValue = parts.map PortItem.range) := by
  refine ⟨parsePortInfo_joined hfirst hlength h, afMatchPort_iff _ port, fun parts hparts => ?_⟩
  rw [hparts, List.filterMap_map]
  have hread : parseRangeValue ∘ PortItem.text = some ∘ PortItem.range := funext PortItem.parse_text
  rw [hread, List.filterMap_eq_map]

/-- With a negated item in the list the others are not tested, and an item that cannot be read leaves the list empty. -/
theorem mixedList_port :
    parsePortInfo (str "80|!443") = .ok [⟨false, 80, 80⟩, ⟨true, 443, 443⟩] ∧
      afMatchPort [⟨false, 80, 80⟩, ⟨true, 443, 443⟩] 22 = true ∧
    parsePortInfo (str "80x") = .ok [] ∧ afMatchPort [] 22 = true := by
  decide +kernel

theorem port_list_meaning_mixed :
    parsePortInfo (joined [str "80", str "!443"]) = .ok ([str "80", str "!443"].filterMap parseRangeValue) ∧
    (afMatchPort ([str "80", str "!443"].filterMap parseRangeValue) 22 = true ↔
      PortMatches ([str "80", str "!443"].filterMap parseRangeValue) 22) ∧
    (∀ parts : List PortItem, [str "80", str "!443"] = parts.map PortItem.text →
      [str "80", str "!443"].filterMap parseRangeValue = parts.map PortItem.range) :=
  port_list_meaning [str "80", str "!443"] 22 ⟨56, by decide +kernel⟩ (by decide) fun item hmem => by
    rcases List.mem_cons.1 hmem with rfl | hmem
    · exact ⟨by decide +kernel, by decide +kernel, by decide +kernel⟩
    · rw [List.mem_singleton.1 hmem]
      exact ⟨by decide +kernel, by decide +kernel, by decide +kernel⟩

end Oaf
