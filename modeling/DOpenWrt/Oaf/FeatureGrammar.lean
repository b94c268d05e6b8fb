import DOpenWrt.Oaf.FeatureList
import DOpenWrt.Oaf.PortList

/-!
# The grammar of a feature

A feature as its fields, the node it stands for, and what `add_app_feature` makes of its text.
-/

namespace Oaf
open CString (str isspace isdigit digitsVal)

def semicolon : UInt8 := ';'.toUInt8
def comma : UInt8 := ','.toUInt8
def colon : UInt8 := ':'.toUInt8

/-- The items with `sep` between them. -/
def joinedWith (sep : UInt8) : List (List UInt8) → List UInt8
  | [] => []
  | [item] => item
  | item :: next :: items => item ++ sep :: joinedWith sep (next :: items)

/-- A number that may be left out. -/
def numeralText (n : Option Numeral) : List UInt8 := n.elim [] Numeral.digits

def numeralValue (n : Option Numeral) : ℤ := n.elim 0 fun n => digitsVal n.digits

def entryText (negative : Bool) (index : Numeral) (hex : List UInt8) : List UInt8 :=
  (if negative then [dash] else []) ++ (index.digits ++ colon :: hex)

/-- A position in decimal, from the end if it is negative, and a byte in hexadecimal. -/
structure DictEntry where
  negative : Bool
  index : Numeral
  hex : List UInt8
  hex_ne_nil : hex ≠ []
  hex_digits : ∀ c ∈ hex, isxdigit c = true
  length_lt : (entryText negative index hex).length < posBufLen

namespace DictEntry

def text (e : DictEntry) : List UInt8 := entryText e.negative e.index e.hex

def pos (e : DictEntry) : ℤ := if e.negative then -(digitsVal e.index.digits : ℤ) else digitsVal e.index.digits

def info (e : DictEntry) : AfPosInfo := ⟨e.pos, UInt8.ofNat (xdigitsVal e.hex)⟩

end DictEntry

/-- The fields behind `dict`: none, `search`, or `search` and `ignore`. -/
inductive FeatureExtra
  | none
  | search (text : List UInt8)
  | ignore (text : List UInt8) (value : Option Numeral)

namespace FeatureExtra

def searchStr : FeatureExtra → List UInt8
  | .none => []
  | .search text => text
  | .ignore text _ => text

def value : FeatureExtra → Option Numeral
  | .ignore _ value => value
  | _ => .none

def fields : FeatureExtra → List (List UInt8)
  | .none => []
  | .search text => [text]
  | .ignore text value => [text, numeralText value]

end FeatureExtra

/-- The fields of `proto;sport;dport;host;request;dict[;search[;ignore]]`. -/
structure FeatureSpec where
  udp : Bool
  sport : Option Numeral
  dport : List PortItem
  hostUrl : List UInt8
  requestUrl : List UInt8
  dict : List DictEntry
  extra : FeatureExtra

namespace FeatureSpec

variable (f : FeatureSpec)

def protoStr : List UInt8 := if f.udp then str "udp" else str "tcp"

def proto : ℕ := if f.udp then ipprotoUdp else ipprotoTcp

def dportText : List UInt8 := joined (f.dport.map PortItem.text)

def dictText : List UInt8 := joined (f.dict.map DictEntry.text)

def fields : List (List UInt8) :=
  f.protoStr :: numeralText f.sport :: f.dportText :: f.hostUrl :: f.requestUrl :: f.dictText :: f.extra.fields

def text : List UInt8 := joinedWith semicolon f.fields

end FeatureSpec

/-- The fields respect the sizes of their buffers. -/
structure FeatureSpec.Fits (f : FeatureSpec) : Prop where
  sport_lt : (numeralText f.sport).length < srcPortStrLen
  dport_lt : f.dportText.length < dstPortStrLen
  dport_le : f.dport.length ≤ maxPortRangeNum
  hostUrl_lt : f.hostUrl.length < hostUrlLen
  hostUrl_noSep : semicolon ∉ f.hostUrl
  requestUrl_noSep : semicolon ∉ f.requestUrl
  dict_le : f.dict.length ≤ 14
  searchStr_lt : f.extra.searchStr.length < maxSearchStrLen
  searchStr_noSep : semicolon ∉ f.extra.searchStr
  text_lt : f.text.length < maxFeatureStrLen

structure Feature extends FeatureSpec where
  fits : toFeatureSpec.Fits

/-- The node that a feature stands for. -/
def Feature.node (f : Feature) (appId : Option ℤ) (name : List UInt8) : FeatureListNode where
  hostUrl := f.hostUrl
  requestUrl := f.requestUrl
  posInfo := f.dict.map DictEntry.info
  searchStr := f.extra.searchStr
  searchStr_lt := f.fits.searchStr_lt
  appId := appId
  appName := name
  feature := f.text
  proto := f.proto
  sport := numeralValue f.sport
  dportInfo := f.dport.map PortItem.range
  ignore := numeralValue f.extra.value

/-! ### Numbers -/

section
variable {c : UInt8} {rest : List UInt8}

theorem isspace_of_kIsSpace (h : kIsSpace c = false) : isspace c = false := by
  rw [kIsSpace, Bool.or_eq_false_iff] at h
  exact h.1

/-- A text that starts with neither white space nor a no-break space is read the same way. -/
theorem kSscanfInt_cons (h : kIsSpace c = false) : kSscanfInt (c :: rest) = sscanfInt (c :: rest) := by
  have hspaces : (c :: rest).dropWhile isspace = c :: rest :=
    List.dropWhile_cons_of_neg (by rw [isspace_of_kIsSpace h]; exact Bool.false_ne_true)
  have hnbsp : (c :: rest).head? ≠ some 0xa0 := fun hc => by
    rw [Option.some.inj hc] at h
    exact absurd h (by decide)
  rw [kSscanfInt, hspaces, if_neg hnbsp]

theorem Numeral.kSscanfInt_digits (n : Numeral) (hrest : ∀ c, rest.head? = some c → isdigit c = false) :
    kSscanfInt (n.digits ++ rest) = some ((digitsVal n.digits : ℤ), rest) := by
  obtain ⟨c, tail, hdigits⟩ := List.exists_cons_of_ne_nil n.digits_ne
  have hc : isdigit c = true := n.isDigits c (hdigits ▸ List.mem_cons_self)
  have hsame := @kSscanfInt_cons c (tail ++ rest) (isdigit_not_space hc)
  rw [← List.cons_append, ← hdigits] at hsame
  rw [hsame, n.sscanfInt_digits hrest]

/-- A minus sign before the numeral. -/
theorem Numeral.kSscanfInt_negative (n : Numeral) (hrest : ∀ c, rest.head? = some c → isdigit c = false) :
    kSscanfInt (dash :: (n.digits ++ rest)) = some (-(digitsVal n.digits : ℤ), rest) := by
  have hspaces : (dash :: (n.digits ++ rest)).dropWhile kIsSpace = dash :: (n.digits ++ rest) :=
    List.dropWhile_cons_of_neg (by decide)
  have hvalue : (BitVec.ofInt 32 (-(digitsVal n.digits : ℤ))).toInt = -(digitsVal n.digits : ℤ) := by
    rw [BitVec.toInt_ofInt]
    have := n.value_lt
    exact Int.bmod_eq_of_le (by omega) (by omega)
  rw [kSscanfInt_cons (by decide), sscanfInt, hspaces]
  have hsign : (dash :: (n.digits ++ rest)).head? = some '-'.toUInt8 := rfl
  simp only [hsign, decide_true, if_true, List.drop_one, List.tail_cons, n.takeWhile_digits hrest, if_neg n.digits_ne,
    hvalue, List.drop_left]

theorem sscanfInt_numeral (n : Option Numeral) : (sscanfInt (numeralText n)).elim 0 Prod.fst = numeralValue n := by
  cases n with
  | none => decide
  | some n =>
    have h := @Numeral.sscanfInt_digits n [] fun _ h => absurd h.symm (Option.some_ne_none _)
    rw [List.append_nil] at h
    rw [numeralText, Option.elim_some, h]; rfl

theorem kAtoi_numeral (n : Option Numeral) : kAtoi (numeralText n) = numeralValue n := by
  cases n with
  | none => decide
  | some n =>
    have htake : n.digits.takeWhile isdigit = n.digits := List.takeWhile_eq_self_iff.2 n.isDigits
    obtain ⟨c, tail, hdigits⟩ := List.exists_cons_of_ne_nil n.digits_ne
    have hc : isdigit c = true := n.isDigits c (hdigits ▸ List.mem_cons_self)
    have hblank : (c = ' '.toUInt8 || c = '\t'.toUInt8) = false := by
      rw [decide_eq_false (isdigit_ne hc (by decide)), decide_eq_false (isdigit_ne hc (by decide))]; rfl
    have hdrop : n.digits.dropWhile (fun c => c = ' '.toUInt8 || c = '\t'.toUInt8) = n.digits := by
      rw [hdigits]
      exact List.dropWhile_cons_of_neg (by rw [hblank]; exact Bool.false_ne_true)
    rw [numeralText, Option.elim_some, kAtoi, hdrop, htake, n.toInt_value]; rfl

end

/-! ### The dictionary -/

section
variable {c : UInt8} {item rest : List UInt8}

theorem isxdigit_not_space (h : isxdigit c = true) : isspace c = false := by
  simp only [isxdigit, isdigit, Bool.or_eq_true, decide_eq_true_eq] at h
  rw [isspace, decide_eq_false_iff_not]
  have hzero : '0'.toNat = 48 := rfl
  have hnine : '9'.toNat = 57 := rfl
  have ha : 'a'.toNat = 97 := rfl
  have hA : 'A'.toNat = 65 := rfl
  omega

/-- `%x` reads digits alone. -/
theorem kSscanfHex_digits {hex : List UInt8} (hne : hex ≠ []) (h : ∀ c ∈ hex, isxdigit c = true) :
    kSscanfHex hex = some (xdigitsVal hex % 2 ^ 32) := by
  obtain ⟨c, tail, hcons⟩ := List.exists_cons_of_ne_nil hne
  have hc : isxdigit c = true := h c (hcons ▸ List.mem_cons_self)
  have hspaces : hex.dropWhile isspace = hex := by
    rw [hcons]
    exact List.dropWhile_cons_of_neg (by rw [isxdigit_not_space hc]; exact Bool.false_ne_true)
  have hhead : hex.head?.any isxdigit = true := by rw [hcons]; exact hc
  have hmark {x : UInt8} (hx : isxdigit x = false) {s : List UInt8} (hs : x ∈ s) : hex.take 2 ≠ s := fun heq =>
    Bool.false_ne_true (hx.symm.trans (h x (List.mem_of_mem_take (heq ▸ hs))))
  have hnot : ¬(hex.take 2 = str "0x" ∨ hex.take 2 = str "0X") :=
    not_or.2 ⟨@hmark 'x'.toUInt8 (by decide) _ (by decide), @hmark 'X'.toUInt8 (by decide) _ (by decide)⟩
  have htake : hex.takeWhile isxdigit = hex := List.takeWhile_eq_self_iff.2 h
  rw [kSscanfHex, hspaces, hhead, if_neg (by decide)]
  simp only [if_neg hnot, htake]

namespace DictEntry
variable (e : DictEntry)

theorem kSscanfInt_text : kSscanfInt e.text = some (e.pos, colon :: e.hex) := by
  have hstop (c : UInt8) (h : (colon :: e.hex).head? = some c) : isdigit c = false := by
    rw [← Option.some.inj h]; decide
  rw [text, entryText, pos]
  split
  · exact e.index.kSscanfInt_negative hstop
  · exact e.index.kSscanfInt_digits hstop

theorem kSscanfPos_text (index : ℤ) (value : ℕ) :
    kSscanfPos e.text index value = (2, e.pos, xdigitsVal e.hex % 2 ^ 32) := by
  have hcolon : (colon :: e.hex).head? = some ':'.toUInt8 := rfl
  rw [kSscanfPos, e.kSscanfInt_text]
  simp only [hcolon, ne_eq, not_true_eq_false, if_false, List.drop_one, List.tail_cons,
    kSscanfHex_digits e.hex_ne_nil e.hex_digits]

theorem info_eq : (⟨e.pos, UInt8.ofNat (xdigitsVal e.hex % 2 ^ 32)⟩ : AfPosInfo) = e.info := by
  have hbyte : xdigitsVal e.hex % 2 ^ 32 % 2 ^ 8 = xdigitsVal e.hex % 2 ^ 8 := Nat.mod_mod_of_dvd _ (by decide)
  rw [info, ← UInt8.ofNat_mod_size (x := xdigitsVal e.hex % 2 ^ 32), hbyte, UInt8.ofNat_mod_size]

theorem isxdigit_or_of_mem (h : c ∈ e.text) : isxdigit c = true ∨ c = dash ∨ c = colon := by
  rw [text, entryText, List.mem_append, List.mem_append, List.mem_cons] at h
  rcases h with h | h | h | h
  · split at h
    · exact .inr (.inl (List.mem_singleton.1 h))
    · exact absurd h List.not_mem_nil
  · refine .inl ?_
    rw [isxdigit, e.index.isDigits c h]; rfl
  · exact .inr (.inr h)
  · exact .inl (e.hex_digits c h)

theorem noBar : bar ∉ e.text := fun h => by
  rcases e.isxdigit_or_of_mem h with h | h | h
  · exact absurd h (by decide)
  · exact absurd h (by decide)
  · exact absurd h (by decide)

theorem text_ne_nil : e.text ≠ [] := fun h => by
  rw [text, entryText, List.append_eq_nil_iff, List.append_eq_nil_iff] at h
  exact e.index.digits_ne h.2.1

end DictEntry

/-- A loop that collects the bytes other than `sep` collects a text without `sep`. -/
theorem collect_item {ρ : Type} {sep : UInt8} {loop : List UInt8 → List UInt8 → ρ}
    (hloop : ∀ c, c ≠ sep → ∀ item rest, loop item (c :: rest) = loop (item ++ [c]) rest) (h : sep ∉ item)
    (read : List UInt8) : loop read (item ++ rest) = loop (read ++ item) rest := by
  induction item generalizing read with
  | nil => rw [List.nil_append, List.append_nil]
  | cons c item ih =>
    rw [List.mem_cons, not_or] at h
    rw [List.cons_append, hloop c (Ne.symm h.1), ih h.2, List.append_assoc]; rfl

theorem posLoop_of_ne (hc : c ≠ bar) (index : ℤ) (value : ℕ) (posInfo : List AfPosInfo) :
    posLoop item (c :: rest) index value posInfo = posLoop (item ++ [c]) rest index value posInfo := if_pos hc

/-- An entry before a separator. -/
theorem posLoop_bar (e : DictEntry) (index : ℤ) (value : ℕ) {posInfo : List AfPosInfo}
    (hroom : posInfo.length + 1 < maxPosInfoPerFeature - 1) :
    posLoop e.text (bar :: rest) index value posInfo =
      posLoop [] rest e.pos (xdigitsVal e.hex % 2 ^ 32) (posInfo ++ [e.info]) := by
  have hlt : e.text.length < posBufLen := e.length_lt
  have hbreak : ¬ maxPosInfoPerFeature - 1 ≤ (posInfo ++ [e.info]).length := by
    rw [List.length_append, List.length_singleton, Nat.not_le]
    exact hroom
  have hbar : ¬ bar ≠ '|'.toUInt8 := not_not.2 rfl
  rw [posLoop]
  simp only [if_neg hbar, copyField, if_neg (Nat.not_lt.2 hlt.le), readField, if_pos hlt, Bind.bind, Except.bind,
    e.kSscanfPos_text, e.info_eq, if_neg hbreak]

theorem posLoop_item {index : ℤ} {value : ℕ} {posInfo : List AfPosInfo} (h : bar ∉ item) :
    posLoop [] (item ++ rest) index value posInfo = posLoop item rest index value posInfo :=
  @collect_item item rest _ bar (fun item rest => posLoop item rest index value posInfo)
    (fun _ hc _ _ => posLoop_of_ne hc index value posInfo) h []

/-- Every entry gives one position, in order. -/
theorem posLoop_joined {entries : List DictEntry} (hne : entries ≠ []) {index : ℤ} {value : ℕ}
    {posInfo : List AfPosInfo} (hlength : posInfo.length + entries.length < maxPosInfoPerFeature) :
    posLoop [] (joined (entries.map DictEntry.text)) index value posInfo =
      .ok (posInfo ++ entries.map DictEntry.info) := by
  induction entries generalizing index value posInfo with
  | nil => exact absurd rfl hne
  | cons e entries ih =>
    rw [List.length_cons] at hlength
    have hlt : e.text.length < posBufLen := e.length_lt
    cases entries with
    | nil =>
      have hitem := @posLoop_item e.text [] index value posInfo e.noBar
      rw [List.append_nil] at hitem
      rw [List.map_singleton, joined, hitem, posLoop, copyString, if_pos hlt]
      simp only [Bind.bind, Except.bind, e.kSscanfPos_text, if_true, e.info_eq]; rfl
    | cons next entries =>
      rw [List.length_cons] at hlength
      have hrest := @ih (List.cons_ne_nil _ _) e.pos (xdigitsVal e.hex % 2 ^ 32) (posInfo ++ [e.info]) (by
        rw [List.length_append, List.length_singleton, List.length_cons]
        omega)
      rw [List.append_assoc, List.singleton_append] at hrest
      rw [List.map_cons, List.map_cons, joined, posLoop_item e.noBar,
        posLoop_bar e index value (by rw [maxPosInfoPerFeature] at *; omega), ← List.map_cons, hrest]; rfl

theorem parseDict_text {entries : List DictEntry} (hlength : entries.length ≤ 14) :
    parseDict (joined (entries.map DictEntry.text)) = .ok (entries.map DictEntry.info) := by
  cases entries with
  | nil => rfl
  | cons e entries =>
    have hloop := @posLoop_joined (e :: entries) (List.cons_ne_nil _ _) 0 0 [] (by
      rw [List.length_nil, Nat.zero_add, maxPosInfoPerFeature]
      omega)
    obtain ⟨c, tail, hcons⟩ := List.exists_cons_of_ne_nil e.text_ne_nil
    have hc : c ≠ bar := fun heq => e.noBar (heq ▸ hcons ▸ List.mem_cons_self)
    obtain ⟨rest, htext⟩ : ∃ rest, joined ((e :: entries).map DictEntry.text) = c :: rest := by
      cases entries with
      | nil => exact ⟨tail, hcons⟩
      | cons next entries => exact ⟨_, congrArg (· ++ bar :: joined ((next :: entries).map DictEntry.text)) hcons⟩
    rw [htext, posLoop_of_ne hc] at hloop
    rw [htext, parseDict]
    exact hloop

end

end Oaf
