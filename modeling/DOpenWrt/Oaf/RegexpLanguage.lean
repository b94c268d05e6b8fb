import DOpenWrt.Lib.CharMatch
import DOpenWrt.Oaf.Regexp

/-!
# The language of a pattern

Patterns as syntax, the text that `compile` reads and the language they stand for. `compile_pattern`: a well-formed
pattern is compiled into its nodes, or written beyond a buffer.
-/

namespace Oaf
open CharMatch Computability

inductive ListItem
  | char (c : UInt8)
  | range (a b : UInt8)

inductive Atom
  | lit (c : UInt8)
  | dot
  | esc (c : UInt8)
  | digit
  | nondigit
  | list (neg : Bool) (items : List ListItem)

inductive Rep
  | once
  | star
  | plus
  | ques

structure Pattern where
  anchorBegin : Bool
  items : List (Atom × Rep)
  anchorEnd : Bool

/-! ### Text -/

def ListItem.text : ListItem → List UInt8
  | char c => [c]
  | range a b => [a, chr '-', b]

/-- The characters that `compile` lists for an item. -/
def ListItem.chars : ListItem → List UInt8
  | char c => [c]
  | range a b => a :: creatList (a.toNat + 1) b.toNat

/-- The characters that stand for themselves in a bracket list. -/
def ListItem.WellFormed : ListItem → Prop
  | char c => c ≠ 0 ∧ c ≠ chr '-' ∧ c ≠ chr ']'
  | range a b => (a ≠ 0 ∧ a ≠ chr '-' ∧ a ≠ chr ']') ∧ b ≠ 0 ∧ b ≠ chr ']' ∧ a ≤ b

namespace Atom

def text : Atom → List UInt8
  | lit c => [c]
  | dot => [chr '.']
  | esc c => [chr '\\', c]
  | digit => [chr '\\', chr 'd']
  | nondigit => [chr '\\', chr 'D']
  | list neg items => chr '[' :: ((if neg then [chr '^'] else []) ++ items.flatMap ListItem.text ++ [chr ']'])

def WellFormed : Atom → Prop
  | lit c => c ≠ 0 ∧ c ∉ special.map chr
  | esc c => c ≠ 0 ∧ c ≠ chr 'd' ∧ c ≠ chr 'D'
  | list neg items => (∀ i ∈ items, i.WellFormed) ∧ (neg = false → (items.flatMap ListItem.text).head? ≠ some (chr '^'))
  | _ => True

end Atom

def Rep.text : Rep → List UInt8
  | once => []
  | star => [chr '*']
  | plus => [chr '+']
  | ques => [chr '?']

namespace Pattern

def text (p : Pattern) : List UInt8 :=
  (if p.anchorBegin then [chr '^'] else []) ++ p.items.flatMap (fun i => i.1.text ++ i.2.text) ++
    (if p.anchorEnd then [chr '$'] else [])

def WellFormed (p : Pattern) : Prop := ∀ i ∈ p.items, i.1.WellFormed

end Pattern

/-! ### Language -/

def ListItem.accepts (c : UInt8) : ListItem → Prop
  | char c' => c = c'
  | range a b => a ≤ c ∧ c ≤ b

def isDigit (c : UInt8) : Prop := chr '0' ≤ c ∧ c ≤ chr '9'

namespace Atom

def accepts (c : UInt8) : Atom → Prop
  | lit c' => c = c'
  | dot => True
  | esc c' => c = c'
  | digit => isDigit c
  | nondigit => ¬ isDigit c
  | list neg items => if neg then ∀ i ∈ items, ¬ i.accepts c else ∃ i ∈ items, i.accepts c

def isList : Atom → Bool
  | digit => true
  | nondigit => true
  | list _ _ => true
  | _ => false

/-- What the node of an atom accepts where its memory held `stale`. -/
def acceptsStale (stale : ℤ) (c : UInt8) (a : Atom) : Prop := a.accepts c ∨ a.isList ∧ (c.toNat : ℤ) = stale

end Atom

def Rep.language (p : UInt8 → Prop) : Rep → Language UInt8
  | once => single p
  | star => (single p)∗
  | plus => single p * (single p)∗
  | ques => 1 + single p

/-- How many nodes a repetition adds. -/
def Rep.count : Rep → ℕ
  | once => 0
  | _ => 1

/-- The language of items whose atoms accept what `accepts` says of them and of the number of their node. -/
def itemsLanguage (accepts : ℕ → Atom → UInt8 → Prop) : ℕ → List (Atom × Rep) → Language UInt8
  | _, [] => 1
  | k, (a, r) :: rest => r.language (accepts k a) * itemsLanguage accepts (k + 1 + r.count) rest

namespace Pattern

/-- Some part of the text is in the language: at the start with `^`, at the end with `$`. -/
def FoundIn (p : Pattern) (l : Language UInt8) (text : List UInt8) : Prop :=
  ∃ u v w, text = u ++ v ++ w ∧ v ∈ l ∧ (p.anchorBegin → u = []) ∧ (p.anchorEnd → w = [])

def language (p : Pattern) : Language UInt8 := (p.items.map fun i => i.2.language fun c => i.1.accepts c).prod

def Matches (p : Pattern) (text : List UInt8) : Prop := p.FoundIn p.language text

/-- The language where each bracket list also accepts what its node held before. -/
def staleLanguage (p : Pattern) (fresh : ℕ → ℤ) : Language UInt8 :=
  itemsLanguage (fun k a c => a.acceptsStale (fresh k) c) (if p.anchorBegin then 1 else 0) p.items

end Pattern

/-- The atoms that are compiled inside their buffers. -/
def Atom.Fits : Atom → Prop
  | digit => False
  | nondigit => False
  | list _ items => (items.flatMap ListItem.chars).length < cclSize
  | _ => True

def Pattern.Fits (p : Pattern) : Prop := ∀ i ∈ p.items, i.1.Fits

/-! ### Compilation -/

theorem length_creatList (a b : ℕ) : (creatList a b).length = b + 1 - a := by simp [creatList]

theorem mem_creatList {a b c : UInt8} (h : a ≤ b) : c ∈ a :: creatList (a.toNat + 1) b.toNat ↔ a ≤ c ∧ c ≤ b := by
  rw [UInt8.le_iff_toNat_le] at h
  simp only [UInt8.le_iff_toNat_le, List.mem_cons, creatList, List.mem_map, List.mem_range]
  constructor
  · rintro (rfl | ⟨i, hi, rfl⟩)
    · exact ⟨le_rfl, h⟩
    · have := b.toNat_lt
      rw [UInt8.toNat_ofNat', Nat.mod_eq_of_lt (by omega)]
      omega
  · rintro ⟨hac, hcb⟩
    rcases eq_or_lt_of_le hac with heq | hlt
    · exact .inl (UInt8.toNat.inj heq).symm
    · refine .inr ⟨c.toNat - (a.toNat + 1), by omega, ?_⟩
      rw [Nat.add_sub_cancel' hlt, UInt8.ofNat_toNat]

/-- A well-formed bracket list is read to its end, and fits its buffer or is written beyond it. -/
theorem listBody_items (items : List ListItem) (h : ∀ i ∈ items, i.WellFormed) (prev : UInt8) (ccl rest : List UInt8) :
    listBody (items.flatMap ListItem.text ++ chr ']' :: rest) prev ccl =
      if ccl.length + (items.flatMap ListItem.chars).length < cclSize then
        .ok (some (ccl ++ items.flatMap ListItem.chars, rest))
      else .error .write := by
  induction items generalizing prev ccl with
  | nil =>
    simp only [List.flatMap_nil, List.nil_append, List.length_nil, Nat.add_zero, List.append_nil]
    rw [listBody_close]
  | cons i items ih =>
    have hi := h i (List.mem_cons_self ..)
    have ih := ih fun j hj => h j (List.mem_cons_of_mem _ hj)
    cases i with
    | char c =>
      simp only [List.flatMap_cons, ListItem.text, ListItem.chars, List.cons_append, List.nil_append, List.length_cons]
      rw [listBody_char hi.2]
      split
      · rw [ih]
        simp only [List.length_append, List.length_singleton, List.append_assoc, List.singleton_append]
        congr 2
        omega
      · rw [if_neg (by omega)]
    | range a b =>
      obtain ⟨ha, -, hb, hab⟩ := hi
      have hle := UInt8.le_iff_toNat_le.1 hab
      have hlen := length_creatList (a.toNat + 1) b.toNat
      simp only [List.flatMap_cons, ListItem.text, ListItem.chars, List.cons_append, List.nil_append, List.length_cons,
        List.length_append]
      rw [listBody_char ha.2]
      split
      · rw [listBody_range hb hab _ _ (by simp)]
        simp only [List.length_append, List.length_singleton]
        split
        · rw [ih]
          simp only [List.length_append, List.append_assoc, List.cons_append, List.nil_append, List.length_cons]
          congr 2
          omega
        · rw [if_neg (by rw [hlen]; omega)]
      · rw [if_neg (by omega)]

/-! ### Nodes -/

section

variable (fresh : ℕ → ℤ)

def Atom.node (k : ℕ) : Atom → Re
  | lit c => charNode c
  | dot => plainNode fresh k .dot
  | esc c => charNode c
  | digit => listNode fresh k (creatList 48 57) false
  | nondigit => listNode fresh k (creatList 48 57) true
  | list neg items => listNode fresh k (items.flatMap ListItem.chars) neg

def Rep.nodes (k : ℕ) : Rep → List Re
  | once => []
  | star => [plainNode fresh k .star]
  | plus => [plainNode fresh k .plus]
  | ques => [plainNode fresh k .ques]

def itemsNodes : ℕ → List (Atom × Rep) → List Re
  | _, [] => []
  | k, (a, r) :: rest => a.node fresh k :: (r.nodes fresh (k + 1) ++ itemsNodes (k + 1 + r.count) rest)

def endNodes (anchorEnd : Bool) : List Re := if anchorEnd then [⟨.end', (chr '$').toNat, [], false⟩] else []

def Pattern.nodes (p : Pattern) : List Re :=
  if p.anchorBegin then ⟨.begin, (chr '^').toNat, [], false⟩ :: (itemsNodes fresh 1 p.items ++ endNodes p.anchorEnd)
  else itemsNodes fresh 0 p.items ++ endNodes p.anchorEnd

end

section

variable (fresh : ℕ → ℤ) {k : ℕ}

/-- A well-formed atom becomes its node, or is written beyond its buffer. -/
theorem compile_atom {a : Atom} (h : a.WellFormed) (tail : List UInt8) :
    (a.Fits → compile fresh k (a.text ++ tail) = consNode (a.node fresh k) (compile fresh (k + 1) tail)) ∧
      (¬ a.Fits → compile fresh k (a.text ++ tail) = .error .write) := by
  cases a with
  | lit c => exact ⟨fun _ => compile_char tail h.2, fun hf => absurd trivial hf⟩
  | dot => exact ⟨fun _ => compile_dot tail, fun hf => absurd trivial hf⟩
  | esc c =>
    refine ⟨fun _ => ?_, fun hf => absurd trivial hf⟩
    obtain ⟨-, hd, hD⟩ := h
    exact (compile_esc tail c).trans (if_neg (not_or.2 ⟨hd, hD⟩))
  | digit => exact ⟨False.elim, fun _ => (compile_esc tail (chr 'd')).trans (if_pos (.inl rfl))⟩
  | nondigit => exact ⟨False.elim, fun _ => (compile_esc tail (chr 'D')).trans (if_pos (.inr rfl))⟩
  | list neg items =>
    obtain ⟨hitems, hhead⟩ := h
    have hstart : listStart (((if neg then [chr '^'] else []) ++ items.flatMap ListItem.text ++ [chr ']']) ++ tail) =
        (neg, items.flatMap ListItem.text ++ chr ']' :: tail) := by
      simp only [List.append_assoc, List.singleton_append]
      cases neg with
      | true => rfl
      | false =>
        have hne := hhead rfl
        cases htext : items.flatMap ListItem.text with
        | nil => rfl
        | cons c cs =>
          rw [htext] at hne
          exact if_neg fun h => hne (congrArg some h)
    have hbody := listBody_items items hitems (chr '[') [] tail
    rw [Atom.text, List.cons_append, compile_list, hstart, hbody, Atom.Fits]
    simp only [List.length_nil, Nat.zero_add, List.nil_append]
    refine ⟨fun hf => ?_, fun hf => ?_⟩
    · rw [if_pos hf]
      rfl
    · rw [if_neg hf]

theorem compile_rep (r : Rep) (tail : List UInt8) :
    compile fresh k (r.text ++ tail) = (·.map (r.nodes fresh k ++ ·)) <$> compile fresh (k + r.count) tail := by
  cases r with
  | once =>
    change compile fresh k tail = _
    simp [Rep.nodes, Rep.count]
  | star => exact compile_star tail
  | plus => exact compile_plus tail
  | ques => exact compile_ques tail

/-- Well-formed items become their nodes; the first that does not fit its buffer is written beyond it. -/
theorem compile_items {items : List (Atom × Rep)} (h : ∀ i ∈ items, i.1.WellFormed) (k : ℕ) (tail : List UInt8) :
    ((∀ i ∈ items, i.1.Fits) → ∃ k', compile fresh k (items.flatMap (fun i => i.1.text ++ i.2.text) ++ tail) =
        (·.map (itemsNodes fresh k items ++ ·)) <$> compile fresh k' tail) ∧
      ((¬ ∀ i ∈ items, i.1.Fits) →
        compile fresh k (items.flatMap (fun i => i.1.text ++ i.2.text) ++ tail) = .error .write) := by
  induction items generalizing k with
  | nil => exact ⟨fun _ => ⟨k, by simp [itemsNodes]⟩, fun hf => absurd (fun i hi => by cases hi) hf⟩
  | cons i items ih =>
    obtain ⟨a, r⟩ := i
    have ha : a.WellFormed := h (a, r) (List.mem_cons_self ..)
    obtain ⟨hfit, hnofit⟩ := ih (fun j hj => h j (List.mem_cons_of_mem _ hj)) (k + 1 + r.count)
    have hcat : ((a, r) :: items).flatMap (fun i => i.1.text ++ i.2.text) ++ tail =
        a.text ++ (r.text ++ (items.flatMap (fun i => i.1.text ++ i.2.text) ++ tail)) := by
      simp only [List.flatMap_cons, List.append_assoc]
    rw [hcat]
    obtain ⟨haf, hanf⟩ := compile_atom fresh ha
      (r.text ++ (items.flatMap (fun i => i.1.text ++ i.2.text) ++ tail))
    constructor
    · intro hall
      obtain ⟨k', hk'⟩ := hfit fun j hj => hall j (List.mem_cons_of_mem _ hj)
      refine ⟨k', ?_⟩
      rw [haf (hall (a, r) (List.mem_cons_self ..)), compile_rep, hk', consNode]
      cases compile fresh k' tail with
      | error e => rfl
      | ok nodes =>
        cases nodes with
        | none => rfl
        | some nodes => simp [itemsNodes]
    · intro hall
      by_cases hfa : a.Fits
      · have hrest : ¬ ∀ j ∈ items, j.1.Fits := fun hr => hall fun j hj => by
          rcases List.mem_cons.1 hj with rfl | hj
          · exact hfa
          · exact hr j hj
        rw [haf hfa, compile_rep, hnofit hrest]
        rfl
      · exact hanf hfa

theorem compile_endNodes (k : ℕ) (anchorEnd : Bool) :
    compile fresh k (if anchorEnd then [chr '$'] else []) = .ok (some (endNodes anchorEnd)) := by
  cases anchorEnd with
  | false => rw [if_neg Bool.false_ne_true, compile.eq_def]; rfl
  | true =>
    rw [if_pos rfl, compile_end, compile.eq_def]
    rfl

theorem compile_pattern {p : Pattern} (h : p.WellFormed) :
    (p.Fits → compile fresh 0 p.text = .ok (some (p.nodes fresh))) ∧
      (¬ p.Fits → compile fresh 0 p.text = .error .write) := by
  rw [Pattern.text, Pattern.nodes, List.append_assoc]
  cases p.anchorBegin with
  | false =>
    simp only [Bool.false_eq_true, if_false, List.nil_append]
    obtain ⟨hf, hnf⟩ := compile_items fresh h 0 (if p.anchorEnd then [chr '$'] else [])
    refine ⟨fun hfit => ?_, hnf⟩
    obtain ⟨k', hk'⟩ := hf hfit
    rw [hk', compile_endNodes]
    rfl
  | true =>
    simp only [if_true, List.singleton_append]
    obtain ⟨hf, hnf⟩ := compile_items fresh h 1 (if p.anchorEnd then [chr '$'] else [])
    rw [compile_begin]
    refine ⟨fun hfit => ?_, fun hfit => ?_⟩
    · obtain ⟨k', hk'⟩ := hf hfit
      rw [hk', compile_endNodes]
      rfl
    · rw [hnf hfit]
      rfl

end

end Oaf
