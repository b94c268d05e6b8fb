import DOpenWrt.Lib.CString

/-!
# Regular expressions of the kernel module

`regexp.c`: a pattern is compiled into a list of nodes, which the matchers interpret with backtracking. Memory comes
from `kmalloc` as it is: `fresh k` is what the field `ch` of the node allocated as number `k` held before. Allocations
succeed, and characters are unsigned.
-/

namespace Oaf

inductive NodeType
  | char
  | dot
  | begin
  | end'
  | star
  | plus
  | ques
  | list
  deriving DecidableEq

structure Re where
  type : NodeType
  ch : ℤ
  ccl : List UInt8
  nccl : Bool
  deriving DecidableEq

/-- An access outside the pattern or a buffer. -/
inductive RegexpFault
  | read
  | write
  deriving DecidableEq

/-- What a character is compared with, by its name. -/
def chr (c : Char) : UInt8 := UInt8.ofNat c.toNat

/-! ### Compilation -/

/-- `creat_list`: the characters from `start` to `stop`. -/
def creatList (start stop : ℕ) : List UInt8 := (List.range (stop + 1 - start)).map fun i => UInt8.ofNat (start + i)

/-- The size of the buffer of a bracket list. -/
def cclSize : ℕ := 256

/-- The loop over a bracket list, with the character before the position and the list so far: the list and the rest
of the pattern, none if `err_flag` is set. A list that is not closed is noticed at the NUL, and the outer loop then
reads on behind it. -/
def listBody : List UInt8 → UInt8 → List UInt8 → Except RegexpFault (Option (List UInt8 × List UInt8))
  | [], _, _ => .error .read
  | c :: cs, prev, ccl =>
    if c = chr ']' then if ccl.length < cclSize then .ok (some (ccl, cs)) else .error .write
    else if c ≠ chr '-' then if ccl.length < cclSize then listBody cs c (ccl ++ [c]) else .error .write
    else if ccl = [] then .ok none
    else
      match cs with
      | [] => .error .read
      | b :: cs =>
        if b = chr ']' then if ccl.length < cclSize then .ok none else .error .write
        else if prev.toNat ≤ b.toNat then
          if ccl.length + (b.toNat - prev.toNat) ≤ cclSize then
            listBody cs b (ccl ++ creatList (prev.toNat + 1) b.toNat)
          else .error .write
        -- the count of a descending range is negative and moves `pstr` back
        else if prev.toNat - b.toNat ≤ ccl.length then
          listBody cs b (ccl.take (ccl.length - (prev.toNat - b.toNat)))
        else .error .write

theorem listBody_length {cs : List UInt8} {prev : UInt8} {ccl ccl' rest : List UInt8}
    (h : listBody cs prev ccl = .ok (some (ccl', rest))) : rest.length < cs.length := by
  fun_induction listBody cs prev ccl with
  | case1 => cases h
  | case2 =>
    cases h
    simp
  | case3 => cases h
  | case4 c cs prev ccl _ _ _ ih =>
    have := ih h
    simp only [List.length_cons]
    omega
  | case5 => cases h
  | case6 => cases h
  | case7 => cases h
  | case8 => cases h
  | case9 => cases h
  | case10 c prev ccl _ _ _ b cs _ _ _ ih =>
    have := ih h
    simp only [List.length_cons]
    omega
  | case11 => cases h
  | case12 c prev ccl _ _ _ b cs _ _ _ ih =>
    have := ih h
    simp only [List.length_cons]
    omega
  | case13 => cases h

/-- Whether a bracket list is negated, and its body. -/
def listStart : List UInt8 → Bool × List UInt8
  | [] => (false, [])
  | c :: cs => if c = chr '^' then (true, cs) else (false, c :: cs)

theorem listStart_length (cs : List UInt8) : (listStart cs).2.length ≤ cs.length := by
  cases cs with
  | nil => exact le_rfl
  | cons c cs =>
    rw [listStart]
    split
    · exact Nat.le_succ _
    · exact le_rfl

section

variable (fresh : ℕ → ℤ)

/-- A node, number `k`, of a type for which `compile` sets neither list nor `ch`. -/
def plainNode (k : ℕ) (type : NodeType) : Re := ⟨type, fresh k, [], false⟩

def charNode (c : UInt8) : Re := ⟨.char, c.toNat, [], false⟩

def listNode (k : ℕ) (ccl : List UInt8) (nccl : Bool) : Re := ⟨.list, fresh k, ccl, nccl⟩

/-- The node before the nodes of the rest of the pattern. -/
def consNode (node : Re) (rest : Except RegexpFault (Option (List Re))) : Except RegexpFault (Option (List Re)) :=
  (·.map (node :: ·)) <$> rest

/-- `compile` from the node number `k` on, none for the result NULL of a pattern in error. For `\d` and `\D` the NUL
is written to index 11 of a block of 11 bytes. -/
def compile (k : ℕ) : List UInt8 → Except RegexpFault (Option (List Re))
  | [] => .ok (some [])
  | c :: cs =>
    if c = chr '\\' then
      match cs with
      | [] => .error .read
      | e :: cs => if e = chr 'd' ∨ e = chr 'D' then .error .write else consNode (charNode e) (compile (k + 1) cs)
    else if c = chr '.' then consNode (plainNode fresh k .dot) (compile (k + 1) cs)
    else if c = chr '^' then consNode ⟨.begin, c.toNat, [], false⟩ (compile (k + 1) cs)
    else if c = chr '$' then consNode ⟨.end', c.toNat, [], false⟩ (compile (k + 1) cs)
    else if c = chr '*' then consNode (plainNode fresh k .star) (compile (k + 1) cs)
    else if c = chr '+' then consNode (plainNode fresh k .plus) (compile (k + 1) cs)
    else if c = chr '?' then consNode (plainNode fresh k .ques) (compile (k + 1) cs)
    else if c = chr '[' then
      match h : listBody (listStart cs).2 c [] with
      | .error e => .error e
      | .ok none => .ok none
      | .ok (some (ccl, rest)) => consNode (listNode fresh k ccl (listStart cs).1) (compile (k + 1) rest)
    else consNode (charNode c) (compile (k + 1) cs)
termination_by cs => cs.length
decreasing_by
  all_goals simp only [List.length_cons]
  all_goals try omega
  have hlt := listBody_length h
  have hle := listStart_length cs
  omega

end

/-! ### Compilation of one construct -/

theorem listBody_char {c : UInt8} (h : c ≠ chr '-' ∧ c ≠ chr ']') (cs : List UInt8) (prev : UInt8) (ccl : List UInt8) :
    listBody (c :: cs) prev ccl = if ccl.length < cclSize then listBody cs c (ccl ++ [c]) else .error .write := by
  rw [listBody.eq_def]
  simp only [ne_eq, h.1, h.2, not_false_eq_true, if_true, if_false]

theorem listBody_close (cs : List UInt8) (prev : UInt8) (ccl : List UInt8) :
    listBody (chr ']' :: cs) prev ccl = if ccl.length < cclSize then .ok (some (ccl, cs)) else .error .write := by
  rw [listBody.eq_def]
  simp only [if_true]

theorem listBody_range {a b : UInt8} (hb : b ≠ chr ']') (hab : a ≤ b) (cs ccl : List UInt8) (hccl : ccl ≠ []) :
    listBody (chr '-' :: b :: cs) a ccl =
      if ccl.length + (b.toNat - a.toNat) ≤ cclSize then listBody cs b (ccl ++ creatList (a.toNat + 1) b.toNat)
      else .error .write := by
  have h1 : chr '-' ≠ chr ']' := by decide
  rw [listBody.eq_def]
  simp only [ne_eq, h1, not_true_eq_false, if_false, hccl, hb, UInt8.le_iff_toNat_le.1 hab, if_true]

section

variable {fresh : ℕ → ℤ} {k : ℕ} (cs : List UInt8)

/-- The characters that `compile` does not take as themselves. -/
def special : List Char := ['\\', '.', '^', '$', '*', '+', '?', '[']

theorem compile_char {c : UInt8} (h : c ∉ special.map chr) :
    compile fresh k (c :: cs) = consNode (charNode c) (compile fresh (k + 1) cs) := by
  simp only [special, List.map_cons, List.map_nil, List.mem_cons, List.not_mem_nil, or_false, not_or] at h
  obtain ⟨h1, h2, h3, h4, h5, h6, h7, h8⟩ := h
  rw [compile.eq_def]
  simp only [h1, h2, h3, h4, h5, h6, h7, h8, if_false]

theorem compile_esc (e : UInt8) : compile fresh k (chr '\\' :: e :: cs) =
    if e = chr 'd' ∨ e = chr 'D' then .error .write else consNode (charNode e) (compile fresh (k + 1) cs) := by
  rw [compile.eq_def]
  simp only [if_true]

theorem compile_dot : compile fresh k (chr '.' :: cs) = consNode (plainNode fresh k .dot) (compile fresh (k + 1) cs) := by
  rw [compile.eq_def]
  simp +decide only [if_true, if_false]

theorem compile_begin : compile fresh k (chr '^' :: cs) =
    consNode ⟨.begin, (chr '^').toNat, [], false⟩ (compile fresh (k + 1) cs) := by
  rw [compile.eq_def]
  simp +decide only [if_true, if_false]

theorem compile_end : compile fresh k (chr '$' :: cs) =
    consNode ⟨.end', (chr '$').toNat, [], false⟩ (compile fresh (k + 1) cs) := by
  rw [compile.eq_def]
  simp +decide only [if_true, if_false]

theorem compile_star : compile fresh k (chr '*' :: cs) =
    consNode (plainNode fresh k .star) (compile fresh (k + 1) cs) := by
  rw [compile.eq_def]
  simp +decide only [if_true, if_false]

theorem compile_plus : compile fresh k (chr '+' :: cs) =
    consNode (plainNode fresh k .plus) (compile fresh (k + 1) cs) := by
  rw [compile.eq_def]
  simp +decide only [if_true, if_false]

theorem compile_ques : compile fresh k (chr '?' :: cs) =
    consNode (plainNode fresh k .ques) (compile fresh (k + 1) cs) := by
  rw [compile.eq_def]
  simp +decide only [if_true, if_false]

theorem compile_list : compile fresh k (chr '[' :: cs) =
    match listBody (listStart cs).2 (chr '[') [] with
    | .error e => .error e
    | .ok none => .ok none
    | .ok (some (ccl, rest)) => consNode (listNode fresh k ccl (listStart cs).1) (compile fresh (k + 1) rest) := by
  rw [compile.eq_def]
  simp +decide only [if_true, if_false]
  split <;> simp_all

end

/-! ### Matching -/

def inList (c : UInt8) (r : Re) : Bool := if r.type ≠ .list then false else xor (r.ccl.contains c) r.nccl

/-- `MATCH_ONE` and `MATCH_ONE_P`. -/
def matchOne (r : Re) (c : UInt8) : Bool := r.type = .dot || inList c r || (c.toNat : ℤ) = r.ch

/-- `matchstar`; `next` is `matchhere` of the nodes that follow. -/
def matchstar (cur : Re) (next : List UInt8 → Bool) : List UInt8 → Bool
  | [] => next []
  | c :: text => next (c :: text) || matchOne cur c && matchstar cur next text

def matchplus (cur : Re) (next : List UInt8 → Bool) : List UInt8 → Bool
  | [] => false
  | c :: text => matchOne cur c && (next text || matchplus cur next text)

def matchques (cur : Re) (next : List UInt8 → Bool) : List UInt8 → Bool
  | [] => next []
  | c :: text => if matchOne cur c then next text || next (c :: text) else next (c :: text)

def matchnode (cur : Re) (next : List UInt8 → Bool) : List UInt8 → Bool
  | [] => false
  | c :: text => matchOne cur c && next text

/-- `matchhere` with the table `matchfun` for the shortest match. -/
def matchhere : List Re → List UInt8 → Bool
  | [], _ => true
  | [r], text => if r.type = .end' then text.isEmpty else matchnode r (fun _ => true) text
  | r :: q :: rest, text =>
    match q.type with
    | .star => matchstar r (matchhere rest) text
    | .plus => matchplus r (matchhere rest) text
    | .ques => matchques r (matchhere rest) text
    | _ => matchnode r (matchhere (q :: rest)) text

/-- The loop of `regexp_match` over the text. -/
def matchAnywhere (regexp : List Re) : List UInt8 → Bool
  | [] => matchhere regexp []
  | c :: text => matchhere regexp (c :: text) || matchAnywhere regexp text

def regexpMatch (fresh : ℕ → ℤ) (reg text : List UInt8) : Except RegexpFault ℤ := do
  match ← compile fresh 0 reg with
  | none => return -1
  | some [] => return -1
  | some (r :: rest) =>
    if r.type = .begin then return if matchhere rest text then 1 else 0
    else return if matchAnywhere (r :: rest) text then 1 else 0

end Oaf
