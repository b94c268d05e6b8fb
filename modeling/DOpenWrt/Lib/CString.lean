import Mathlib.Data.List.TakeWhile
import Mathlib.Tactic

/-!
# Strings of the C library

Strings are lists of bytes. What the modules below use of `string.h`, `strings.h`, `ctype.h` and `stdlib.h`, in the
C locale.
-/

namespace CString

/-- The bytes of a string literal. -/
def str (s : String) : List UInt8 := s.toList.map fun c => UInt8.ofNat c.toNat

/-- What a buffer holds as a C string: its bytes up to the first NUL. -/
def cstr (s : List UInt8) : List UInt8 := s.takeWhile (· ≠ 0)

def tolower (c : UInt8) : UInt8 :=
  if 'A'.toNat ≤ c.toNat ∧ c.toNat ≤ 'Z'.toNat then UInt8.ofNat (c.toNat + 32) else c

def isdigit (c : UInt8) : Bool := '0'.toNat ≤ c.toNat ∧ c.toNat ≤ '9'.toNat

def isspace (c : UInt8) : Bool := c.toNat = 32 ∨ 9 ≤ c.toNat ∧ c.toNat ≤ 13

/-- `*p == ' ' || *p == '\t'`. -/
def isBlank (c : UInt8) : Bool := c.toNat = ' '.toNat ∨ c.toNat = '\t'.toNat

/-- `strcasecmp(s, t) == 0`. -/
def eqIgnoreCase (s t : List UInt8) : Bool := s.map tolower = t.map tolower

/-- `strncasecmp(s, prefix, strlen(prefix)) == 0`. -/
def startsWithCase (p s : List UInt8) : Bool := eqIgnoreCase (s.take p.length) p

/-- `strcasestr`: where the needle first occurs. -/
def strcasestr (needle : List UInt8) : List UInt8 → Option Nat
  | [] => if needle = [] then some 0 else none
  | c :: s => if startsWithCase needle (c :: s) then some 0 else (strcasestr needle s).map (· + 1)

def digitsVal (digits : List UInt8) : Nat := digits.foldl (fun n c => n * 10 + (c.toNat - '0'.toNat)) 0

/-- `strtol(s, &end, 10)`: the number and the rest, none if there are no digits or the number does not fit a
`long`. -/
def strtol (s : List UInt8) : Option (Int × List UInt8) :=
  let s := s.dropWhile isspace
  let (negative, s) := match s with
    | c :: rest => if c.toNat = '-'.toNat then (true, rest) else if c.toNat = '+'.toNat then (false, rest) else (false, s)
    | [] => (false, [])
  let digits := s.takeWhile isdigit
  let value : Int := if negative then -digitsVal digits else digitsVal digits
  if digits = [] ∨ value < -2 ^ 63 ∨ 2 ^ 63 ≤ value then none else some (value, s.dropWhile isdigit)

theorem cstr_eq_self {s : List UInt8} (h : 0 ∉ s) : cstr s = s :=
  List.takeWhile_eq_self_iff.2 fun _ hx => decide_eq_true fun h0 => h (h0 ▸ hx)

theorem nul_not_mem_cstr (s : List UInt8) : 0 ∉ cstr s := fun h => by
  simpa using List.all_eq_true.1 List.all_takeWhile _ h

/-! ### Search -/

theorem startsWithCase_iff {p s : List UInt8} : startsWithCase p s = true ↔ p.map tolower <+: s.map tolower := by
  rw [startsWithCase, eqIgnoreCase, decide_eq_true_eq, List.prefix_iff_eq_take, List.length_map, List.map_take,
    eq_comm]

theorem eqIgnoreCase_congr {s t : List UInt8} (h : eqIgnoreCase s t = true) (u : List UInt8) :
    eqIgnoreCase s u = eqIgnoreCase t u := by
  rw [eqIgnoreCase, of_decide_eq_true h, eqIgnoreCase]

/-- The text contains the needle, whatever the case. -/
def ContainsCase (needle s : List UInt8) : Prop := needle.map tolower <:+: s.map tolower

instance ContainsCase.decidable (needle s : List UInt8) : Decidable (ContainsCase needle s) :=
  inferInstanceAs (Decidable (_ <:+: _))

theorem strcasestr_none {needle s : List UInt8} : strcasestr needle s = none ↔ ¬ ContainsCase needle s := by
  unfold ContainsCase
  induction s with
  | nil => simp [strcasestr]
  | cons c s ih =>
    rw [strcasestr, List.map_cons, List.infix_cons_iff, ← List.map_cons, ← startsWithCase_iff]
    split
    · next h => simp [h]
    · next h => simp [h, ih]

/-- Where it is found, and that it does not begin earlier. -/
theorem strcasestr_some {needle s : List UInt8} {i : Nat} (h : strcasestr needle s = some i) :
    i ≤ s.length ∧ startsWithCase needle (s.drop i) = true ∧
      ∀ j < i, startsWithCase needle (s.drop j) = false := by
  induction s generalizing i with
  | nil =>
    rw [strcasestr] at h
    split at h
    · next hnil =>
      cases h
      subst hnil
      exact ⟨Nat.le_refl _, rfl, nofun⟩
    · cases h
  | cons c s ih =>
    rw [strcasestr] at h
    split at h
    · next hc =>
      cases h
      exact ⟨Nat.zero_le _, hc, nofun⟩
    · next hc =>
      obtain ⟨j, hj, rfl⟩ := Option.map_eq_some_iff.1 h
      obtain ⟨hle, hat, hbefore⟩ := ih hj
      refine ⟨Nat.succ_le_succ hle, hat, fun k hk => ?_⟩
      cases k with
      | zero => simpa using hc
      | succ k => exact hbefore k (Nat.lt_of_succ_lt_succ hk)

/-- A needle without the byte `c` does not reach over it. -/
theorem infix_append_cons {α : Type*} {p a b : List α} {c : α} (hc : c ∉ p) :
    p <:+: a ++ c :: b ↔ p <:+: a ∨ p <:+: b := by
  induction a with
  | nil =>
    rw [List.nil_append, List.infix_cons_iff]
    constructor
    · rintro (hp | hp)
      · cases p with
        | nil => exact .inr (List.nil_infix)
        | cons x p =>
          obtain rfl := (List.cons_prefix_cons.1 hp).1
          exact absurd List.mem_cons_self hc
      · exact .inr hp
    · rintro (hp | hp)
      · obtain rfl := List.infix_nil.1 hp
        exact .inl List.nil_prefix
      · exact .inr hp
  | cons x a ih =>
    rw [List.cons_append, List.infix_cons_iff, List.infix_cons_iff, ih, or_assoc]
    refine or_congr_left' fun hb => ⟨fun hp => ?_, fun hp => ?_⟩
    · -- a prefix of the whole that lacks `c` ends before it
      obtain ⟨t, ht⟩ := hp
      rw [← List.cons_append] at ht
      rcases List.append_eq_append_iff.1 ht with ⟨as, has, -⟩ | ⟨cs, hcs, hrest⟩
      · exact ⟨as, has.symm⟩
      · cases cs with
        | nil => exact ⟨[], by simpa using hcs⟩
        | cons y cs =>
          obtain ⟨rfl, -⟩ := List.cons_eq_cons.1 hrest
          exact absurd (hcs ▸ List.mem_append_right _ List.mem_cons_self) hc
    · exact hp.trans (by rw [← List.cons_append]; exact List.prefix_append ..)

end CString
