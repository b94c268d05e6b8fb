import Mathlib.Tactic

/-!
# Parsers of a growing buffer

A parser reads what has arrived of its input and either is done, or needs more, or refuses. `PrefixParser` says that
more input changes nothing but the second of the three: an answer, and where it ends, are the same whatever follows.
-/

universe u

/-- The answer of a parser: the result with what is behind it, more input is needed, or a syntax error. -/
inductive Parsed (α β : Type u) where
  | done (result : β) (rest : List α)
  | short
  | bad

namespace Parsed

variable {α β γ : Type u}

/-- The answer when `t` follows the input. -/
def append (t : List α) : Parsed α β → Parsed α β
  | done b rest => done b (rest ++ t)
  | short => short
  | bad => bad

def andThen (f : β → List α → Parsed α γ) : Parsed α β → Parsed α γ
  | done b rest => f b rest
  | short => short
  | bad => bad

end Parsed

/-- A parser that does not look behind the end of what it reads. -/
structure PrefixParser (α β : Type u) where
  parse : List α → Parsed α β
  parse_append : ∀ s t, parse s = .short ∨ parse (s ++ t) = (parse s).append t

namespace PrefixParser

variable {α β γ : Type u} {p : PrefixParser α β} {s rest : List α} {b : β}

theorem parse_append_done (h : p.parse s = .done b rest) (t : List α) : p.parse (s ++ t) = .done b (rest ++ t) := by
  rcases p.parse_append s t with hs | ht
  · rw [h] at hs
    cases hs
  · rw [ht, h]
    rfl

/-- What the start of the input gives when the whole input has an answer. -/
theorem short_or_done {t : List α} (h : p.parse (s ++ t) = .done b rest) :
    p.parse s = .short ∨ ∃ r, p.parse s = .done b r ∧ rest = r ++ t := by
  rcases p.parse_append s t with hs | ht
  · exact .inl hs
  cases hs : p.parse s with
  | done b' r =>
    rw [h, hs] at ht
    cases ht
    exact .inr ⟨r, rfl, rfl⟩
  | short => exact .inl rfl
  | bad =>
    rw [h, hs] at ht
    cases ht

/-- A proper prefix of what an answer takes is too little. -/
theorem parse_short {t : List α} (h : p.parse (s ++ t) = .done b []) (ht : t ≠ []) : p.parse s = .short := by
  rcases short_or_done h with hs | ⟨r, -, hr⟩
  · exact hs
  · exact absurd (List.append_eq_nil_iff.1 hr.symm).2 ht

/-! ### Combinators -/

def pure (b : β) : PrefixParser α β where
  parse s := .done b s
  parse_append _ _ := .inr rfl

def fail : PrefixParser α β where
  parse _ := .bad
  parse_append _ _ := .inr rfl

def bind (p : PrefixParser α β) (f : β → PrefixParser α γ) : PrefixParser α γ where
  parse s := (p.parse s).andThen fun b rest => (f b).parse rest
  parse_append s t := by
    rcases p.parse_append s t with hs | ht
    · exact .inl (by rw [hs]; rfl)
    rw [ht]
    cases p.parse s with
    | done b rest => exact (f b).parse_append rest t
    | short => exact .inl rfl
    | bad => exact .inr rfl

instance monad : Monad (PrefixParser α) where
  pure := pure
  bind := bind

/-- The next element, which stays. -/
def peek : PrefixParser α α where
  parse
    | [] => .short
    | a :: s => .done a (a :: s)
  parse_append s t := by
    cases s with
    | nil => exact .inl rfl
    | cons a s => exact .inr rfl

def next : PrefixParser α α where
  parse
    | [] => .short
    | a :: s => .done a s
  parse_append s t := by
    cases s with
    | nil => exact .inl rfl
    | cons a s => exact .inr rfl

/-- At least `n` elements are there. -/
def atLeast (n : Nat) : PrefixParser α PUnit where
  parse s := if s.length < n then .short else .done ⟨⟩ s
  parse_append s t := by
    rw [List.length_append]
    split_ifs with h h' h'
    · exact .inl rfl
    · exact .inl rfl
    · omega
    · exact .inr rfl

def expect [DecidableEq α] (a : α) : PrefixParser α PUnit := do
  if (← next) = a then pure ⟨⟩ else fail

/-- The loop of `untilStop`. -/
def untilLoop (stop ok : α → Bool) : List α → Parsed α {l : List α // ∀ a ∈ l, ok a}
  | [] => .short
  | a :: s =>
    if stop a then .done ⟨[], fun _ h => absurd h List.not_mem_nil⟩ (a :: s)
    else if h : ok a then
      (untilLoop stop ok s).andThen fun l rest => .done ⟨a :: l.1, List.forall_mem_cons.2 ⟨h, l.2⟩⟩ rest
    else .bad

/-- The elements before the first that stops, all of which are allowed. -/
def untilStop (stop ok : α → Bool) : PrefixParser α {l : List α // ∀ a ∈ l, ok a} where
  parse := untilLoop stop ok
  parse_append s t := by
    induction s with
    | nil => exact .inl rfl
    | cons a s ih =>
      rw [List.cons_append, untilLoop, untilLoop]
      split_ifs with hstop hok
      · exact .inr rfl
      · rcases ih with hs | ht
        · exact .inl (by rw [hs]; rfl)
        · rw [ht]
          cases untilLoop stop ok s with
          | done l rest => exact .inr rfl
          | short => exact .inl rfl
          | bad => exact .inr rfl
      · exact .inr rfl

/-- Passes elements. -/
def skipWhile (skip : α → Bool) : PrefixParser α PUnit := do
  let _ ← untilStop (fun a => ¬ skip a) fun _ => true

end PrefixParser
