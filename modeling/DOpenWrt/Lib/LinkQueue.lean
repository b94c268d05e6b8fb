import Mathlib.Tactic

/-!
# Intrusive queues

The nodes of several queues are linked by one function `next`. `Links next p l q` says that the links from `p`
run through the nodes of `l` to `q`, and `IsQueue next head tail l` that `l` is the queue between the pointers
`head` and `tail`. A queue depends on the links of its own nodes only (`congr`), which is what lets queues share
`next`.
-/

namespace LinkQueue

variable {α : Type*} {next next' : α → Option α}

def Links (next : α → Option α) : Option α → List α → Option α → Prop
  | p, [], q => p = q
  | p, a :: l, q => p = some a ∧ Links next (next a) l q

theorem Links.congr {p q : Option α} {l : List α} (h : Links next p l q) (hl : ∀ a ∈ l, next' a = next a) :
    Links next' p l q := by
  induction l generalizing p with
  | nil => exact h
  | cons a l ih =>
    refine ⟨h.1, ?_⟩
    rw [hl a List.mem_cons_self]
    exact ih h.2 fun b hb => hl b (List.mem_cons_of_mem _ hb)

theorem links_append {p q : Option α} {l m : List α} :
    Links next p (l ++ m) q ↔ ∃ r, Links next p l r ∧ Links next r m q := by
  induction l generalizing p with
  | nil => simp [Links]
  | cons a l ih =>
    simp only [List.cons_append, Links, ih]
    constructor
    · rintro ⟨hp, r, hl, hm⟩
      exact ⟨r, ⟨hp, hl⟩, hm⟩
    · rintro ⟨r, ⟨hp, hl⟩, hm⟩
      exact ⟨hp, r, hl, hm⟩

theorem Links.head? {p : Option α} {l : List α} (h : Links next p l none) : p = l.head? := by
  cases l with
  | nil => exact h
  | cons a l => exact h.1

/-- The first `n` nodes from `p`. -/
def walk (next : α → Option α) : Nat → Option α → List α
  | 0, _ => []
  | _ + 1, none => []
  | n + 1, some a => a :: walk next n (next a)

theorem Links.walk {p : Option α} {l : List α} (h : Links next p l none) : walk next l.length p = l := by
  induction l generalizing p with
  | nil => rfl
  | cons a l ih =>
    rw [h.1, List.length_cons, LinkQueue.walk, ih h.2]

structure IsQueue (next : α → Option α) (head tail : Option α) (l : List α) : Prop where
  links : Links next head l none
  tail : tail = l.getLast?

namespace IsQueue

variable {head tail : Option α} {l : List α} {a b : α}

theorem nil : IsQueue next none none [] := ⟨rfl, rfl⟩

theorem congr (h : IsQueue next head tail l) (hl : ∀ a ∈ l, next' a = next a) : IsQueue next' head tail l :=
  ⟨h.links.congr hl, h.tail⟩

theorem head_eq (h : IsQueue next head tail l) : head = l.head? := h.links.head?

theorem walk (h : IsQueue next head tail l) : LinkQueue.walk next l.length head = l := h.links.walk

theorem pop (h : IsQueue next head tail (a :: l)) :
    IsQueue next (next a) (if (next a).isNone then none else tail) l := by
  have hl := h.links.2
  refine ⟨hl, ?_⟩
  rw [hl.head?, h.tail]
  cases l with
  | nil => rfl
  | cons b l => simp

variable [DecidableEq α]

/-- The links after `b` was appended behind `tail`. -/
def push (next : α → Option α) (tail : Option α) (b : α) : α → Option α :=
  match tail with
  | none => Function.update next b none
  | some t => Function.update (Function.update next b none) t (some b)

theorem push_of_ne {b : α} (hb : a ≠ b) (ha : tail ≠ some a) : IsQueue.push next tail b a = next a := by
  unfold IsQueue.push
  split
  · exact Function.update_of_ne hb ..
  · next t =>
    have hat : a ≠ t := fun h => ha (h ▸ rfl)
    rw [Function.update_of_ne hat, Function.update_of_ne hb]

theorem append (h : IsQueue next head tail l) (hl : l.Nodup) (hb : b ∉ l) :
    IsQueue (push next tail b) (if tail.isNone then some b else head) (some b) (l ++ [b]) := by
  refine ⟨?_, by simp⟩
  rcases List.eq_nil_or_concat l with rfl | ⟨m, t, rfl⟩
  · rw [h.tail]
    exact ⟨rfl, Function.update_self ..⟩
  · have htail : tail = some t := by rw [h.tail, List.concat_eq_append, List.getLast?_concat]
    rw [List.concat_eq_append] at hl hb ⊢
    have hlinks := h.links
    rw [List.concat_eq_append, links_append] at hlinks
    obtain ⟨r, hm, hr, -⟩ := hlinks
    have htm : t ∉ m := fun ht => (List.nodup_append.1 hl).2.2 t ht t (by simp) rfl
    have hbt : b ≠ t := fun hbt => hb (by simp [hbt])
    subst htail
    rw [Option.isNone_some, if_neg Bool.false_ne_true, List.append_assoc, links_append]
    refine ⟨r, hm.congr fun a ha => push_of_ne ?_ ?_, hr, ?_, ?_⟩
    · exact fun hab => hb (by simp [← hab, ha])
    · exact fun hta => htm (Option.some.inj hta ▸ ha)
    · exact Function.update_self ..
    · show push next (some t) b b = none
      rw [push, Function.update_of_ne hbt, Function.update_self]

/-- The links after the node `b`, found behind `prev`, was taken out. -/
def unlink (next : α → Option α) (prev : Option α) (b : α) : α → Option α :=
  match prev with
  | none => next
  | some p => Function.update next p (next b)

theorem unlink_of_ne {prev : Option α} (ha : prev ≠ some a) : IsQueue.unlink next prev b a = next a := by
  cases prev with
  | none => rfl
  | some p =>
    have hap : a ≠ p := fun h => ha (h ▸ rfl)
    exact Function.update_of_ne hap ..

theorem remove {m : List α} (h : IsQueue next head tail (l ++ b :: m)) (hl : (l ++ b :: m).Nodup) :
    IsQueue (unlink next l.getLast? b) (if l.getLast?.isNone then next b else head)
      (if some b = tail then l.getLast? else tail) (l ++ m) := by
  obtain ⟨r, hlinks, hr, hm⟩ := links_append.1 h.links
  have hndl := List.nodup_append.1 hl
  have hlast : (if some b = tail then l.getLast? else tail) = (l ++ m).getLast? := by
    rw [h.tail, List.getLast?_append, List.getLast?_append]
    cases m using List.reverseRecOn with
    | nil => simp
    | append_singleton m c =>
      have hbc : b ≠ c := fun hbc => (List.nodup_cons.1 hndl.2.1).1 (by simp [hbc])
      rw [show b :: (m ++ [c]) = b :: m ++ [c] from rfl, List.getLast?_concat, List.getLast?_concat]
      simp [hbc]
  refine ⟨?_, hlast⟩
  rcases List.eq_nil_or_concat l with rfl | ⟨k, t, rfl⟩
  · exact hm
  · rw [List.concat_eq_append] at hlinks hndl ⊢
    obtain ⟨q, hk, hq, ht⟩ := links_append.1 hlinks
    have htk : t ∉ k := fun ht => (List.nodup_append.1 hndl.1).2.2 t ht t (by simp) rfl
    have htm : t ∉ m := fun ht => hndl.2.2 t (by simp) t (List.mem_cons_of_mem _ ht) rfl
    rw [List.getLast?_concat, Option.isNone_some, if_neg Bool.false_ne_true, List.append_assoc, links_append]
    refine ⟨q, hk.congr fun a ha => Function.update_of_ne (ne_of_mem_of_not_mem ha htk) .., hq, ?_⟩
    show Links _ (unlink next (some t) b t) m none
    rw [unlink, Function.update_self]
    exact hm.congr fun a ha => Function.update_of_ne (ne_of_mem_of_not_mem ha htm) ..

end IsQueue

end LinkQueue
