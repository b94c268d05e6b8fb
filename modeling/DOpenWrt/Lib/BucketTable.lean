import Mathlib.Tactic

/-!
# Bucket tables

A table of buckets with a hash function. New values go to the front of their bucket; a lookup scans one bucket. What
is found is what was added since the table was last empty.
-/

namespace BucketTable

variable {α ι : Type*} [DecidableEq α] {hash : α → ι} {t : ι → List α} {a b : α}

def add [DecidableEq ι] (hash : α → ι) (t : ι → List α) (a : α) : ι → List α := Function.update t (hash a) (a :: t (hash a))

def find (hash : α → ι) (t : ι → List α) (a : α) : Option α := (t (hash a)).find? (· = a)

theorem find_isSome : (find hash t a).isSome ↔ a ∈ t (hash a) := by
  simp [find, List.find?_isSome]

theorem find_empty : find hash (fun _ => []) a = none := rfl

variable [DecidableEq ι]

theorem find_add : (find hash (add hash t a) b).isSome ↔ b = a ∨ (find hash t b).isSome := by
  simp only [find_isSome, add]
  rcases eq_or_ne (hash b) (hash a) with h | h
  · rw [h, Function.update_self, List.mem_cons]
  · rw [Function.update_of_ne h]
    exact (or_iff_right fun hba => h (congrArg hash hba)).symm

theorem find_foldl_add (as : List α) :
    (find hash (as.foldl (add hash) t) b).isSome ↔ b ∈ as ∨ (find hash t b).isSome := by
  induction as generalizing t with
  | nil => simp
  | cons a as ih => rw [List.foldl_cons, ih, find_add, List.mem_cons, ← or_assoc, or_comm (a := b ∈ as)]

end BucketTable
