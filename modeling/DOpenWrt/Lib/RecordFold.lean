import Mathlib.Tactic

/-!
# Records in a list

A list falls into records: each begins with a head and goes up to the next one; what stands before the first head
belongs to none. A loop that keeps the record it is in, and adds it to its result at the next head, folds over the
records.
-/

namespace RecordFold

variable {α σ ω : Type*} {isHead : α → Bool}

/-- What stands before the first head, and the records as heads with their lines. -/
def split (isHead : α → Bool) : List α → List α × List (α × List α)
  | [] => ([], [])
  | line :: rest =>
    if isHead line then ([], (line, (split isHead rest).1) :: (split isHead rest).2)
    else (line :: (split isHead rest).1, (split isHead rest).2)

def records (isHead : α → Bool) (lines : List α) : List (α × List α) := (split isHead lines).2

section
variable {line head : α} {lines body behind : List α}

theorem split_head (h : isHead head = true) (rest : List α) :
    split isHead (head :: rest) = ([], (head, (split isHead rest).1) :: (split isHead rest).2) := by
  rw [split, if_pos h]

theorem split_line (h : isHead line = false) (rest : List α) :
    split isHead (line :: rest) = (line :: (split isHead rest).1, (split isHead rest).2) := by
  rw [split, if_neg (h ▸ Bool.false_ne_true)]

theorem split_body (h : ∀ line ∈ body, isHead line = false) (rest : List α) :
    split isHead (body ++ rest) = (body ++ (split isHead rest).1, (split isHead rest).2) := by
  induction body with
  | nil => rfl
  | cons line body ih =>
    obtain ⟨hline, hbody⟩ := List.forall_mem_cons.1 h
    rw [List.cons_append, split_line hline, ih hbody]; rfl

/-- Nothing before a head belongs to a record behind it. -/
theorem split_append_head (h : isHead head = true) (lines rest : List α) :
    split isHead (lines ++ head :: rest) =
      ((split isHead lines).1, (split isHead lines).2 ++ (split isHead (head :: rest)).2) := by
  induction lines with
  | nil => rw [List.nil_append, split_head h]; rfl
  | cons line lines ih =>
    rw [List.cons_append]
    cases hline : isHead line with
    | true => rw [split_head hline, split_head hline, ih]; rfl
    | false => rw [split_line hline, split_line hline, ih]

/-- What follows a record begins with a head, or there is nothing. -/
def StartsWithHead (isHead : α → Bool) (lines : List α) : Prop := ∀ line ∈ lines.head?, isHead line = true

/-- One record among others: it can be replaced without a change to them. -/
theorem records_record (h : isHead head = true) (hbody : ∀ line ∈ body, isHead line = false)
    (hbehind : StartsWithHead isHead behind) (lines : List α) :
    records isHead (lines ++ head :: body ++ behind) =
      records isHead lines ++ (head, body) :: records isHead behind := by
  have hnone : (split isHead behind).1 = [] := by
    cases behind with
    | nil => rfl
    | cons next behind => rw [split_head (hbehind next rfl)]
  rw [records, List.append_assoc, List.cons_append, split_append_head h, split_head h, split_body hbody, hnone,
    List.append_nil]; rfl

theorem length_records_le (isHead : α → Bool) (lines : List α) : (records isHead lines).length ≤ lines.length := by
  induction lines with
  | nil => exact Nat.le_refl _
  | cons line lines ih =>
    rw [records] at ih
    cases hline : isHead line with
    | true =>
      rw [records, split_head hline]
      exact Nat.succ_le_succ ih
    | false =>
      rw [records, split_line hline]
      exact ih.trans (Nat.le_succ _)

end

/-! ### The loop -/

/-- The steps of a loop over records. -/
structure Loop (α σ ω : Type*) where
  start : α → σ
  more : σ → α → σ
  flush : σ → ω → ω

/-- A line goes into the record, a head ends it and starts the next. -/
def Loop.step (loop : Loop α σ ω) (isHead : α → Bool) (s : σ × ω) (line : α) : σ × ω :=
  if isHead line then (loop.start line, loop.flush s.1 s.2) else (loop.more s.1 line, s.2)

def Loop.record (loop : Loop α σ ω) (record : α × List α) : σ := record.2.foldl loop.more (loop.start record.1)

/-- The loop adds what stands before the first head, and then each record. -/
theorem Loop.foldl_step (loop : Loop α σ ω) (lines : List α) (s : σ) (out : ω) :
    loop.flush (lines.foldl (loop.step isHead) (s, out)).1 (lines.foldl (loop.step isHead) (s, out)).2 =
      (records isHead lines).foldl (fun out record => loop.flush (loop.record record) out)
        (loop.flush ((split isHead lines).1.foldl loop.more s) out) := by
  induction lines generalizing s out with
  | nil => rfl
  | cons line lines ih =>
    rw [List.foldl_cons, Loop.step, records]
    cases hline : isHead line with
    | true => rw [if_pos rfl, ih, split_head hline]; rfl
    | false => rw [if_neg Bool.false_ne_true, ih, split_line hline]; rfl

end RecordFold
