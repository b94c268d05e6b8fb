import Mathlib.Tactic

/-!
# Lines of a stream

A stream falls into lines, each with its end mark, the last one perhaps without. A buffered reader delivers the stream in
pieces of its own choice, none of them empty; reading up to an end mark gives the lines, however the pieces are cut.
-/

namespace LineStream

variable {α : Type*} [DecidableEq α]

/-- The lines of what follows `line`, which has no end mark. -/
def linesFrom (stop : α) : List α → List α → List (List α)
  | line, [] => if line = [] then [] else [line]
  | line, c :: rest => if c = stop then (line ++ [c]) :: linesFrom stop [] rest else linesFrom stop (line ++ [c]) rest

def lines (stop : α) (l : List α) : List (List α) := linesFrom stop [] l

/-- The stream ends where a line does. -/
def Ended (stop : α) (l : List α) : Prop := l = [] ∨ l.getLast? = some stop

section
variable {stop : α} {line item l rest : List α}

theorem linesFrom_item (h : stop ∉ item) : linesFrom stop line (item ++ rest) = linesFrom stop (line ++ item) rest := by
  induction item generalizing line with
  | nil => rw [List.nil_append, List.append_nil]
  | cons c item ih =>
    rw [List.mem_cons, not_or] at h
    rw [List.cons_append, linesFrom, if_neg (Ne.symm h.1), ih h.2, List.append_assoc]; rfl

/-- A line with its end mark. -/
theorem lines_line (h : stop ∉ item) (rest : List α) :
    lines stop (item ++ stop :: rest) = (item ++ [stop]) :: lines stop rest := by
  rw [lines, linesFrom_item h, List.nil_append, linesFrom, if_pos rfl]; rfl

theorem lines_nil (stop : α) : lines stop [] = [] := rfl

/-- A last line without. -/
theorem lines_last (h : stop ∉ l) (hne : l ≠ []) : lines stop l = [l] := by
  have hitem := @linesFrom_item α _ stop [] l [] h
  rw [List.append_nil, List.nil_append] at hitem
  rw [lines, hitem, linesFrom, if_neg hne]

theorem linesFrom_append (h : line = [] ∧ l = [] ∨ l.getLast? = some stop) :
    linesFrom stop line (l ++ rest) = linesFrom stop line l ++ lines stop rest := by
  induction l generalizing line with
  | nil =>
    rcases h with ⟨rfl, -⟩ | h
    · rfl
    · exact absurd h.symm (Option.some_ne_none stop)
  | cons c l ih =>
    have hlast : (c :: l).getLast? = some stop := h.resolve_left fun h => List.cons_ne_nil c l h.2
    rw [List.cons_append, linesFrom, linesFrom]
    cases l with
    | nil =>
      have hc : c = stop := Option.some.inj hlast
      rw [if_pos hc, if_pos hc]; rfl
    | cons d l =>
      rw [List.getLast?_cons_cons] at hlast
      split
      · rw [ih (.inr hlast)]; rfl
      · rw [ih (.inr hlast)]

/-- The lines before an end of a line and those after it. -/
theorem lines_append (h : Ended stop l) (rest : List α) : lines stop (l ++ rest) = lines stop l ++ lines stop rest :=
  linesFrom_append (h.imp (fun h => ⟨rfl, h⟩) id)

/-- What is put in front of the first line belongs to it. -/
theorem linesFrom_prefix (start : List α) {first : List α} {more : List (List α)}
    (h : linesFrom stop line l = first :: more) : linesFrom stop (start ++ line) l = (start ++ first) :: more := by
  induction l generalizing line with
  | nil =>
    rw [linesFrom] at h
    split at h
    · exact absurd h.symm (List.cons_ne_nil _ _)
    · next hne =>
      obtain ⟨rfl, rfl⟩ := List.cons.inj h
      rw [linesFrom, if_neg (List.append_ne_nil_of_right_ne_nil _ hne)]
  | cons c l ih =>
    rw [linesFrom] at h ⊢
    split at h
    · next hc =>
      obtain ⟨rfl, rfl⟩ := List.cons.inj h
      rw [if_pos hc, List.append_assoc]
    · next hc =>
      rw [if_neg hc, List.append_assoc]
      exact ih h

/-- Replacing a line by another changes that line only. -/
theorem lines_replace {before : List α} (hbefore : Ended stop before) (h : stop ∉ item) (behind : List α) :
    lines stop (before ++ item ++ stop :: behind) = lines stop before ++ (item ++ [stop]) :: lines stop behind := by
  rw [List.append_assoc, lines_append hbefore, lines_line h]

end

/-! ### Pieces -/

/-- The pieces after `n` elements of the first one. -/
def consume (piece : List α) (n : ℕ) (pieces : List (List α)) : List (List α) :=
  if piece.drop n = [] then pieces else piece.drop n :: pieces

/-- Reading up to an end mark: the line, and the pieces that are left. -/
def readUntil (stop : α) : List (List α) → List α × List (List α)
  | [] => ([], [])
  | piece :: pieces =>
    match piece.findIdx? (· = stop) with
    | some i => (piece.take (i + 1), consume piece (i + 1) pieces)
    | none =>
      let (line, rest) := readUntil stop pieces
      (piece ++ line, rest)

section
variable {stop : α} {pieces : List (List α)} {piece : List α}

omit [DecidableEq α] in
theorem flatten_consume (piece : List α) (n : ℕ) (pieces : List (List α)) :
    (consume piece n pieces).flatten = piece.drop n ++ pieces.flatten := by
  rw [consume]
  split
  · next h => rw [h, List.nil_append]
  · rw [List.flatten_cons]

omit [DecidableEq α] in
theorem ne_nil_consume (h : ∀ piece ∈ pieces, piece ≠ []) (n : ℕ) : ∀ p ∈ consume piece n pieces, p ≠ [] := by
  rw [consume]
  split
  · exact h
  · next hne => exact List.forall_mem_cons.2 ⟨hne, h⟩

theorem findIdx_some {i : ℕ} (h : piece.findIdx? (· = stop) = some i) :
    stop ∉ piece.take i ∧ piece = piece.take i ++ stop :: piece.drop (i + 1) := by
  obtain ⟨hlt, hstop, hbefore⟩ := List.findIdx?_eq_some_iff_getElem.1 h
  refine ⟨fun hmem => ?_, ?_⟩
  · obtain ⟨j, hj, hget⟩ := List.mem_iff_getElem.1 hmem
    rw [List.length_take] at hj
    rw [List.getElem_take] at hget
    exact absurd hget (by simpa using hbefore j (by omega))
  · conv_lhs => rw [← List.take_append_drop i piece]
    rw [List.drop_eq_getElem_cons hlt, of_decide_eq_true hstop]

theorem findIdx_none (h : piece.findIdx? (· = stop) = none) : stop ∉ piece := fun hmem => by
  rw [List.findIdx?_eq_none_iff] at h
  exact absurd (h stop hmem) (by simp)

/-- What is read is the first line, with the rest left for the next call. -/
structure IsFirst (stop : α) (l line rest : List α) : Prop where
  split : l = line ++ rest
  ne_nil : line ≠ []
  lines : lines stop l = line :: LineStream.lines stop rest

theorem readUntil_isFirst (h : ∀ piece ∈ pieces, piece ≠ []) (hne : pieces ≠ []) :
    IsFirst stop pieces.flatten (readUntil stop pieces).1 (readUntil stop pieces).2.flatten ∧
      ∀ piece ∈ (readUntil stop pieces).2, piece ≠ [] := by
  induction pieces with
  | nil => exact absurd rfl hne
  | cons piece pieces ih =>
    have hpiece := h piece List.mem_cons_self
    have hrest : ∀ piece ∈ pieces, piece ≠ [] := fun p hp => h p (List.mem_cons_of_mem _ hp)
    cases hfind : piece.findIdx? (· = stop) with
    | some i =>
      obtain ⟨hno, hsplit⟩ := findIdx_some hfind
      have hread : readUntil stop (piece :: pieces) = (piece.take (i + 1), consume piece (i + 1) pieces) := by
        rw [readUntil, hfind]
      have htake : piece.take (i + 1) = piece.take i ++ [stop] := by
        obtain ⟨hlt, hstop, -⟩ := List.findIdx?_eq_some_iff_getElem.1 hfind
        rw [List.take_add_one, List.getElem?_eq_getElem hlt, of_decide_eq_true hstop]; rfl
      have hline : lines stop (piece ++ pieces.flatten) =
          (piece.take i ++ [stop]) :: lines stop (piece.drop (i + 1) ++ pieces.flatten) := by
        conv_lhs => rw [hsplit, List.append_assoc, List.cons_append]
        exact lines_line hno _
      rw [hread, List.flatten_cons]
      refine ⟨⟨?_, ?_, ?_⟩, ne_nil_consume hrest _⟩
      · rw [flatten_consume, ← List.append_assoc, List.take_append_drop]
      · rw [htake]
        exact List.append_ne_nil_of_right_ne_nil _ (List.cons_ne_nil _ _)
      · rw [flatten_consume, htake, hline]
    | none =>
      have hno := findIdx_none hfind
      have hread : readUntil stop (piece :: pieces) =
          (piece ++ (readUntil stop pieces).1, (readUntil stop pieces).2) := by
        rw [readUntil, hfind]
      rw [hread, List.flatten_cons]
      cases pieces with
      | nil =>
        rw [readUntil, List.append_nil, List.flatten_nil, List.append_nil]
        exact ⟨⟨(List.append_nil piece).symm, hpiece, lines_last hno hpiece⟩, List.forall_mem_nil _⟩
      | cons next pieces =>
        obtain ⟨hfirst, hleft⟩ := ih hrest (List.cons_ne_nil _ _)
        refine ⟨⟨?_, List.append_ne_nil_of_left_ne_nil hpiece _, ?_⟩, hleft⟩
        · rw [List.append_assoc, ← hfirst.split]
        · have hprefix := linesFrom_prefix piece hfirst.lines
          rw [List.append_nil] at hprefix
          rw [lines, linesFrom_item hno, List.nil_append, hprefix]

end

end LineStream
