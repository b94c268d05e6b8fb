import Mathlib.Algebra.BigOperators.Group.Finset.Basic
import Mathlib.Tactic

/-!
# What keyed observations gain

Observations of many keys in one list. A key gains something from each of its observations to the next; what the keys of
a set gain together changes by one gain with each observation of one of them.
-/

namespace KeyedGrowth

variable {κ β : Type*}

/-- The gains between neighbours. -/
def growth (gain : β → β → ℕ) : List β → ℕ
  | a :: b :: l => gain a b + growth gain (b :: l)
  | _ => 0

/-- From the last observation to `b`. -/
def gainTo (gain : β → β → ℕ) (l : List β) (b : β) : ℕ := l.getLast?.elim 0 fun a => gain a b

variable {gain : β → β → ℕ}

theorem growth_concat (l : List β) (b : β) : growth gain (l ++ [b]) = growth gain l + gainTo gain l b := by
  induction l with
  | nil => rfl
  | cons a l ih =>
    cases l with
    | nil => simp [growth, gainTo]
    | cons c l =>
      have hlast : gainTo gain (a :: c :: l) b = gainTo gain (c :: l) b := by
        rw [gainTo, gainTo, List.getLast?_cons_cons]
      rw [hlast]
      calc growth gain (a :: c :: l ++ [b]) = gain a c + growth gain (c :: l ++ [b]) := rfl
        _ = gain a c + (growth gain (c :: l) + gainTo gain (c :: l) b) := by rw [ih]
        _ = growth gain (a :: c :: l) + gainTo gain (c :: l) b := by rw [growth, Nat.add_assoc]

theorem growth_of_length_le (l : List β) (h : l.length ≤ 1) : growth gain l = 0 := by
  cases l with
  | nil => rfl
  | cons a l =>
    obtain rfl := List.length_eq_zero_iff.1 (Nat.le_zero.1 (Nat.le_of_succ_le_succ h))
    rfl

/-- Where every gain is the growth of a measure, they telescope. -/
theorem growth_add_of_isChain {R S : β → β → Prop} {measure : β → ℕ}
    (hgain : ∀ x y, R x y → S x y → gain x y + measure x = measure y) {a : β} {l : List β} (hR : (a :: l).IsChain R)
    (hS : (a :: l).IsChain S) :
    growth gain (a :: l) + measure a = measure ((a :: l).getLast (List.cons_ne_nil a l)) := by
  induction l generalizing a with
  | nil => simp [growth]
  | cons b l ih =>
    obtain ⟨hRab, hR⟩ := List.isChain_cons_cons.1 hR
    obtain ⟨hSab, hS⟩ := List.isChain_cons_cons.1 hS
    rw [List.getLast_cons (List.cons_ne_nil b l), ← ih hR hS, growth, ← hgain a b hRab hSab]
    omega

section Keys

variable [DecidableEq κ]

/-- The observations of a key. -/
def seen (key : κ) (events : List (κ × β)) : List β := (events.filter fun event => event.1 = key).map Prod.snd

theorem seen_append (key : κ) (events more : List (κ × β)) :
    seen key (events ++ more) = seen key events ++ seen key more := by
  rw [seen, List.filter_append, List.map_append]
  rfl

theorem seen_concat_self (events : List (κ × β)) (key : κ) (b : β) :
    seen key (events ++ [(key, b)]) = seen key events ++ [b] := by
  rw [seen_append]
  simp [seen]

theorem seen_concat_other {key key' : κ} (h : key ≠ key') (events : List (κ × β)) (b : β) :
    seen key' (events ++ [(key, b)]) = seen key' events := by
  rw [seen_append]
  simp [seen, h]

theorem seen_eq_nil {key : κ} {events : List (κ × β)} (h : key ∉ events.map Prod.fst) : seen key events = [] := by
  rw [seen, List.map_eq_nil_iff, List.filter_eq_nil_iff]
  rintro event hevent hkey
  exact h (List.mem_map.2 ⟨event, hevent, of_decide_eq_true hkey⟩)

theorem length_seen_le {key : κ} {events : List (κ × β)} (h : (events.map Prod.fst).Nodup) :
    (seen key events).length ≤ 1 := by
  have hcount : (seen key events).length = (events.map Prod.fst).count key := by
    rw [seen, List.length_map, ← List.countP_eq_length_filter, List.count, List.countP_map]
    exact List.countP_congr fun event _ => by simp
  rw [hcount]
  exact List.nodup_iff_count_le_one.1 h key

/-- What the keys of a set gain together. -/
def totalGrowth (gain : β → β → ℕ) (keys : Finset κ) (events : List (κ × β)) : ℕ :=
  ∑ key ∈ keys, growth gain (seen key events)

theorem totalGrowth_concat_mem {keys : Finset κ} {key : κ} (h : key ∈ keys) (events : List (κ × β)) (b : β) :
    totalGrowth gain keys (events ++ [(key, b)]) = totalGrowth gain keys events + gainTo gain (seen key events) b := by
  have hother : ∑ k ∈ keys.erase key, growth gain (seen k (events ++ [(key, b)])) =
      ∑ k ∈ keys.erase key, growth gain (seen k events) :=
    Finset.sum_congr rfl fun k hk => by rw [seen_concat_other (Finset.ne_of_mem_erase hk).symm]
  rw [totalGrowth, totalGrowth, ← Finset.add_sum_erase _ _ h, ← Finset.add_sum_erase (a := key) keys _ h, hother,
    seen_concat_self, growth_concat]
  omega

theorem totalGrowth_concat_not_mem {keys : Finset κ} {key : κ} (h : key ∉ keys) (events : List (κ × β)) (b : β) :
    totalGrowth gain keys (events ++ [(key, b)]) = totalGrowth gain keys events :=
  Finset.sum_congr rfl fun k hk => by
    have hne : key ≠ k := fun heq => h (heq ▸ hk)
    rw [seen_concat_other hne]

theorem totalGrowth_of_nodup (keys : Finset κ) {events : List (κ × β)} (h : (events.map Prod.fst).Nodup) :
    totalGrowth gain keys events = 0 :=
  Finset.sum_eq_zero fun _ _ => growth_of_length_le _ (length_seen_le h)

end Keys

end KeyedGrowth
