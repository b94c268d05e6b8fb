import DOpenWrt.Lanspeedd.RateWindow

/-!
# Shares and totals of a rate window

The rate of a client in one direction, `bpsAt`, and the total of a direction, as natural numbers. A map has fewer than
`2 ^ 64` entries, so no total saturates, and a share of a budget is never truncated.
-/

namespace Lanspeedd.RateWindow

open Std TreeTotal

def bpsAt (receive : Bool) (clients : RateMap) (key : String) : ℕ :=
  weightAt (fun value => (value.direction receive).toNat) clients key

def clientTotal (receive : Bool) (clients : RateMap) : ℕ :=
  total (fun value => (value.direction receive).toNat) clients

/-! ### Arithmetic -/

theorem toNat_lt (a : UInt64) : a.toNat < u64Limit := a.toNat_lt

theorem tryFromOr_toNat {n : ℕ} (h : n < u64Limit) (otherwise : UInt64) : (tryFromOr n otherwise).toNat = n := by
  rw [tryFromOr, if_pos h]
  exact UInt64.toNat_ofNat_of_lt h

theorem saturatingAdd64_toNat (a b : UInt64) : (saturatingAdd64 a b).toNat = min (a.toNat + b.toNat) (u64Limit - 1) := by
  rw [saturatingAdd64]
  by_cases h : a.toNat + b.toNat < u64Limit
  · rw [tryFromOr_toNat h]
    exact (Nat.min_eq_left (Nat.le_pred_of_lt h)).symm
  · rw [tryFromOr, if_neg h, Nat.min_eq_right (Nat.le_trans (Nat.sub_le ..) (Nat.le_of_not_lt h))]
    decide

theorem saturatingMul128_of_le {a b : ℕ} (ha : a ≤ u64Limit) (hb : b < u64Limit) : saturatingMul128 a b = a * b := by
  have hlt : a * b < u64Limit * u64Limit := Nat.mul_lt_mul_of_le_of_lt ha hb (by decide)
  have hmax : u64Limit * u64Limit = u128Max + 1 := by decide
  exact Nat.min_eq_left (by omega)

/-- A part `v` of a whole takes no more than the budget: the share neither saturates nor is truncated. -/
theorem share_toNat {v whole budget : ℕ} (hv : v < u64Limit) (hle : v ≤ whole) (hbudget : budget < u64Limit)
    (otherwise : UInt64) :
    (tryFromOr (saturatingMul128 v budget / whole) otherwise).toNat = v * budget / whole := by
  rw [saturatingMul128_of_le hv.le hbudget]
  have hshare : v * budget / whole ≤ budget := Nat.div_le_of_le_mul (Nat.mul_le_mul_right budget hle)
  exact tryFromOr_toNat (hshare.trans_lt hbudget) otherwise

/-! ### Rates of one client -/

namespace RateWindowValue

variable (receive : Bool) (bps : UInt64) (value : RateWindowValue)

@[simp] theorem direction_setDirection : (value.setDirection receive bps).direction receive = bps := by
  cases receive <;> rfl

@[simp] theorem direction_not_setDirection :
    (value.setDirection receive bps).direction (!receive) = value.direction (!receive) := by
  cases receive <;> rfl

@[simp] theorem direction_default : direction receive {} = 0 := by cases receive <;> rfl

theorem setDirection_direction : value.setDirection receive (value.direction receive) = value := by
  cases receive <;> rfl

end RateWindowValue

variable {receive : Bool} {clients fallback previous : RateMap} {key : String}

theorem bpsAt_of_some {value : RateWindowValue} (h : clients[key]? = some value) :
    bpsAt receive clients key = (value.direction receive).toNat := weightAt_of_some h

theorem bpsAt_of_none (h : clients[key]? = none) : bpsAt receive clients key = 0 := weightAt_of_none h

theorem bpsAt_eq_getD (receive : Bool) (clients : RateMap) (key : String) :
    bpsAt receive clients key = ((clients.getD key {}).direction receive).toNat := by
  rw [TreeMap.getD_eq_getD_getElem?]
  cases h : clients[key]? with
  | none => rw [bpsAt_of_none h, Option.getD_none, RateWindowValue.direction_default]; rfl
  | some value => rw [bpsAt_of_some h, Option.getD_some]

theorem bpsAt_lt (receive : Bool) (clients : RateMap) (key : String) : bpsAt receive clients key < u64Limit := by
  rw [bpsAt_eq_getD]
  exact toNat_lt _

theorem bpsAt_le_total : bpsAt receive clients key ≤ clientTotal receive clients := weightAt_le_total key

theorem clientTotal_lt (hsize : clients.size ≤ u64Limit) : clientTotal receive clients ≤ u128Max := by
  have hvalue (value : RateWindowValue) : (value.direction receive).toNat ≤ u64Limit - 1 :=
    Nat.le_pred_of_lt (toNat_lt _)
  have hmax : u64Limit * (u64Limit - 1) ≤ u128Max := by decide
  exact (total_le_size hvalue).trans ((Nat.mul_le_mul_right _ hsize).trans hmax)

theorem directionTotal_eq_min : directionTotal receive clients = min (clientTotal receive clients) u128Max :=
  foldl_saturating (fun value : RateWindowValue => (value.direction receive).toNat) clients u128Max

theorem directionTotal_eq (hsize : clients.size ≤ u64Limit) :
    directionTotal receive clients = clientTotal receive clients := by
  rw [directionTotal_eq_min, Nat.min_eq_left (clientTotal_lt hsize)]

/-! ### What the operations leave -/

theorem bpsAt_map (g : RateWindowValue → UInt64) :
    bpsAt receive (clients.map fun _ value => value.setDirection receive (g value)) key =
      (clients[key]?).elim 0 fun value => (g value).toNat := by
  rw [bpsAt, weightAt, TreeMap.getElem?_map]
  cases clients[key]? with
  | none => rfl
  | some value => exact congrArg UInt64.toNat (value.direction_setDirection receive _)

theorem bpsAt_not_map (g : RateWindowValue → UInt64) :
    bpsAt (!receive) (clients.map fun _ value => value.setDirection receive (g value)) key =
      bpsAt (!receive) clients key := by
  rw [bpsAt, weightAt, TreeMap.getElem?_map, bpsAt, weightAt]
  cases clients[key]? with
  | none => rfl
  | some value => exact congrArg UInt64.toNat (value.direction_not_setDirection receive _)

theorem getElem?_updateEntry (f : RateWindowValue → RateWindowValue) (key' : String) :
    (updateEntry clients key f)[key']? = if key = key' then some (f (clients.getD key {})) else clients[key']? := by
  rw [updateEntry, TreeMap.getElem?_insert]
  simp only [Std.compare_eq_iff_eq]

/-! ### Giving rates to a list of clients -/

section
variable {assigned : UInt64 → UInt64} {l : List (String × UInt64)}

/-- One turn of the loop, without its flag. -/
def assignTo (receive : Bool) (assigned : UInt64 → UInt64) (clients : RateMap) (entry : String × UInt64) : RateMap :=
  (assignRate receive assigned (clients, false) entry).1

theorem foldl_assignRate (receive : Bool) (assigned : UInt64 → UInt64) (l : List (String × UInt64))
    (state : RateMap × Bool) : l.foldl (assignRate receive assigned) state =
      (l.foldl (assignTo receive assigned) state.1, state.2 || l.any fun entry => assigned entry.2 ≠ 0) := by
  induction l generalizing state with
  | nil => simp
  | cons entry l ih =>
    rw [List.foldl_cons, ih, List.foldl_cons, List.any_cons]
    by_cases h : assigned entry.2 = 0
    · simp [assignRate, assignTo, h]
    · simp [assignRate, assignTo, h]

theorem assignTo_updatesOwn : UpdatesOwn (assignTo receive assigned) fun bps old =>
    if assigned bps = 0 then old else some ((old.getD {}).setDirection receive (assigned bps)) where
  own clients entry := by
    by_cases h : assigned entry.2 = 0
    · simp [assignTo, assignRate, h]
    · simp [assignTo, assignRate, h, getElem?_updateEntry, TreeMap.getD_eq_getD_getElem?]
  other clients entry key hne := by
    by_cases h : assigned entry.2 = 0
    · simp [assignTo, assignRate, h]
    · simp [assignTo, assignRate, h, getElem?_updateEntry, Ne.symm hne]

/-- A client of the list gets its rate, or keeps what it had where that rate is zero. -/
theorem bpsAt_foldl_of_mem (hl : (l.map Prod.fst).Nodup) {bps : UInt64} (hmem : (key, bps) ∈ l) :
    bpsAt receive (l.foldl (assignTo receive assigned) clients) key =
      if assigned bps = 0 then bpsAt receive clients key else (assigned bps).toNat := by
  have hget := (@assignTo_updatesOwn receive assigned).foldl_of_mem hl hmem clients
  by_cases h : assigned bps = 0
  · rw [if_pos h] at hget ⊢
    rw [bpsAt, weightAt, hget]; rfl
  · rw [if_neg h] at hget ⊢
    rw [bpsAt_of_some hget, RateWindowValue.direction_setDirection]

theorem bpsAt_foldl_of_not_mem (hkey : key ∉ l.map Prod.fst) :
    bpsAt receive (l.foldl (assignTo receive assigned) clients) key = bpsAt receive clients key := by
  rw [bpsAt, weightAt, assignTo_updatesOwn.foldl_of_not_mem hkey]; rfl

theorem bpsAt_not_assignTo (entry : String × UInt64) :
    bpsAt (!receive) (assignTo receive assigned clients entry) key = bpsAt (!receive) clients key := by
  by_cases h : assigned entry.2 = 0
  · simp [assignTo, assignRate, h]
  · by_cases hkey : entry.1 = key
    · simp [bpsAt_eq_getD, assignTo, assignRate, h, getElem?_updateEntry, TreeMap.getD_eq_getD_getElem?, hkey]
    · simp [bpsAt_eq_getD, assignTo, assignRate, h, getElem?_updateEntry, TreeMap.getD_eq_getD_getElem?, hkey]

theorem bpsAt_not_foldl (l : List (String × UInt64)) (clients : RateMap) :
    bpsAt (!receive) (l.foldl (assignTo receive assigned) clients) key = bpsAt (!receive) clients key := by
  induction l generalizing clients with
  | nil => rfl
  | cons entry l ih => rw [List.foldl_cons, ih, bpsAt_not_assignTo]

end

end Lanspeedd.RateWindow
