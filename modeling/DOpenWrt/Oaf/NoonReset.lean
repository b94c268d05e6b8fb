import DOpenWrt.Oaf.DynamicTime

/-!
# The reset at noon

`check_all_users_period_time` and `check_and_reset_today_active_time` of `appfilter_user.c`. The clock is read once for
each device; the static variables that remember the last reading are those of all devices.
-/

namespace Oaf

/-- `dev_node_t`, with the minutes in which its morning time has been set to 0 kept beside it. -/
structure DevNode where
  todayAmActiveTime : ℕ
  amResets : List ℕ

/-- The static variables of `check_and_reset_today_active_time`. -/
structure LastReset where
  lastResetHour : ℤ := -1
  lastResetMin : ℤ := -1

/-- `localtime` in a zone, which gives the minutes east of UTC in each minute of the clock. -/
def localHour (zone : ℕ → ℤ) (minute : ℕ) : ℤ := (minute + zone minute) / 60 % 24

def localMin (zone : ℕ → ℤ) (minute : ℕ) : ℤ := (minute + zone minute) % 60

def checkAndResetTodayActiveTime (zone : ℕ → ℤ) (now : ℕ) (last : LastReset) (node : DevNode) : LastReset × DevNode :=
  let currentHour := localHour zone (now / 60)
  let currentMin := localMin zone (now / 60)
  if currentHour = 12 ∧ currentMin = 0 then
    if last.lastResetHour ≠ 12 ∨ last.lastResetMin ≠ 0 then
      (⟨12, 0⟩, { node with todayAmActiveTime := 0, amResets := node.amResets ++ [now / 60] })
    else (last, node)
  else (⟨currentHour, currentMin⟩, node)

/-- The static variables, how often the clock has been read, and `dev_hash_table`. -/
structure UserTable where
  last : LastReset := {}
  readings : ℕ := 0
  devHashTable : List (List DevNode)

/-- The list of a bucket. -/
def checkBucket (zone : ℕ → ℤ) (clock : ℕ → ℕ) : LastReset → ℕ → List DevNode → LastReset × ℕ × List DevNode
  | last, readings, [] => (last, readings, [])
  | last, readings, node :: rest =>
    let (last, node) := checkAndResetTodayActiveTime zone (clock readings) last node
    let (last, readings, rest) := checkBucket zone clock last (readings + 1) rest
    (last, readings, node :: rest)

def checkBuckets (zone : ℕ → ℤ) (clock : ℕ → ℕ) :
    LastReset → ℕ → List (List DevNode) → LastReset × ℕ × List (List DevNode)
  | last, readings, [] => (last, readings, [])
  | last, readings, bucket :: rest =>
    let (last, readings, bucket) := checkBucket zone clock last readings bucket
    let (last, readings, rest) := checkBuckets zone clock last readings rest
    (last, readings, bucket :: rest)

def checkAllUsersPeriodTime (zone : ℕ → ℤ) (clock : ℕ → ℕ) (table : UserTable) : UserTable :=
  let (last, readings, devHashTable) := checkBuckets zone clock table.last table.readings table.devHashTable
  { last := last, readings := readings, devHashTable := devHashTable }

/-- The table after a number of calls. -/
def afterCalls (zone : ℕ → ℤ) (clock : ℕ → ℕ) (devHashTable : List (List DevNode)) : ℕ → UserTable
  | 0 => { devHashTable := devHashTable }
  | calls + 1 => checkAllUsersPeriodTime zone clock (afterCalls zone clock devHashTable calls)

def UserTable.devices (table : UserTable) : List DevNode := table.devHashTable.flatten

def Noon (zone : ℕ → ℤ) (minute : ℕ) : Prop := localHour zone minute = 12 ∧ localMin zone minute = 0

instance Noon.decidable (zone : ℕ → ℤ) (minute : ℕ) : Decidable (Noon zone minute) := inferInstanceAs (Decidable (_ ∧ _))

/-- All readings of this call are in the minute. -/
def MadeIn (clock : ℕ → ℕ) (devices call minute : ℕ) : Prop := ∀ i < devices, clock (call * devices + i) / 60 = minute

/-- Every device is reset in a noon minute by the end of each call made in it, at no other time, and only once. -/
structure NoonResetReaches (zone : ℕ → ℤ) (clock : ℕ → ℕ) (devHashTable : List (List DevNode)) : Prop where
  reaches : ∀ call minute, Noon zone minute → MadeIn clock devHashTable.flatten.length call minute →
    ∀ node ∈ (afterCalls zone clock devHashTable (call + 1)).devices, minute ∈ node.amResets
  once : ∀ calls, ∀ node ∈ (afterCalls zone clock devHashTable calls).devices, node.amResets.Nodup
  noon : ∀ calls, ∀ node ∈ (afterCalls zone clock devHashTable calls).devices, ∀ minute ∈ node.amResets, Noon zone minute

/-! ### One call -/

section
variable {zone : ℕ → ℤ} {clock : ℕ → ℕ}

/-- The reading of the clock with this number resets the device it is made for: it is at noon and the one before, for
whatever device, was not. -/
def Resets (zone : ℕ → ℤ) (clock : ℕ → ℕ) (reading : ℕ) : Prop :=
  Noon zone (clock reading / 60) ∧ ¬ (0 < reading ∧ Noon zone (clock (reading - 1) / 60))

/-- What the static variables hold. -/
def LastOf (zone : ℕ → ℤ) (clock : ℕ → ℕ) (readings : ℕ) (last : LastReset) : Prop :=
  (last.lastResetHour = 12 ∧ last.lastResetMin = 0) ↔ 0 < readings ∧ Noon zone (clock (readings - 1) / 60)

/-- The device after the reading with this number. -/
def ResetAt (zone : ℕ → ℤ) (clock : ℕ → ℕ) (reading : ℕ) (node node' : DevNode) : Prop :=
  (Resets zone clock reading ∧ node'.amResets = node.amResets ++ [clock reading / 60]) ∨
    (¬ Resets zone clock reading ∧ node'.amResets = node.amResets)

theorem checkAndReset_spec {last : LastReset} {readings : ℕ} (h : LastOf zone clock readings last) (node : DevNode) :
    LastOf zone clock (readings + 1) (checkAndResetTodayActiveTime zone (clock readings) last node).1 ∧
      ResetAt zone clock readings node (checkAndResetTodayActiveTime zone (clock readings) last node).2 := by
  have hnext : 0 < readings + 1 ∧ Noon zone (clock (readings + 1 - 1) / 60) ↔ Noon zone (clock readings / 60) :=
    and_iff_right (Nat.succ_pos readings)
  have hresets : Resets zone clock readings ↔
      Noon zone (clock readings / 60) ∧ ¬ (last.lastResetHour = 12 ∧ last.lastResetMin = 0) :=
    and_congr_right fun _ => (not_congr h).symm
  rw [checkAndResetTodayActiveTime, LastOf, hnext, ResetAt, hresets]
  split
  · next hnoon =>
    split
    · next hlast =>
      rw [← not_and_or] at hlast
      exact ⟨⟨fun _ => hnoon, fun _ => ⟨rfl, rfl⟩⟩, .inl ⟨⟨hnoon, hlast⟩, rfl⟩⟩
    · next hlast =>
      rw [← not_and_or, not_not] at hlast
      exact ⟨⟨fun _ => hnoon, fun _ => hlast⟩, .inr ⟨fun h => h.2 hlast, rfl⟩⟩
  · next hnoon => exact ⟨Iff.rfl, .inr ⟨fun h => hnoon h.1, rfl⟩⟩

/-- The devices before and after a walk that begins with this reading. -/
inductive Walked (zone : ℕ → ℤ) (clock : ℕ → ℕ) : ℕ → List DevNode → List DevNode → Prop
  | nil (readings : ℕ) : Walked zone clock readings [] []
  | cons {readings : ℕ} {node node' : DevNode} {rest rest' : List DevNode} (head : ResetAt zone clock readings node node')
      (tail : Walked zone clock (readings + 1) rest rest') : Walked zone clock readings (node :: rest) (node' :: rest')

theorem checkBucket_spec {last : LastReset} {readings : ℕ} (h : LastOf zone clock readings last) (bucket : List DevNode) :
    LastOf zone clock (checkBucket zone clock last readings bucket).2.1 (checkBucket zone clock last readings bucket).1 ∧
      (checkBucket zone clock last readings bucket).2.1 = readings + bucket.length ∧
      Walked zone clock readings bucket (checkBucket zone clock last readings bucket).2.2 := by
  induction bucket generalizing last readings with
  | nil => exact ⟨h, rfl, .nil readings⟩
  | cons node rest ih =>
    obtain ⟨hlast, hnode⟩ := checkAndReset_spec h node
    obtain ⟨hend, hcount, hrest⟩ := ih hlast
    exact ⟨hend, hcount.trans (Nat.add_right_comm ..), .cons hnode hrest⟩

theorem Walked.append {readings : ℕ} {nodes nodes' rest rest' : List DevNode} (h : Walked zone clock readings nodes nodes')
    (hrest : Walked zone clock (readings + nodes.length) rest rest') :
    Walked zone clock readings (nodes ++ rest) (nodes' ++ rest') := by
  induction h with
  | nil => exact hrest
  | cons head _ ih =>
    rw [List.length_cons, ← Nat.add_assoc, Nat.add_right_comm] at hrest
    exact .cons head (ih hrest)

theorem checkBuckets_spec {last : LastReset} {readings : ℕ} (h : LastOf zone clock readings last)
    (buckets : List (List DevNode)) :
    LastOf zone clock (checkBuckets zone clock last readings buckets).2.1
        (checkBuckets zone clock last readings buckets).1 ∧
      (checkBuckets zone clock last readings buckets).2.1 = readings + buckets.flatten.length ∧
      Walked zone clock readings buckets.flatten (checkBuckets zone clock last readings buckets).2.2.flatten := by
  induction buckets generalizing last readings with
  | nil => exact ⟨h, rfl, .nil readings⟩
  | cons bucket rest ih =>
    obtain ⟨hlast, hcount, hbucket⟩ := checkBucket_spec h bucket
    obtain ⟨hend, hcount', hrest⟩ := ih hlast
    refine ⟨hend, hcount'.trans ?_, hbucket.append (hcount ▸ hrest)⟩
    rw [hcount, Nat.add_assoc, List.flatten_cons, List.length_append]

theorem Walked.getElem {readings : ℕ} {nodes nodes' : List DevNode} (h : Walked zone clock readings nodes nodes')
    {i : ℕ} {node' : DevNode} (hi : nodes'[i]? = some node') :
    ∃ node, nodes[i]? = some node ∧ ResetAt zone clock (readings + i) node node' := by
  induction h generalizing i with
  | nil => exact absurd hi.symm (Option.some_ne_none node')
  | cons head _ ih =>
    cases i with
    | zero => exact ⟨_, rfl, Option.some.inj hi ▸ head⟩
    | succ i =>
      obtain ⟨node, hnode, hreset⟩ := ih hi
      rw [Nat.add_right_comm] at hreset
      exact ⟨node, hnode, hreset⟩

theorem Walked.length_eq {readings : ℕ} {nodes nodes' : List DevNode} (h : Walked zone clock readings nodes nodes') :
    nodes'.length = nodes.length := by
  induction h with
  | nil => rfl
  | cons _ _ ih => exact congrArg Nat.succ ih

/-! ### Runs -/

theorem minute_le (hclock : Monotone clock) {i j : ℕ} (h : i ≤ j) : clock i / 60 ≤ clock j / 60 :=
  Nat.div_le_div_right (hclock h)

/-- In a minute there is one reading at most that resets. -/
theorem Resets.unique (hclock : Monotone clock) {i j : ℕ} (hi : Resets zone clock i) (hj : Resets zone clock j)
    (hminute : clock i / 60 = clock j / 60) : i = j := by
  have hle {i j : ℕ} (hi : Resets zone clock i) (hj : Resets zone clock j) (hminute : clock i / 60 = clock j / 60) :
      j ≤ i := by
    by_contra hlt
    have hbefore : clock (j - 1) / 60 = clock i / 60 :=
      le_antisymm (hminute ▸ minute_le hclock (Nat.sub_le j 1)) (minute_le hclock (by omega))
    exact hj.2 ⟨by omega, hbefore ▸ hi.1⟩
  exact le_antisymm (hle hj hi hminute.symm) (hle hi hj hminute)

/-- What has happened to the device at a position after some calls. -/
structure History (zone : ℕ → ℤ) (clock : ℕ → ℕ) (devices calls i : ℕ) (node : DevNode) : Prop where
  mem : ∀ minute, minute ∈ node.amResets ↔
    ∃ call < calls, Resets zone clock (call * devices + i) ∧ clock (call * devices + i) / 60 = minute
  nodup : node.amResets.Nodup

theorem History.step (hclock : Monotone clock) {devices calls i : ℕ} (hi : i < devices) {node node' : DevNode}
    (h : History zone clock devices calls i node) (hreset : ResetAt zone clock (calls * devices + i) node node') :
    History zone clock devices (calls + 1) i node' := by
  have hsplit (minute : ℕ) : (∃ call < calls + 1, Resets zone clock (call * devices + i) ∧
      clock (call * devices + i) / 60 = minute) ↔ minute ∈ node.amResets ∨
        Resets zone clock (calls * devices + i) ∧ clock (calls * devices + i) / 60 = minute := by
    rw [h.mem]
    constructor
    · rintro ⟨call, hlt, hcall⟩
      rcases Nat.lt_succ_iff_lt_or_eq.1 hlt with hlt | rfl
      · exact .inl ⟨call, hlt, hcall⟩
      · exact .inr hcall
    · rintro (⟨call, hlt, hcall⟩ | hcall)
      · exact ⟨call, hlt.trans (Nat.lt_succ_self _), hcall⟩
      · exact ⟨calls, Nat.lt_succ_self _, hcall⟩
  rcases hreset with ⟨hresets, hlist⟩ | ⟨hresets, hlist⟩
  · refine ⟨fun minute => ?_, ?_⟩
    · rw [hsplit, hlist, List.mem_append, List.mem_singleton, and_iff_right hresets, eq_comm (a := minute)]
    · rw [hlist]
      refine List.nodup_append.2 ⟨h.nodup, List.nodup_singleton _, fun minute hmem other hother heq => ?_⟩
      rw [List.mem_singleton] at hother
      obtain ⟨call, hlt, hbefore, hminute⟩ := (h.mem minute).1 hmem
      have heqn := hbefore.unique hclock hresets (by rw [hminute, heq, hother])
      have hmul : call * devices < calls * devices := Nat.mul_lt_mul_of_pos_right hlt (by omega)
      omega
  · refine ⟨fun minute => ?_, hlist ▸ h.nodup⟩
    rw [hsplit, hlist]
    exact (or_iff_left fun hnot => hresets hnot.1).symm

/-- The state after some calls. -/
structure AfterCalls (zone : ℕ → ℤ) (clock : ℕ → ℕ) (devices calls : ℕ) (table : UserTable) : Prop where
  last : LastOf zone clock table.readings table.last
  readings : table.readings = calls * devices
  length : table.devices.length = devices
  history : ∀ i node, table.devices[i]? = some node → History zone clock devices calls i node

theorem afterCalls_spec (hclock : Monotone clock) {devHashTable : List (List DevNode)}
    (hfresh : ∀ node ∈ devHashTable.flatten, node.amResets = []) (calls : ℕ) :
    AfterCalls zone clock devHashTable.flatten.length calls (afterCalls zone clock devHashTable calls) := by
  induction calls with
  | zero =>
    refine ⟨⟨fun h => absurd h.1 (by decide : ¬ (-1 : ℤ) = 12), fun h => absurd h.1 (Nat.lt_irrefl 0)⟩, (Nat.zero_mul _).symm, rfl,
      fun i node hi => ?_⟩
    have hnil := hfresh node (List.mem_of_getElem? hi)
    refine ⟨fun minute => ?_, hnil ▸ List.nodup_nil⟩
    rw [hnil]
    exact ⟨fun h => absurd h List.not_mem_nil, fun ⟨_, hlt, _⟩ => absurd hlt (Nat.not_lt_zero _)⟩
  | succ calls ih =>
    obtain ⟨hlast, hreadings, hlength, hhistory⟩ := ih
    obtain ⟨hend, hcount, hwalk⟩ := checkBuckets_spec hlast (afterCalls zone clock devHashTable calls).devHashTable
    have hsame := hwalk.length_eq
    refine ⟨hend, hcount.trans ?_, hsame.trans hlength, fun i node hi => ?_⟩
    · rw [hreadings, Nat.succ_mul]
      exact congrArg _ hlength
    · obtain ⟨old, hold, hreset⟩ := hwalk.getElem hi
      have hlt : i < devHashTable.flatten.length := hlength ▸ (List.getElem?_eq_some_iff.1 hold).1
      exact (hhistory i old hold).step hclock hlt (hreadings ▸ hreset)

/-- A device is reset in a minute by its own readings only. -/
theorem mem_amResets (hclock : Monotone clock) {devHashTable : List (List DevNode)}
    (hfresh : ∀ node ∈ devHashTable.flatten, node.amResets = []) {calls minute : ℕ} :
    (∀ node ∈ (afterCalls zone clock devHashTable calls).devices, minute ∈ node.amResets) ↔
      ∀ i < devHashTable.flatten.length, ∃ call < calls, Resets zone clock (call * devHashTable.flatten.length + i) ∧
        clock (call * devHashTable.flatten.length + i) / 60 = minute := by
  have h := @afterCalls_spec zone clock hclock devHashTable hfresh calls
  constructor
  · intro hall i hi
    have hget := List.getElem?_eq_getElem (l := (afterCalls zone clock devHashTable calls).devices) (h.length ▸ hi)
    exact ((h.history i _ hget).mem minute).1 (hall _ (List.mem_of_getElem? hget))
  · intro hall node hnode
    obtain ⟨i, hget⟩ := List.mem_iff_getElem?.1 hnode
    exact ((h.history i node hget).mem minute).2 (hall i (h.length ▸ (List.getElem?_eq_some_iff.1 hget).1))

end

/-- What the calls at noon have to be like: there is one device at most, and if there is one, the call before was in the
same minute or not at noon. -/
def NoonCallsAlone (zone : ℕ → ℤ) (clock : ℕ → ℕ) (devices : ℕ) : Prop :=
  ∀ call minute, Noon zone minute → MadeIn clock devices call minute →
    devices = 0 ∨ devices = 1 ∧
      (call = 0 ∨ clock (call - 1) / 60 = minute ∨ ¬ Noon zone (clock (call - 1) / 60))

section
variable {zone : ℕ → ℤ} {clock : ℕ → ℕ} {devHashTable : List (List DevNode)}

/-- Two devices are not both reset in one minute. -/
theorem devices_le_one (hclock : Monotone clock) {devices minute : ℕ}
    (h : ∀ i < devices, ∃ call, Resets zone clock (call * devices + i) ∧ clock (call * devices + i) / 60 = minute) :
    devices ≤ 1 := by
  by_contra hmany
  obtain ⟨call₀, hreset₀, hminute₀⟩ := h 0 (by omega)
  obtain ⟨call₁, hreset₁, hminute₁⟩ := h 1 (by omega)
  have hsame := congrArg (· % devices) (hreset₀.unique hclock hreset₁ (hminute₀.trans hminute₁.symm))
  simp only [Nat.mul_add_mod_self_right, Nat.mod_eq_of_lt (not_le.1 hmany), Nat.zero_mod] at hsame
  exact absurd hsame zero_ne_one

/-- With one device the calls are the readings. -/
theorem reset_of_alone (halone : NoonCallsAlone zone clock 1) {minute : ℕ} (hnoon : Noon zone minute) (call : ℕ)
    (hmade : clock call / 60 = minute) :
    ∃ before < call + 1, Resets zone clock before ∧ clock before / 60 = minute := by
  have hcall : call * 1 + 0 = call := by rw [Nat.mul_one, Nat.add_zero]
  induction call with
  | zero => exact ⟨0, Nat.zero_lt_one, ⟨hmade ▸ hnoon, fun h => absurd h.1 (Nat.lt_irrefl 0)⟩, hmade⟩
  | succ call ih =>
    have hmadeIn : MadeIn clock 1 (call + 1) minute := fun i hi => by
      rw [Nat.lt_one_iff.1 hi, hcall, hmade]
    obtain ⟨-, hbefore⟩ := (halone (call + 1) minute hnoon hmadeIn).resolve_left one_ne_zero
    rcases hbefore with h | h | h
    · exact absurd h (Nat.succ_ne_zero call)
    · obtain ⟨before, hlt, hreset⟩ := ih h (by rw [Nat.mul_one, Nat.add_zero])
      exact ⟨before, hlt.trans (Nat.lt_succ_self _), hreset⟩
    · exact ⟨call + 1, Nat.lt_succ_self _, ⟨hmade ▸ hnoon, fun hprev => h hprev.2⟩, hmade⟩

/-- The reset at noon reaches every device, once, exactly when the calls at noon have no second device to reset. -/
theorem noonReset_iff (zone : ℕ → ℤ) (clock : ℕ → ℕ) (hclock : Monotone clock) (devHashTable : List (List DevNode))
    (hfresh : ∀ node ∈ devHashTable.flatten, node.amResets = []) :
    NoonResetReaches zone clock devHashTable ↔ NoonCallsAlone zone clock devHashTable.flatten.length := by
  constructor
  · intro h call minute hnoon hmade
    have hall := (mem_amResets hclock hfresh).1 (h.reaches call minute hnoon hmade)
    rcases Nat.le_one_iff_eq_zero_or_eq_one.1 (devices_le_one hclock fun i hi =>
      (hall i hi).imp fun _ hcall => hcall.2) with hzero | hone
    · exact .inl hzero
    · refine .inr ⟨hone, ?_⟩
      obtain ⟨before, hlt, hreset, hminute⟩ := hall 0 (hone ▸ Nat.zero_lt_one)
      have hthis := hmade 0 (hone ▸ Nat.zero_lt_one)
      rw [hone, Nat.mul_one, Nat.add_zero] at hreset hminute hthis
      rcases Nat.lt_succ_iff_lt_or_eq.1 hlt with hlt | rfl
      · refine .inr (.inl (le_antisymm ?_ ?_))
        · exact hthis ▸ minute_le hclock (Nat.sub_le call 1)
        · exact hminute ▸ minute_le hclock (Nat.le_sub_one_of_lt hlt)
      · rcases Nat.eq_zero_or_pos before with hzero | hpos
        · exact .inl hzero
        · exact .inr (.inr fun hprev => hreset.2 ⟨hpos, hprev⟩)
  · intro halone
    refine ⟨fun call minute hnoon hmade => (mem_amResets hclock hfresh).2 fun i hi => ?_, fun calls node hnode => ?_,
      fun calls node hnode minute hmem => ?_⟩
    · obtain ⟨hone, -⟩ := (halone call minute hnoon hmade).resolve_left (by omega)
      have hthis := hmade i hi
      rw [hone] at hi halone hthis ⊢
      obtain rfl := Nat.lt_one_iff.1 hi
      rw [Nat.mul_one, Nat.add_zero] at hthis
      obtain ⟨before, hlt, hreset, hminute⟩ := reset_of_alone halone hnoon call hthis
      refine ⟨before, hlt, ?_⟩
      rw [Nat.mul_one, Nat.add_zero]
      exact ⟨hreset, hminute⟩
    · obtain ⟨i, hget⟩ := List.mem_iff_getElem?.1 hnode
      exact ((afterCalls_spec hclock hfresh calls).history i node hget).nodup
    · obtain ⟨i, hget⟩ := List.mem_iff_getElem?.1 hnode
      obtain ⟨call, -, hreset, hminute⟩ :=
        (((afterCalls_spec hclock hfresh calls).history i node hget).mem minute).1 hmem
      exact hminute ▸ hreset.1

end

/-- UTC, a clock that stands at noon, and two devices in one bucket. -/
def twoDevices : List (List DevNode) := [[⟨5, []⟩, ⟨7, []⟩]]

def noonClock (_ : ℕ) : ℕ := 43200

theorem noonClock_minute (reading : ℕ) : noonClock reading / 60 = 720 := by rw [noonClock]

/-- The second device keeps its morning time. -/
theorem noonReset_missed : ¬ NoonResetReaches (fun _ => 0) noonClock twoDevices := fun h =>
  have hreset := h.reaches 0 720 (by decide) (fun _ _ => noonClock_minute _) ⟨7, []⟩ (List.mem_of_getElem? (i := 1) rfl)
  absurd hreset List.not_mem_nil

/-- One device is reset. -/
theorem noonReset_iff_single : NoonResetReaches (fun _ => 0) noonClock [[⟨5, []⟩]] :=
  (noonReset_iff (fun _ => 0) noonClock (fun _ _ _ => le_rfl) [[⟨5, []⟩]] (by decide)).2
    fun call minute _ hmade => .inr ⟨rfl, .inr (.inl (hmade 0 Nat.zero_lt_one))⟩

end Oaf
