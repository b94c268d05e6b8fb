import DOpenWrt.Oaf.Expiry

/-!
# Expiry and the wrap

The comparison of `check_client_expire` is right for a client exactly if the counter has wrapped since its last update
when the sum does. The one of `af_conn_clean_timeout` is a difference and does not depend on the wrap.
-/

namespace Oaf

variable {w : ℕ} {hz : ℕ} {jiffies : BitVec w} {node : AfClientInfo w} {clients : List (AfClientInfo w)}

/-- How many ticks ago the client was last updated. -/
def silence (jiffies : BitVec w) (node : AfClientInfo w) : ℕ := Serial.ahead jiffies node.updateJiffies

/-- The client is to be deleted. -/
def Silent (hz : ℕ) (jiffies : BitVec w) (node : AfClientInfo w) : Prop :=
  maxClientActiveTime * hz < silence jiffies node ∧ silence jiffies node < 2 ^ (w - 1)

/-- The sum wraps and the counter has not wrapped yet. -/
def FalseAlarm (hz : ℕ) (jiffies : BitVec w) (node : AfClientInfo w) : Prop :=
  2 ^ w ≤ node.updateJiffies.toNat + maxClientActiveTime * hz ∧ node.updateJiffies.toNat ≤ jiffies.toNat

/-- The counter has wrapped and the sum does not wrap. -/
def Missed (hz : ℕ) (jiffies : BitVec w) (node : AfClientInfo w) : Prop :=
  jiffies.toNat < node.updateJiffies.toNat ∧ node.updateJiffies.toNat + maxClientActiveTime * hz < 2 ^ w

/-- The client has been silent for too long, and the comparison says so. -/
def Detected (hz : ℕ) (jiffies : BitVec w) (node : AfClientInfo w) : Prop :=
  maxClientActiveTime * hz < silence jiffies node ∧ ¬ Missed hz jiffies node

instance : DecidablePred (Detected hz jiffies) := fun _ => inferInstanceAs (Decidable (_ ∧ ¬ (_ ∧ _)))

theorem silence_eq (jiffies : BitVec w) (node : AfClientInfo w) : silence jiffies node =
    if node.updateJiffies.toNat ≤ jiffies.toNat then jiffies.toNat - node.updateJiffies.toNat
    else jiffies.toNat + 2 ^ w - node.updateJiffies.toNat := by
  have hj := jiffies.isLt
  have hu := node.updateJiffies.isLt
  unfold silence Serial.ahead
  rw [BitVec.toNat_sub]
  split_ifs with h
  · rw [show 2 ^ w - node.updateJiffies.toNat + jiffies.toNat =
      jiffies.toNat - node.updateJiffies.toNat + 2 ^ w by omega, Nat.add_mod_right, Nat.mod_eq_of_lt (by omega)]
  · rw [Nat.mod_eq_of_lt (by omega)]
    omega

theorem FalseAlarm.silence_le (h : FalseAlarm hz jiffies node) : silence jiffies node ≤ maxClientActiveTime * hz := by
  have hj := jiffies.isLt
  have hsum := h.1
  rw [silence_eq, if_pos h.2]
  omega

/-- The plain comparison, by what the wrap does to both sides. -/
theorem clientExpired_iff (hhz : maxClientActiveTime * hz < 2 ^ w) :
    clientExpired hz jiffies node = true ↔ FalseAlarm hz jiffies node ∨ Detected hz jiffies node := by
  have hj := jiffies.isLt
  have hu := node.updateJiffies.isLt
  have hsum : (node.updateJiffies + BitVec.ofNat w (maxClientActiveTime * hz)).toNat =
      if node.updateJiffies.toNat + maxClientActiveTime * hz < 2 ^ w then
        node.updateJiffies.toNat + maxClientActiveTime * hz
      else node.updateJiffies.toNat + maxClientActiveTime * hz - 2 ^ w := by
    rw [BitVec.toNat_add, BitVec.toNat_ofNat, Nat.mod_eq_of_lt hhz]
    split_ifs with h
    · exact Nat.mod_eq_of_lt h
    · rw [Nat.mod_eq_sub_mod (by omega), Nat.mod_eq_of_lt (by omega)]
  unfold clientExpired FalseAlarm Detected Missed
  rw [decide_eq_true_eq, BitVec.lt_def, hsum, silence_eq]
  generalize maxClientActiveTime * hz = timeout at *
  generalize 2 ^ w = size at *
  split_ifs <;> omega

/-! ### The scan -/

theorem expireBuckets_find (buckets : List (List (AfClientInfo w))) :
    (expireBuckets hz jiffies buckets).2 = buckets.flatten.find? (clientExpired hz jiffies) := by
  induction buckets with
  | nil => rfl
  | cons bucket buckets ih =>
    unfold expireBuckets
    rw [List.flatten_cons, List.find?_append]
    cases bucket.find? (clientExpired hz jiffies) with
    | none => exact ih
    | some node => rfl

/-- No active client is deleted, and one of the silent ones is if there are any. -/
structure ExpiresSilent (hz : ℕ) (jiffies : BitVec w) (table : AfClientTable w) : Prop where
  active_kept : ∀ node ∈ (checkClientExpire hz jiffies table).2, maxClientActiveTime * hz < silence jiffies node
  silent_deleted : (∃ node ∈ table.toList.flatten, Silent hz jiffies node) →
    ∃ node ∈ (checkClientExpire hz jiffies table).2, Silent hz jiffies node

/-- A false alarm stands behind a client that is rightly found, and if there is a silent client, then the first one that
is rightly found is silent (and not older than half the circle). -/
structure WellTimed (hz : ℕ) (jiffies : BitVec w) (clients : List (AfClientInfo w)) : Prop where
  alarm : ∀ pre node post, clients = pre ++ node :: post → FalseAlarm hz jiffies node →
    ∃ node' ∈ pre, Detected hz jiffies node'
  silent : (∃ node ∈ clients, Silent hz jiffies node) →
    ∃ pre node post, clients = pre ++ node :: post ∧ Detected hz jiffies node ∧ Silent hz jiffies node ∧
      ∀ node' ∈ pre, ¬ Detected hz jiffies node'

theorem checkClientExpire_find (table : AfClientTable w) :
    (checkClientExpire hz jiffies table).2 = table.toList.flatten.find? (clientExpired hz jiffies) :=
  expireBuckets_find table.toList

theorem expired_of_detected (hhz : maxClientActiveTime * hz < 2 ^ w) (h : Detected hz jiffies node) :
    clientExpired hz jiffies node = true := (clientExpired_iff hhz).2 (.inr h)

/-- The first one found is the first one rightly found, when no false alarm comes before. -/
theorem WellTimed.find (hhz : maxClientActiveTime * hz < 2 ^ w) (h : WellTimed hz jiffies clients)
    (hfind : clients.find? (clientExpired hz jiffies) = some node) :
    Detected hz jiffies node ∧ clients.find? (fun node => Detected hz jiffies node) = some node := by
  obtain ⟨hnode, pre, post, rfl, hpre⟩ := List.find?_eq_some_iff_append.1 hfind
  have hnot : ∀ b ∈ pre, ¬ Detected hz jiffies b := by
    intro b hb hdetected
    have hquiet := hpre b hb
    rw [expired_of_detected hhz hdetected] at hquiet
    exact absurd hquiet (by decide)
  have hdetected : Detected hz jiffies node := by
    rcases (clientExpired_iff hhz).1 hnode with halarm | hdetected
    · obtain ⟨b, hb, hdetected⟩ := h.alarm pre node post rfl halarm
      exact absurd hdetected (hnot b hb)
    · exact hdetected
  refine ⟨hdetected, List.find?_eq_some_iff_append.2 ⟨decide_eq_true hdetected, pre, post, rfl, fun b hb => ?_⟩⟩
  rw [decide_eq_false (hnot b hb)]
  rfl

theorem expiresSilent_iff (hhz : maxClientActiveTime * hz < 2 ^ w) (table : AfClientTable w) :
    ExpiresSilent hz jiffies table ↔ WellTimed hz jiffies table.toList.flatten := by
  constructor
  · intro h
    refine ⟨fun pre node post hclients halarm => ?_, fun hsilent => ?_⟩
    · by_contra hnone
      have hfind := @checkClientExpire_find w hz jiffies table
      rw [hclients, List.find?_append, List.find?_cons_of_pos ((clientExpired_iff hhz).2 (.inl halarm))] at hfind
      cases hpre : pre.find? (clientExpired hz jiffies) with
      | none =>
        rw [hpre] at hfind
        have hkept := h.active_kept node hfind
        have hle := halarm.silence_le
        omega
      | some b =>
        rw [hpre] at hfind
        have hkept := h.active_kept b hfind
        rcases (clientExpired_iff hhz).1 (List.find?_some hpre) with hb | hb
        · have hle := hb.silence_le
          omega
        · exact hnone ⟨b, List.mem_of_find?_eq_some hpre, hb⟩
    · obtain ⟨node, hdeleted, hnode⟩ := h.silent_deleted hsilent
      have hfind := hdeleted
      rw [checkClientExpire_find] at hfind
      obtain ⟨hexpired, pre, post, hclients, hpre⟩ := List.find?_eq_some_iff_append.1 hfind
      refine ⟨pre, node, post, hclients, ?_, hnode, fun b hb hdetected => ?_⟩
      · rcases (clientExpired_iff hhz).1 hexpired with halarm | hdetected
        · have hle := halarm.silence_le
          have hlt := hnode.1
          omega
        · exact hdetected
      · have hquiet := hpre b hb
        rw [expired_of_detected hhz hdetected] at hquiet
        exact absurd hquiet (by decide)
  · intro h
    refine ⟨fun node hnode => ?_, fun hsilent => ?_⟩
    · have hnode : (checkClientExpire hz jiffies table).2 = some node := hnode
      rw [checkClientExpire_find] at hnode
      exact (h.find hhz hnode).1.1
    · obtain ⟨pre, node, post, hclients, hdetected, hnode, hpre⟩ := h.silent hsilent
      have hsome : (table.toList.flatten.find? (clientExpired hz jiffies)).isSome := by
        rw [List.find?_isSome, hclients]
        exact ⟨node, List.mem_append_right _ (List.mem_cons_self ..), expired_of_detected hhz hdetected⟩
      obtain ⟨found, hfound⟩ := Option.isSome_iff_exists.1 hsome
      have hfirst : table.toList.flatten.find? (fun node => Detected hz jiffies node) = some node := by
        refine List.find?_eq_some_iff_append.2 ⟨decide_eq_true hdetected, pre, post, hclients, fun b hb => ?_⟩
        rw [decide_eq_false (hpre b hb)]
        rfl
      rw [(h.find hhz hfound).2] at hfirst
      cases hfirst
      exact ⟨node, (checkClientExpire_find table).trans hfound, hnode⟩

/-! ### Connections -/

variable {conn : AfConn w} {state : AfConnState w}

/-- The connection was used within the time limit. -/
def recent (hz : ℕ) (jiffies : BitVec w) (conn : AfConn w) : Bool :=
  Serial.ahead jiffies conn.lastJiffies ≤ afConnTimeout * hz

/-- The difference is how far the limit is ahead. -/
theorem connTimedOut_of_recent (hhz : afConnTimeout * hz < 2 ^ (w - 1)) (h : recent hz jiffies conn = true) :
    connTimedOut hz jiffies conn = false := by
  have hle : Serial.ahead jiffies conn.lastJiffies ≤ afConnTimeout * hz := of_decide_eq_true h
  have hpow : 2 ^ (w - 1) ≤ 2 ^ w := Nat.pow_le_pow_right (by decide) (Nat.sub_le _ _)
  have hjiffies := Serial.add_ahead jiffies conn.lastJiffies
  generalize Serial.ahead jiffies conn.lastJiffies = age at hle hjiffies
  have hdiff : conn.lastJiffies + BitVec.ofNat w (afConnTimeout * hz) - jiffies =
      BitVec.ofNat w (afConnTimeout * hz - age) := by
    have hsplit : BitVec.ofNat w (afConnTimeout * hz) = BitVec.ofNat w (afConnTimeout * hz - age) + BitVec.ofNat w age := by
      rw [← BitVec.ofNat_add]
      congr 1
      omega
    rw [← hjiffies, hsplit, BitVec.add_comm (BitVec.ofNat w _), ← BitVec.add_assoc, BitVec.add_comm,
      BitVec.add_sub_cancel]
  have hnonneg : (0 : ℤ) ≤ (BitVec.ofNat w (afConnTimeout * hz - age)).toInt := by
    rcases Nat.eq_zero_or_pos w with rfl | hw
    · rw [BitVec.toInt_zero_length]
    · have htwo : 2 * 2 ^ (w - 1) = 2 ^ w := by
        rw [← Nat.pow_succ', Nat.succ_eq_add_one, Nat.sub_add_cancel hw]
      rw [BitVec.toInt_eq_toNat_of_lt]
      · exact Int.natCast_nonneg _
      · rw [BitVec.toNat_ofNat, Nat.mod_eq_of_lt (by omega)]
        omega
  unfold connTimedOut timeAfter
  rw [hdiff, BitVec.slt, decide_eq_false_iff_not, not_lt]
  exact (BitVec.toInt_zero).trans_le hnonneg

/-- The loop takes connections out of its buckets only if they have timed out. -/
theorem cleanLoop_recent (hhz : afConnTimeout * hz < 2 ^ (w - 1)) (fuel i count : ℕ) (state : AfConnState w) (b : ℕ) :
    ((cleanLoop hz jiffies fuel i count state).1.table b).filter (recent hz jiffies) =
      (state.table b).filter (recent hz jiffies) := by
  induction fuel generalizing i count state with
  | zero => rfl
  | succ fuel ih =>
    have hbucket : (Function.update state.table i
        ((state.table i).filter fun conn => !connTimedOut hz jiffies conn) b).filter (recent hz jiffies) =
        (state.table b).filter (recent hz jiffies) := by
      by_cases hb : b = i
      · subst hb
        rw [Function.update_self, List.filter_filter]
        refine List.filter_congr fun conn _ => ?_
        cases hrecent : recent hz jiffies conn with
        | false => rfl
        | true =>
          rw [connTimedOut_of_recent hhz hrecent]
          rfl
      · rw [Function.update_of_ne hb]
    unfold cleanLoop
    dsimp only
    split_ifs
    · exact hbucket
    · exact (ih _ _ _).trans hbucket

theorem cleanLoop_scanned (fuel i : ℕ) {count : ℕ} (hcount : count ≤ maxAfConnCheckCount) (state : AfConnState w) :
    (cleanLoop hz jiffies fuel i count state).2 = List.range' i (min fuel (maxAfConnCheckCount + 1 - count)) ∧
      (0 < fuel → (cleanLoop hz jiffies fuel i count state).1.lastBucket =
        i + min fuel (maxAfConnCheckCount + 1 - count) - 1) := by
  induction fuel generalizing i count state with
  | zero =>
    rw [Nat.zero_min]
    exact ⟨rfl, fun h => absurd h (Nat.lt_irrefl 0)⟩
  | succ fuel ih =>
    unfold cleanLoop
    dsimp only
    split_ifs with hlast
    · have hone : min (fuel + 1) (maxAfConnCheckCount + 1 - count) = 1 := by omega
      rw [hone]
      exact ⟨rfl, fun _ => rfl⟩
    · obtain ⟨hscanned, hbucket⟩ := ih (i + 1) (Nat.le_of_not_lt hlast) _
      have hmin : min (fuel + 1) (maxAfConnCheckCount + 1 - count) =
          min fuel (maxAfConnCheckCount + 1 - (count + 1)) + 1 := by omega
      refine ⟨?_, fun _ => ?_⟩
      · dsimp only
        rw [hscanned, hmin, List.range'_succ]
      · dsimp only
        rcases Nat.eq_zero_or_pos fuel with rfl | hfuel
        · rw [hmin, Nat.zero_min]
          rfl
        · rw [hbucket hfuel, hmin]
          omega

theorem afConnCleanTimeout_recent (hhz : afConnTimeout * hz < 2 ^ (w - 1)) (state : AfConnState w) (b : ℕ) :
    ((afConnCleanTimeout hz jiffies state).1.table b).filter (recent hz jiffies) =
      (state.table b).filter (recent hz jiffies) := by
  rw [← cleanLoop_recent hhz (afConnHashSize - state.lastBucket) state.lastBucket 0 state b]
  unfold afConnCleanTimeout
  dsimp only
  split_ifs <;> rfl

/-- The calls go over six buckets each, of which the next call has the last one again. -/
theorem afConnCleanTimeout_scanned {n : ℕ} (hstate : state.lastBucket = 5 * (n % 51)) :
    (afConnCleanTimeout hz jiffies state).2 = List.range' (5 * (n % 51)) 6 ∧
      (afConnCleanTimeout hz jiffies state).1.lastBucket = 5 * ((n + 1) % 51) := by
  have hmin : min (afConnHashSize - state.lastBucket) (maxAfConnCheckCount + 1 - 0) = 6 := by
    unfold afConnHashSize maxAfConnCheckCount
    omega
  have hpos : 0 < afConnHashSize - state.lastBucket := by omega
  obtain ⟨hscanned, hlast⟩ := @cleanLoop_scanned w hz jiffies (afConnHashSize - state.lastBucket) state.lastBucket 0
    (Nat.zero_le _) state
  have hlast := hlast hpos
  rw [hmin] at hscanned hlast
  unfold afConnCleanTimeout
  dsimp only
  refine ⟨hscanned.trans (by rw [hstate]), ?_⟩
  split_ifs with hend
  · rw [hlast, hstate] at hend
    unfold afConnHashSize at hend
    show 0 = _
    omega
  · rw [hlast, hstate] at hend
    rw [hlast, hstate]
    unfold afConnHashSize at hend
    omega

/-! ### Runs -/

/-- What happens to the table: a call of `af_conn_clean_timeout`, or any change by the rest of the module. -/
inductive AfConnEvent (w : ℕ) where
  | clean (jiffies : BitVec w)
  | change (table : ℕ → List (AfConn w))

def AfConnEvent.isClean : AfConnEvent w → Bool
  | clean _ => true
  | change _ => false

variable (hz) in
def connStep (state : AfConnState w) : AfConnEvent w → AfConnState w
  | .clean jiffies => (afConnCleanTimeout hz jiffies state).1
  | .change table => { state with table }

variable (hz) in
/-- The buckets that the calls go over. -/
def scannedBuckets (state : AfConnState w) : List (AfConnEvent w) → List ℕ
  | [] => []
  | .clean jiffies :: events =>
    (afConnCleanTimeout hz jiffies state).2 ++ scannedBuckets (connStep hz state (.clean jiffies)) events
  | .change table :: events => scannedBuckets (connStep hz state (.change table)) events

theorem connStep_lastBucket {n : ℕ} (hstate : state.lastBucket = 5 * (n % 51)) (event : AfConnEvent w) :
    (connStep hz state event).lastBucket = 5 * ((n + [event].countP AfConnEvent.isClean) % 51) := by
  cases event with
  | clean jiffies => exact (afConnCleanTimeout_scanned hstate).2
  | change table => exact hstate

theorem run_lastBucket (table : ℕ → List (AfConn w)) (events : List (AfConnEvent w)) :
    (events.foldl (connStep hz) ⟨table, 0⟩).lastBucket = 5 * (events.countP AfConnEvent.isClean % 51) := by
  induction events using List.reverseRecOn with
  | nil => rfl
  | append_singleton events event ih =>
    rw [List.foldl_append, List.countP_append]
    exact connStep_lastBucket ih event

theorem mem_scannedBuckets {n : ℕ} (hstate : state.lastBucket = 5 * (n % 51)) (events : List (AfConnEvent w)) (b : ℕ) :
    b ∈ scannedBuckets hz state events ↔
      ∃ m < events.countP AfConnEvent.isClean, b ∈ List.range' (5 * ((n + m) % 51)) 6 := by
  induction events generalizing n state with
  | nil => exact iff_of_false List.not_mem_nil fun ⟨m, hm, _⟩ => Nat.not_lt_zero m hm
  | cons event events ih =>
    have hnext := @connStep_lastBucket w hz state n hstate event
    cases event with
    | change table => exact ih hnext
    | clean jiffies =>
      have hcount : (AfConnEvent.clean jiffies :: events).countP AfConnEvent.isClean =
          events.countP AfConnEvent.isClean + 1 := List.countP_cons_of_pos rfl
      unfold scannedBuckets
      rw [List.mem_append, (afConnCleanTimeout_scanned hstate).1, ih hnext, hcount]
      constructor
      · rintro (hb | ⟨m, hm, hb⟩)
        · exact ⟨0, Nat.succ_pos _, hb⟩
        · refine ⟨m + 1, Nat.succ_lt_succ hm, ?_⟩
          rwa [Nat.add_comm m 1, ← Nat.add_assoc]
      · rintro ⟨m, hm, hb⟩
        cases m with
        | zero => exact .inl hb
        | succ m =>
          refine .inr ⟨m, Nat.lt_of_succ_lt_succ hm, ?_⟩
          rwa [Nat.add_comm m 1, ← Nat.add_assoc] at hb

/-- 51 calls go over all buckets, from wherever the cursor is. -/
theorem scannedBuckets_all {n : ℕ} (hstate : state.lastBucket = 5 * (n % 51)) {events : List (AfConnEvent w)}
    (hevents : events.countP AfConnEvent.isClean = 51) {b : ℕ} (hb : b < afConnHashSize) :
    b ∈ scannedBuckets hz state events := by
  rw [mem_scannedBuckets hstate, hevents]
  unfold afConnHashSize at hb
  refine ⟨(min (b / 5) 50 + 51 - n % 51) % 51, Nat.mod_lt _ (by decide), ?_⟩
  have hslot : (n + (min (b / 5) 50 + 51 - n % 51) % 51) % 51 = min (b / 5) 50 := by omega
  rw [hslot, List.mem_range'_1]
  omega

/-- A call of `check_client_expire` does what it is for exactly if the wrap of the counter and that of the sum agree where
it matters. A call of `af_conn_clean_timeout` leaves the recent connections where they are in every state of a run, and
51 calls go over every bucket. -/
theorem expiry_iff {w hz : ℕ} (hhz : maxClientActiveTime * hz < 2 ^ (w - 1)) :
    (∀ (jiffies : BitVec w) (table : AfClientTable w),
      ExpiresSilent hz jiffies table ↔ WellTimed hz jiffies table.toList.flatten) ∧
    ∀ (table : ℕ → List (AfConn w)) (events : List (AfConnEvent w)),
      (∀ (jiffies : BitVec w) (b : ℕ),
        ((afConnCleanTimeout hz jiffies (events.foldl (connStep hz) ⟨table, 0⟩)).1.table b).filter (recent hz jiffies) =
          ((events.foldl (connStep hz) ⟨table, 0⟩).table b).filter (recent hz jiffies)) ∧
      ∀ calls : List (AfConnEvent w), calls.countP AfConnEvent.isClean = 51 →
        ∀ b < afConnHashSize, b ∈ scannedBuckets hz (events.foldl (connStep hz) ⟨table, 0⟩) calls := by
  have hpow : 2 ^ (w - 1) ≤ 2 ^ w := Nat.pow_le_pow_right (by decide) (Nat.sub_le _ _)
  have hconn : afConnTimeout * hz < 2 ^ (w - 1) :=
    (Nat.mul_le_mul_right hz (by decide : afConnTimeout ≤ maxClientActiveTime)).trans_lt hhz
  refine ⟨fun jiffies table => expiresSilent_iff (hhz.trans_le hpow) table, fun table events => ⟨fun jiffies b => ?_,
    fun calls hcalls b hb => ?_⟩⟩
  · exact afConnCleanTimeout_recent hconn _ b
  · exact scannedBuckets_all (run_lastBucket table events) hcalls hb

/-- Two clients that are active, and one that was last updated before the counter wrapped. -/
def clientsAcrossWrap : List (AfClientInfo 32) :=
  [⟨[2, 0, 0, 0, 0, 5], 19000⟩, ⟨[2, 0, 0, 0, 0, 6], 0xFFFFF000⟩, ⟨[2, 0, 0, 0, 0, 7], 5⟩]

def tableAcrossWrap : AfClientTable 32 :=
  ((Vector.replicate maxAfClientHashSize []).set 5 (clientsAcrossWrap.take 2)).set 9 (clientsAcrossWrap.drop 2)

theorem clientsAcrossWrap_wellTimed : WellTimed 250 (20000 : BitVec 32) clientsAcrossWrap where
  alarm pre node post hclients halarm := by
    have hnone : ∀ node ∈ clientsAcrossWrap, ¬ FalseAlarm 250 (20000 : BitVec 32) node := by
      unfold FalseAlarm
      decide
    exact absurd halarm (hnone node (hclients ▸ List.mem_append_right pre List.mem_cons_self))
  silent _ := by
    refine ⟨clientsAcrossWrap.take 1, ⟨[2, 0, 0, 0, 0, 6], 0xFFFFF000⟩, clientsAcrossWrap.drop 2, rfl, by decide, ?_,
      by decide⟩
    unfold Silent
    decide

/-- At 250 ticks a second on a 32-bit target: the silent client is deleted, the recent connection stays, and 51 calls go
over every bucket. -/
theorem expiry_at_250 : maxClientActiveTime * 250 < 2 ^ (32 - 1) ∧
    ExpiresSilent 250 (20000 : BitVec 32) tableAcrossWrap ∧
    (checkClientExpire 250 (20000 : BitVec 32) tableAcrossWrap).2 = some ⟨[2, 0, 0, 0, 0, 6], 0xFFFFF000⟩ ∧
    ∀ table : ℕ → List (AfConn 32),
      (∀ b, ((afConnCleanTimeout 250 (20000 : BitVec 32) (connStep 250 ⟨table, 0⟩ (.clean 10))).1.table b).filter
          (recent 250 (20000 : BitVec 32)) =
        ((connStep 250 ⟨table, 0⟩ (.clean (10 : BitVec 32))).table b).filter (recent 250 20000)) ∧
      ∀ b < afConnHashSize, b ∈ scannedBuckets 250 (connStep 250 ⟨table, 0⟩ (.clean 10))
        (List.replicate 51 (.clean (20000 : BitVec 32))) := by
  have hhz : maxClientActiveTime * 250 < 2 ^ (32 - 1) := by decide
  obtain ⟨hclients, hconns⟩ := expiry_iff (w := 32) hhz
  have hflatten : tableAcrossWrap.toList.flatten = clientsAcrossWrap := by decide +kernel
  have hwell := clientsAcrossWrap_wellTimed
  rw [← hflatten] at hwell
  refine ⟨hhz, (hclients 20000 tableAcrossWrap).2 hwell, by decide +kernel, fun table => ?_⟩
  obtain ⟨hrecent, hall⟩ := hconns table [.clean 10]
  exact ⟨hrecent 20000, hall _ (by decide)⟩

/-- A client that was updated in this very tick is deleted. -/
theorem activeClient_deleted : ¬ ExpiresSilent 100 (0xFFFFFFF6 : BitVec 32)
    ((Vector.replicate maxAfClientHashSize []).set 5 [⟨[2, 0, 0, 0, 0, 5], 0xFFFFFFF6⟩]) := by
  intro h
  have hdeleted := h.active_kept ⟨[2, 0, 0, 0, 0, 5], 0xFFFFFFF6⟩ (by decide +kernel)
  exact absurd hdeleted (by decide)

end Oaf
