import DOpenWrt.Lib.Serial

/-!
# Expiry

The timer of the module deletes clients that have been silent (`af_client.c`) and connections that have timed out
(`af_conntrack.c`). `jiffies` is a counter of `w` bits that wraps around.
-/

namespace Oaf

def maxAfClientHashSize : ℕ := 64
def maxClientActiveTime : ℕ := 90
def afConnTimeout : ℕ := 30
def afConnHashSize : ℕ := 256
def maxAfConnCheckCount : ℕ := 5

variable {w : ℕ} (hz : ℕ) (jiffies : BitVec w)

/-! ### Clients -/

structure AfClientInfo (w : ℕ) where
  mac : List UInt8
  updateJiffies : BitVec w
deriving DecidableEq, Repr

/-- The lists of `af_client_list_table`. -/
abbrev AfClientTable (w : ℕ) := Vector (List (AfClientInfo w)) maxAfClientHashSize

/-- `jiffies > (node->update_jiffies + MAX_CLIENT_ACTIVE_TIME * HZ)` -/
def clientExpired (node : AfClientInfo w) : Bool :=
  node.updateJiffies + BitVec.ofNat w (maxClientActiveTime * hz) < jiffies

/-- The two loops: the first client found is unlinked and freed. -/
def expireBuckets : List (List (AfClientInfo w)) → List (List (AfClientInfo w)) × Option (AfClientInfo w)
  | [] => ([], none)
  | bucket :: buckets =>
    match bucket.find? (clientExpired hz jiffies) with
    | some node => (bucket.eraseP (clientExpired hz jiffies) :: buckets, some node)
    | none => (bucket :: (expireBuckets buckets).1, (expireBuckets buckets).2)

theorem length_expireBuckets (buckets : List (List (AfClientInfo w))) :
    (expireBuckets hz jiffies buckets).1.length = buckets.length := by
  induction buckets with
  | nil => rfl
  | cons bucket buckets ih =>
    unfold expireBuckets
    split
    · rfl
    · exact congrArg Nat.succ ih

/-- The table after the call, and the client that was freed. -/
def checkClientExpire (table : AfClientTable w) : AfClientTable w × Option (AfClientInfo w) :=
  (⟨(expireBuckets hz jiffies table.toList).1.toArray, List.size_toArray.trans
    ((length_expireBuckets hz jiffies table.toList).trans table.length_toList)⟩,
   (expireBuckets hz jiffies table.toList).2)

/-! ### Connections -/

structure AfConn (w : ℕ) where
  srcIp : BitVec 32
  dstIp : BitVec 32
  srcPort : BitVec 16
  dstPort : BitVec 16
  protocol : BitVec 8
  lastJiffies : BitVec w
deriving DecidableEq, Repr

/-- The table of connections with the static cursor of `af_conn_clean_timeout`. -/
structure AfConnState (w : ℕ) where
  table : ℕ → List (AfConn w)
  lastBucket : ℕ

/-- `time_after`: the difference as a signed number. -/
def timeAfter (a b : BitVec w) : Bool := (b - a).slt 0

def connTimedOut (conn : AfConn w) : Bool :=
  timeAfter jiffies (conn.lastJiffies + BitVec.ofNat w (afConnTimeout * hz))

/-- The loop from bucket `i` on, of which there are `fuel` left, with the buckets it goes over. -/
def cleanLoop : ℕ → ℕ → ℕ → AfConnState w → AfConnState w × List ℕ
  | 0, _, _, state => (state, [])
  | fuel + 1, i, count, state =>
    let state := {
      table := Function.update state.table i ((state.table i).filter fun conn => !connTimedOut hz jiffies conn)
      lastBucket := i }
    if count + 1 > maxAfConnCheckCount then (state, [i])
    else
      let (state, scanned) := cleanLoop fuel (i + 1) (count + 1) state
      (state, i :: scanned)

/-- The state after the call, and the buckets it went over. -/
def afConnCleanTimeout (state : AfConnState w) : AfConnState w × List ℕ :=
  let (state, scanned) := cleanLoop hz jiffies (afConnHashSize - state.lastBucket) state.lastBucket 0 state
  (if state.lastBucket = afConnHashSize - 1 then { state with lastBucket := 0 } else state, scanned)

end Oaf
