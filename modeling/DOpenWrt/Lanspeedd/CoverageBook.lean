import DOpenWrt.Lanspeedd.RateWindowScale

/-!
# The coverage windows

`NssCoverageBook` of `platform/nss/window.rs`: what the clients sent and received since the start of a window, against
the growth of the counters of the LAN since then. A client sends what the LAN receives.
-/

namespace Lanspeedd.RateWindow

def coverageCatchupTimeoutMs : ℕ := 5000
def unownedSettleMs : ℕ := 2500
def minCoverageBytes : UInt64 := 128 * 1024

structure LanClock where
  interface : String
  sampleMs : UInt64
  counters : TrafficCounters
  deriving DecidableEq

inductive WindowQuality
  | warmup | pending | ok | idle | lowTraffic | counterReset | counterSkew
  deriving DecidableEq

def TrafficCounters.zero : TrafficCounters := ⟨0, 0, 0, 0⟩

structure CoverageWindow where
  quality : WindowQuality
  reason : String
  startMs : UInt64
  endMs : UInt64
  clientRaw : TrafficCounters := .zero
  clientNormalized : TrafficCounters := .zero
  lanRaw : TrafficCounters := .zero
  lanNormalized : TrafficCounters := .zero
  txPct : Option UInt8 := none
  rxPct : Option UInt8 := none
  retainedTxPct : Option UInt8 := none
  retainedRxPct : Option UInt8 := none
  aligned : Bool := false

def CoverageWindow.empty (quality : WindowQuality) (reason : String) (sampleMs : UInt64) : CoverageWindow where
  quality
  reason
  startMs := sampleMs
  endMs := sampleMs

/-! ### Counters -/

def checkedSub64 (a b : UInt64) : Option UInt64 := if b ≤ a then some (a - b) else none

def checkedDelta (current previous : TrafficCounters) : Option TrafficCounters := do
  let txBytes ← checkedSub64 current.txBytes previous.txBytes
  let rxBytes ← checkedSub64 current.rxBytes previous.rxBytes
  let txPackets ← checkedSub64 current.txPackets previous.txPackets
  let rxPackets ← checkedSub64 current.rxPackets previous.rxPackets
  return { txBytes, rxBytes, txPackets, rxPackets }

def addAssign (total value : TrafficCounters) : TrafficCounters where
  txBytes := saturatingAdd64 total.txBytes value.txBytes
  rxBytes := saturatingAdd64 total.rxBytes value.rxBytes
  txPackets := saturatingAdd64 total.txPackets value.txPackets
  rxPackets := saturatingAdd64 total.rxPackets value.rxPackets

def sum (values : List TrafficCounters) : TrafficCounters := values.foldl addAssign .zero

def hasTraffic (value : TrafficCounters) : Bool :=
  value.txBytes != 0 || value.rxBytes != 0 || value.txPackets != 0 || value.rxPackets != 0

def isLowTrafficPair (client lan : TrafficCounters) : Bool :=
  let totalBytes (value : TrafficCounters) : UInt64 :=
    (value.fcsNormalized.map fun value => saturatingAdd64 value.txBytes value.rxBytes).getD
      (UInt64.ofNat (u64Limit - 1))
  decide (max (totalBytes client) (totalBytes lan) < minCoverageBytes)

def overlapPercentReady (clientTx clientRx lanRx lanTx : UInt64) (againstClient : Bool) : Bool :=
  let matched := saturatingAdd64 (min clientTx lanRx) (min clientRx lanTx)
  let denominator := if againstClient then saturatingAdd64 clientTx clientRx else saturatingAdd64 lanRx lanTx
  decide (saturatingMul128 denominator.toNat minOwnershipPercent ≤ saturatingMul128 matched.toNat 100)

def aggregateReady (client lan : TrafficCounters) (againstClient : Bool) : Bool :=
  overlapPercentReady client.txBytes client.rxBytes lan.rxBytes lan.txBytes againstClient &&
    overlapPercentReady client.txPackets client.rxPackets lan.rxPackets lan.txPackets againstClient

def aggregateClientClockReady (client lan : TrafficCounters) : Bool := aggregateReady client lan true
def aggregateLanOwnershipReady (client lan : TrafficCounters) : Bool := aggregateReady client lan false

def directionalCoverageReady (client lan : TrafficCounters) : Bool :=
  decide (client.txBytes ≤ lan.rxBytes ∧ client.txPackets ≤ lan.rxPackets ∧ client.rxBytes ≤ lan.txBytes ∧
    client.rxPackets ≤ lan.txPackets)

/-- For a pair with little traffic, what `directional_coverage_ready` asks for. -/
def fitsLanClock (client lan : TrafficCounters) : Bool :=
  if isLowTrafficPair client lan then directionalCoverageReady client lan else aggregateClientClockReady client lan

def ownershipReady (client lan : TrafficCounters) : Bool :=
  isLowTrafficPair client lan || (aggregateClientClockReady client lan && aggregateLanOwnershipReady client lan)

def percentage (numerator denominator : UInt64) : Option UInt8 :=
  if denominator = 0 ∨ denominator < numerator then none
  else
    let value := saturatingMul128 numerator.toNat 100 / denominator.toNat
    if value < 2 ^ 8 then some (UInt8.ofNat value) else none

def coverageWindow (quality : WindowQuality) (reason : String) (start finish : LanClock)
    (clientRaw clientNormalized lanRaw lanNormalized : TrafficCounters) (aligned percentagesAvailable : Bool) :
    CoverageWindow where
  quality
  reason
  startMs := start.sampleMs
  endMs := finish.sampleMs
  clientRaw
  clientNormalized
  lanRaw
  lanNormalized
  txPct := if percentagesAvailable then percentage clientNormalized.txBytes lanNormalized.rxBytes else none
  rxPct := if percentagesAvailable then percentage clientNormalized.rxBytes lanNormalized.txBytes else none
  aligned

/-! ### The book -/

structure NssCoverageBook where
  start : Option LanClock := none
  pendingSinceMs : Option UInt64 := none
  pendingClient : TrafficCounters := .zero
  lastReported : Option (Option UInt8 × Option UInt8) := none

namespace NssCoverageBook

def rebaseline (book : NssCoverageBook) (lan : LanClock) : NssCoverageBook :=
  { book with start := some lan, pendingSinceMs := none, pendingClient := .zero }

def clear (book : NssCoverageBook) (lan : LanClock) : NssCoverageBook :=
  { book.rebaseline lan with lastReported := none }

def withLastReported (book : NssCoverageBook) (coverage : CoverageWindow) : CoverageWindow :=
  match book.lastReported with
  | none => coverage
  | some (txPct, rxPct) => { coverage with retainedTxPct := txPct, retainedRxPct := rxPct }

def noteReported (book : NssCoverageBook) (output : CoverageWindow) : NssCoverageBook :=
  if output.quality = .idle then { book with lastReported := none }
  else if output.txPct.isSome || output.rxPct.isSome then
    { book with lastReported := some (output.txPct, output.rxPct) }
  else book

/-- How long a window may wait for its clients to catch up, or for traffic that no client has to be owned. -/
def timeoutMs (clientRaw lanRaw : TrafficCounters) : ℕ :=
  if !hasTraffic clientRaw && hasTraffic lanRaw then unownedSettleMs else coverageCatchupTimeoutMs

/-- `update` where the clients fit the LAN. -/
def updateAligned (book : NssCoverageBook) (start lan : LanClock)
    (clientRaw clientNormalized lanRaw lanNormalized : TrafficCounters) : NssCoverageBook × CoverageWindow :=
  let ownershipComplete := ownershipReady clientNormalized lanNormalized
  let denominator := saturatingAdd64 lanNormalized.rxBytes lanNormalized.txBytes
  let quality : WindowQuality :=
    if denominator = 0 then .idle else if denominator < minCoverageBytes then .lowTraffic else .ok
  let since := book.pendingSinceMs.getD lan.sampleMs
  let book := if ownershipComplete then book else { book with pendingSinceMs := some since }
  let partialTimedOut := !ownershipComplete &&
    decide (timeoutMs clientRaw lanRaw < lan.sampleMs.toNat - since.toNat)
  let reason :=
    if ownershipComplete then "lan_coverage_aligned"
    else if partialTimedOut then "lan_coverage_unowned"
    else "lan_coverage_partial"
  let output := coverageWindow quality reason start lan clientRaw clientNormalized lanRaw lanNormalized true true
  let book := book.noteReported output
  (if ownershipComplete || partialTimedOut then book.rebaseline lan else book, output)

/-- `update` where the clients run ahead of the LAN. -/
def updateUnaligned (book : NssCoverageBook) (start lan : LanClock)
    (clientRaw clientNormalized lanRaw lanNormalized : TrafficCounters) : NssCoverageBook × CoverageWindow :=
  let since := book.pendingSinceMs.getD lan.sampleMs
  let book := { book with pendingSinceMs := some since }
  let window (quality : WindowQuality) (reason : String) : CoverageWindow :=
    book.withLastReported
      (coverageWindow quality reason start lan clientRaw clientNormalized lanRaw lanNormalized false true)
  if lan.sampleMs.toNat - since.toNat ≤ timeoutMs clientRaw lanRaw then (book, window .pending "lan_coverage_pending")
  else
    let output :=
      if isLowTrafficPair clientRaw lanRaw then window .lowTraffic "low_traffic_coverage_rebaseline"
      else window .counterSkew "lan_coverage_timeout"
    (book.rebaseline lan, output)

def update (book : NssCoverageBook) (clientDelta : TrafficCounters) (lan : LanClock) :
    NssCoverageBook × CoverageWindow :=
  match book.start with
  | none => (book.clear lan, .empty .warmup "cold_start" lan.sampleMs)
  | some start =>
    if start.interface ≠ lan.interface then (book.clear lan, .empty .counterReset "lan_boundary_changed" lan.sampleMs)
    else if lan.sampleMs ≤ start.sampleMs then
      (book.clear lan, .empty .counterReset "sample_clock_reset" lan.sampleMs)
    else
      let book := { book with pendingClient := addAssign book.pendingClient clientDelta }
      let clientRaw := book.pendingClient
      match checkedDelta lan.counters start.counters with
      | none => (book.clear lan, .empty .counterReset "lan_coverage_counter_reset" lan.sampleMs)
      | some lanRaw =>
        match clientRaw.fcsNormalized with
        | none => (book.clear lan, coverageWindow .counterSkew "client_fcs_overflow" start lan clientRaw .zero lanRaw
            (lanRaw.fcsNormalized.getD .zero) false false)
        | some clientNormalized =>
          match lanRaw.fcsNormalized with
          | none => (book.clear lan, coverageWindow .counterSkew "lan_fcs_overflow" start lan clientRaw clientNormalized
              lanRaw .zero false false)
          | some lanNormalized =>
            let aligned := fitsLanClock clientRaw lanRaw && fitsLanClock clientNormalized lanNormalized &&
              directionalCoverageReady clientRaw lanRaw && directionalCoverageReady clientNormalized lanNormalized
            if aligned then book.updateAligned start lan clientRaw clientNormalized lanRaw lanNormalized
            else book.updateUnaligned start lan clientRaw clientNormalized lanRaw lanNormalized

end NssCoverageBook

/-! ### The two directions -/

namespace TrafficCounters

def bytes (receive : Bool) (counters : TrafficCounters) : UInt64 :=
  if receive then counters.rxBytes else counters.txBytes

def packets (receive : Bool) (counters : TrafficCounters) : UInt64 :=
  if receive then counters.rxPackets else counters.txPackets

/-- The bytes of a direction with four bytes of checksum for each packet. -/
def wireBytes (receive : Bool) (counters : TrafficCounters) : ℕ :=
  (counters.bytes receive).toNat + 4 * (counters.packets receive).toNat

/-- No counter is below its value in `previous`. -/
def Grown (previous current : TrafficCounters) : Prop :=
  ∀ receive, previous.bytes receive ≤ current.bytes receive ∧ previous.packets receive ≤ current.packets receive

end TrafficCounters

theorem checkedSub64_eq_some {a b c : UInt64} : checkedSub64 a b = some c ↔ b ≤ a ∧ a - b = c := by
  simp [checkedSub64]

theorem checkedMul64_eq_some {a b c : UInt64} (h : checkedMul64 a b = some c) : c.toNat = a.toNat * b.toNat := by
  rw [checkedMul64] at h
  split at h
  · rename_i hlt
    obtain rfl := Option.some.inj h
    rw [UInt64.toNat_mul]
    exact Nat.mod_eq_of_lt hlt
  · cases h

theorem checkedAdd64_eq_some {a b c : UInt64} (h : checkedAdd64 a b = some c) : c.toNat = a.toNat + b.toNat := by
  rw [checkedAdd64] at h
  split at h
  · rename_i hlt
    obtain rfl := Option.some.inj h
    rw [UInt64.toNat_add]
    exact Nat.mod_eq_of_lt hlt
  · cases h

theorem fcsNormalized_eq_some {counters normalized : TrafficCounters} (h : counters.fcsNormalized = some normalized)
    (receive : Bool) : (normalized.bytes receive).toNat = counters.wireBytes receive := by
  simp only [TrafficCounters.fcsNormalized, Option.bind_eq_bind, Option.bind_eq_some_iff] at h
  obtain ⟨txFcs, htxFcs, txBytes, htxBytes, rxFcs, hrxFcs, rxBytes, hrxBytes, h⟩ := h
  obtain rfl := Option.some.inj h
  have htx := checkedAdd64_eq_some htxBytes
  have hrx := checkedAdd64_eq_some hrxBytes
  rw [checkedMul64_eq_some htxFcs, Nat.mul_comm] at htx
  rw [checkedMul64_eq_some hrxFcs, Nat.mul_comm] at hrx
  cases receive
  · exact htx
  · exact hrx

theorem checkedDelta_eq_some {current previous delta : TrafficCounters} (h : checkedDelta current previous = some delta)
    (receive : Bool) :
    previous.bytes receive ≤ current.bytes receive ∧ previous.packets receive ≤ current.packets receive ∧
      delta.bytes receive = current.bytes receive - previous.bytes receive ∧
      delta.packets receive = current.packets receive - previous.packets receive := by
  simp only [checkedDelta, Option.bind_eq_bind, Option.bind_eq_some_iff, checkedSub64_eq_some] at h
  obtain ⟨_, ⟨htx, rfl⟩, _, ⟨hrx, rfl⟩, _, ⟨htxp, rfl⟩, _, ⟨hrxp, rfl⟩, h⟩ := h
  obtain rfl := Option.some.inj h
  cases receive
  · exact ⟨htx, htxp, rfl, rfl⟩
  · exact ⟨hrx, hrxp, rfl, rfl⟩

theorem isSome_checkedDelta {current previous : TrafficCounters} :
    (checkedDelta current previous).isSome ↔ previous.Grown current := by
  constructor
  · intro h receive
    obtain ⟨delta, hdelta⟩ := Option.isSome_iff_exists.1 h
    obtain ⟨hbytes, hpackets, -⟩ := checkedDelta_eq_some hdelta receive
    exact ⟨hbytes, hpackets⟩
  · intro h
    have htx : checkedSub64 current.txBytes previous.txBytes = some _ := if_pos (h false).1
    have hrx : checkedSub64 current.rxBytes previous.rxBytes = some _ := if_pos (h true).1
    have htxp : checkedSub64 current.txPackets previous.txPackets = some _ := if_pos (h false).2
    have hrxp : checkedSub64 current.rxPackets previous.rxPackets = some _ := if_pos (h true).2
    rw [checkedDelta, htx, hrx, htxp, hrxp]
    rfl

theorem wireBytes_checkedDelta {current previous delta : TrafficCounters}
    (h : checkedDelta current previous = some delta) (receive : Bool) :
    delta.wireBytes receive = current.wireBytes receive - previous.wireBytes receive := by
  obtain ⟨hbytes, hpackets, hdelta, hdelta'⟩ := checkedDelta_eq_some h receive
  have hb := UInt64.le_iff_toNat_le.1 hbytes
  have hp := UInt64.le_iff_toNat_le.1 hpackets
  rw [TrafficCounters.wireBytes, hdelta, hdelta', UInt64.toNat_sub_of_le _ _ hbytes,
    UInt64.toNat_sub_of_le _ _ hpackets,
    TrafficCounters.wireBytes, TrafficCounters.wireBytes]
  omega

theorem addAssign_bytes (total value : TrafficCounters) (receive : Bool) :
    ((addAssign total value).bytes receive).toNat =
      min ((total.bytes receive).toNat + (value.bytes receive).toNat) (u64Limit - 1) := by
  cases receive <;> exact saturatingAdd64_toNat ..

theorem addAssign_packets (total value : TrafficCounters) (receive : Bool) :
    ((addAssign total value).packets receive).toNat =
      min ((total.packets receive).toNat + (value.packets receive).toNat) (u64Limit - 1) := by
  cases receive <;> exact saturatingAdd64_toNat ..

theorem percentage_eq_some {numerator denominator : UInt64} {pct : UInt8}
    (h : percentage numerator denominator = some pct) :
    pct.toNat = 100 * numerator.toNat / denominator.toNat ∧ pct.toNat ≤ 100 := by
  rw [percentage] at h
  split at h
  · cases h
  rename_i hnot
  obtain ⟨hzero, hle⟩ := not_or.1 hnot
  have hle' : numerator.toNat ≤ denominator.toNat := UInt64.le_iff_toNat_le.1 (UInt64.not_lt.1 hle)
  have hvalue : saturatingMul128 numerator.toNat 100 / denominator.toNat =
      100 * numerator.toNat / denominator.toNat := by
    rw [saturatingMul128_of_le (toNat_lt _).le (by decide), Nat.mul_comm]
  have hmax : 100 * numerator.toNat / denominator.toNat ≤ 100 :=
    Nat.div_le_of_le_mul (by rw [Nat.mul_comm]; exact Nat.mul_le_mul_right _ hle')
  simp only [hvalue] at h
  rw [if_pos (Nat.lt_of_le_of_lt hmax (by decide))] at h
  obtain rfl := Option.some.inj h
  have hpct : (UInt8.ofNat (100 * numerator.toNat / denominator.toNat)).toNat =
      100 * numerator.toNat / denominator.toNat := UInt8.toNat_ofNat_of_lt (Nat.lt_of_le_of_lt hmax (by decide))
  exact ⟨hpct, hpct.le.trans hmax⟩

/-! ### A step -/

/-- The clock `lan` can be compared with the start of a window. -/
structure Continues (start lan : LanClock) : Prop where
  interface : start.interface = lan.interface
  clock : start.sampleMs < lan.sampleMs
  counters : start.counters.Grown lan.counters

def CoverageWindow.pct (receive : Bool) (window : CoverageWindow) : Option UInt8 :=
  if receive then window.rxPct else window.txPct

/-- The window is kept for another sample. -/
def CoverageWindow.Waits (window : CoverageWindow) : Prop :=
  window.reason = "lan_coverage_pending" ∨ window.reason = "lan_coverage_partial"

theorem coverageWindow_pct (quality : WindowQuality) (reason : String) (start finish : LanClock)
    (clientRaw clientNormalized lanRaw lanNormalized : TrafficCounters) (aligned receive : Bool) :
    (coverageWindow quality reason start finish clientRaw clientNormalized lanRaw lanNormalized aligned true).pct
        receive =
      percentage (clientNormalized.bytes receive) (lanNormalized.bytes !receive) := by
  cases receive <;> rfl

namespace NssCoverageBook

/-- A window starts at `lan`. -/
structure Restarted (book : NssCoverageBook) (lan : LanClock) : Prop where
  atStart : book.start = some lan
  atSince : book.pendingSinceMs = none
  atClient : book.pendingClient = .zero

theorem restarted_rebaseline (book : NssCoverageBook) (lan : LanClock) : Restarted (book.rebaseline lan) lan :=
  ⟨rfl, rfl, rfl⟩

@[simp] theorem withLastReported_pct (book : NssCoverageBook) (coverage : CoverageWindow) (receive : Bool) :
    (book.withLastReported coverage).pct receive = coverage.pct receive := by
  rw [withLastReported]
  split <;> rfl

@[simp] theorem withLastReported_reason (book : NssCoverageBook) (coverage : CoverageWindow) :
    (book.withLastReported coverage).reason = coverage.reason := by
  rw [withLastReported]
  split <;> rfl

theorem noteReported_eq (book : NssCoverageBook) (output : CoverageWindow) :
    ∃ reported, book.noteReported output = { book with lastReported := reported } := by
  rw [noteReported]
  split
  · exact ⟨none, rfl⟩
  · split
    · exact ⟨_, rfl⟩
    · exact ⟨book.lastReported, rfl⟩

/-- The window of `start` goes on. -/
structure Kept (start : LanClock) (since : UInt64) (client : TrafficCounters) (lan : LanClock)
    (book : NssCoverageBook) :
    Prop where
  atStart : book.start = some start
  atSince : book.pendingSinceMs = some since
  atClient : book.pendingClient = client
  continues : Continues start lan
  inTime : ∃ growth, checkedDelta lan.counters start.counters = some growth ∧
    lan.sampleMs.toNat - since.toNat ≤ timeoutMs client growth

/-- What `update` does to a book whose window starts at `start` and whose clients have sent `client` by now. -/
structure Updated (start : LanClock) (since : UInt64) (client : TrafficCounters) (lan : LanClock)
    (result : NssCoverageBook × CoverageWindow) : Prop where
  next : (Restarted result.1 lan ∧ ¬result.2.Waits) ∨ (Kept start since client lan result.1 ∧ result.2.Waits)
  pct : ∀ receive p, result.2.pct receive = some p → Continues start lan ∧ p.toNat ≤ 100 ∧
    p.toNat = 100 * client.wireBytes receive / (lan.counters.wireBytes (!receive) - start.counters.wireBytes (!receive))

section

variable {book : NssCoverageBook} {start lan : LanClock} {since : UInt64} {client clientNormalized lanRaw
  lanNormalized : TrafficCounters}

theorem updated_clear {window : CoverageWindow} (hwaits : ¬window.Waits) (hpct : ∀ receive, window.pct receive = none) :
    Updated start since client lan (book.clear lan, window) where
  next := .inl ⟨⟨rfl, rfl, rfl⟩, hwaits⟩
  pct receive p h := by rw [hpct] at h; cases h

theorem updated_pct {quality : WindowQuality} {reason : String} {aligned receive : Bool} {p : UInt8}
    (hcontinues : Continues start lan) (hclient : client.fcsNormalized = some clientNormalized)
    (hraw : checkedDelta lan.counters start.counters = some lanRaw) (hlan : lanRaw.fcsNormalized = some lanNormalized)
    (h : (coverageWindow quality reason start lan client clientNormalized lanRaw lanNormalized aligned true).pct
        receive =
      some p) :
    Continues start lan ∧ p.toNat ≤ 100 ∧ p.toNat =
      100 * client.wireBytes receive / (lan.counters.wireBytes (!receive) - start.counters.wireBytes (!receive)) := by
  rw [coverageWindow_pct] at h
  obtain ⟨hvalue, hmax⟩ := percentage_eq_some h
  rw [fcsNormalized_eq_some hclient, fcsNormalized_eq_some hlan, wireBytes_checkedDelta hraw] at hvalue
  exact ⟨hcontinues, hmax, hvalue⟩

theorem updated_aligned (hstart : book.start = some start) (hsince : book.pendingSinceMs.getD lan.sampleMs = since)
    (hpending : book.pendingClient = client) (hcontinues : Continues start lan)
    (hclient : client.fcsNormalized = some clientNormalized)
    (hraw : checkedDelta lan.counters start.counters = some lanRaw) (hlan : lanRaw.fcsNormalized = some lanNormalized) :
    Updated start since client lan (book.updateAligned start lan client clientNormalized lanRaw lanNormalized) where
  next := by
    subst hsince
    cases hown : ownershipReady clientNormalized lanNormalized with
    | true =>
      refine .inl ⟨?_, ?_⟩
      · simp only [updateAligned, hown, Bool.true_or, if_true]
        exact restarted_rebaseline _ lan
      · simp [updateAligned, hown, CoverageWindow.Waits, coverageWindow]
    | false =>
      by_cases htime : timeoutMs client lanRaw < lan.sampleMs.toNat - (book.pendingSinceMs.getD lan.sampleMs).toNat
      · refine .inl ⟨?_, ?_⟩
        · simp only [updateAligned, hown, Bool.not_false, Bool.true_and, htime, decide_true, Bool.or_true, if_true]
          exact restarted_rebaseline _ lan
        · simp [updateAligned, hown, htime, CoverageWindow.Waits, coverageWindow]
      · refine .inr ⟨?_, ?_⟩
        · simp only [updateAligned, hown, Bool.not_false, Bool.true_and, htime, decide_false, Bool.or_self,
            Bool.false_eq_true, if_false]
          obtain ⟨reported, hreported⟩ := noteReported_eq
            { book with pendingSinceMs := some (book.pendingSinceMs.getD lan.sampleMs) } _
          rw [hreported]
          exact ⟨hstart, rfl, hpending, hcontinues, lanRaw, hraw, Nat.not_lt.1 htime⟩
        · simp [updateAligned, hown, htime, CoverageWindow.Waits, coverageWindow]
  pct receive p h := updated_pct hcontinues hclient hraw hlan h

theorem updated_unaligned (hstart : book.start = some start) (hsince : book.pendingSinceMs.getD lan.sampleMs = since)
    (hpending : book.pendingClient = client) (hcontinues : Continues start lan)
    (hclient : client.fcsNormalized = some clientNormalized)
    (hraw : checkedDelta lan.counters start.counters = some lanRaw) (hlan : lanRaw.fcsNormalized = some lanNormalized) :
    Updated start since client lan (book.updateUnaligned start lan client clientNormalized lanRaw lanNormalized) := by
  subst hsince
  rw [updateUnaligned]
  split
  · rename_i htime
    refine ⟨.inr ⟨⟨hstart, rfl, hpending, hcontinues, lanRaw, hraw, htime⟩, ?_⟩, fun receive p h => ?_⟩
    · exact .inl (withLastReported_reason ..)
    · rw [withLastReported_pct] at h
      exact updated_pct hcontinues hclient hraw hlan h
  · refine ⟨.inl ⟨restarted_rebaseline _ lan, ?_⟩, fun receive p h => ?_⟩
    · split <;> simp [CoverageWindow.Waits, coverageWindow]
    · have hwindow : ∃ quality reason, (coverageWindow quality reason start lan client clientNormalized lanRaw
          lanNormalized false true).pct receive = some p := by
        split at h
        · exact ⟨_, _, withLastReported_pct .. ▸ h⟩
        · exact ⟨_, _, withLastReported_pct .. ▸ h⟩
      obtain ⟨quality, reason, hwindow⟩ := hwindow
      exact updated_pct hcontinues hclient hraw hlan hwindow

theorem update_some (hstart : book.start = some start) (clientDelta : TrafficCounters) (lan : LanClock) :
    Updated start (book.pendingSinceMs.getD lan.sampleMs) (addAssign book.pendingClient clientDelta) lan
      (book.update clientDelta lan) := by
  rw [update, hstart]
  dsimp only
  have hempty (quality : WindowQuality) (reason : String) (receive : Bool) :
      (CoverageWindow.empty quality reason lan.sampleMs).pct receive = none := by cases receive <;> rfl
  split
  · exact updated_clear (by simp [CoverageWindow.Waits, CoverageWindow.empty]) (hempty _ _)
  rename_i hinterface
  split
  · exact updated_clear (by simp [CoverageWindow.Waits, CoverageWindow.empty]) (hempty _ _)
  rename_i hclock
  split
  · exact updated_clear (by simp [CoverageWindow.Waits, CoverageWindow.empty]) (hempty _ _)
  rename_i lanRaw hraw
  have hcontinues : Continues start lan :=
    ⟨not_not.1 hinterface, UInt64.not_le.1 hclock, isSome_checkedDelta.1 (Option.isSome_of_eq_some hraw)⟩
  split
  · exact updated_clear (by simp [CoverageWindow.Waits, coverageWindow]) fun receive => by cases receive <;> rfl
  rename_i clientNormalized hclient
  split
  · exact updated_clear (by simp [CoverageWindow.Waits, coverageWindow]) fun receive => by cases receive <;> rfl
  rename_i lanNormalized hlan
  split
  · exact updated_aligned rfl rfl rfl hcontinues hclient hraw hlan
  · exact updated_unaligned rfl rfl rfl hcontinues hclient hraw hlan

end

theorem Kept.not_restarted {book : NssCoverageBook} {start lan : LanClock} {since : UInt64} {client : TrafficCounters}
    (h : Kept start since client lan book) : ¬Restarted book lan := fun hrestarted => by
  have hstart : start = lan := Option.some.inj (h.atStart.symm.trans hrestarted.atStart)
  exact UInt64.lt_irrefl _ (hstart ▸ h.continues.clock)

/-! ### Runs -/

structure Sample where
  clientDelta : TrafficCounters
  lan : LanClock

def step (book : NssCoverageBook) (sample : Sample) : NssCoverageBook := (book.update sample.clientDelta sample.lan).1
def output (book : NssCoverageBook) (sample : Sample) : CoverageWindow := (book.update sample.clientDelta sample.lan).2
def run (samples : List Sample) : NssCoverageBook := samples.foldl step {}

theorem run_concat (samples : List Sample) (sample : Sample) : run (samples ++ [sample]) = (run samples).step sample :=
  List.foldl_concat ..

/-- `first` is the last of the samples at which a window started: the window waited at all that came after it. -/
structure WindowOf (samples pre : List Sample) (first : Sample) (rest : List Sample) : Prop where
  split : samples = pre ++ first :: rest
  starts : Restarted ((run pre).step first) first.lan
  waits : ∀ m sample t, rest = m ++ sample :: t → ((run (pre ++ first :: m)).output sample).Waits ∧
    ¬Restarted ((run (pre ++ first :: m)).step sample) sample.lan

/-- The first of the samples at which the window waits. -/
def waitsSince (rest : List Sample) (sample : Sample) : UInt64 := ((rest ++ [sample]).headD sample).lan.sampleMs

def clientTraffic (samples : List Sample) : TrafficCounters := sum (samples.map Sample.clientDelta)

structure Tracks (first : Sample) (rest : List Sample) (book : NssCoverageBook) : Prop where
  start : book.start = some first.lan
  since : ∀ sample, book.pendingSinceMs.getD sample.lan.sampleMs = waitsSince rest sample
  client : book.pendingClient = clientTraffic rest

theorem Restarted.tracks {book : NssCoverageBook} {first : Sample} (h : Restarted book first.lan) :
    Tracks first [] book where
  start := h.atStart
  since sample := by rw [h.atSince]; rfl
  client := h.atClient

theorem waitsSince_concat (rest : List Sample) (sample next : Sample) :
    waitsSince (rest ++ [sample]) next = waitsSince rest sample := by
  cases rest <;> rfl

theorem clientTraffic_concat (rest : List Sample) (sample : Sample) :
    clientTraffic (rest ++ [sample]) = addAssign (clientTraffic rest) sample.clientDelta := by
  rw [clientTraffic, List.map_append, sum, List.foldl_append]
  rfl

theorem Kept.tracks {first sample : Sample} {rest : List Sample} {book : NssCoverageBook}
    (h : Kept first.lan (waitsSince rest sample) (clientTraffic (rest ++ [sample])) sample.lan book) :
    Tracks first (rest ++ [sample]) book where
  start := h.atStart
  since next := by rw [h.atSince, waitsSince_concat]; rfl
  client := h.atClient

theorem WindowOf.concat {samples pre rest : List Sample} {first sample : Sample} (h : WindowOf samples pre first rest)
    (hwaits : ((run samples).output sample).Waits) (hkept : ¬Restarted ((run samples).step sample) sample.lan) :
    WindowOf (samples ++ [sample]) pre first (rest ++ [sample]) where
  split := by rw [h.split, List.append_assoc]; rfl
  starts := h.starts
  waits m s t ht := by
    rcases t.eq_nil_or_concat with rfl | ⟨t, last, rfl⟩
    · obtain ⟨rfl, hs⟩ := List.append_inj' ht rfl
      obtain rfl := List.singleton_inj.1 hs
      rw [← h.split]
      exact ⟨hwaits, hkept⟩
    · rw [List.concat_eq_append, ← List.cons_append, ← List.append_assoc] at ht
      obtain ⟨ht, -⟩ := List.append_inj' ht rfl
      exact h.waits m s t ht

/-- The windows of a run, by induction from its end. -/
theorem exists_window (samples : List Sample) (hne : samples ≠ []) :
    ∃ pre first rest, WindowOf samples pre first rest ∧ Tracks first rest (run samples) := by
  induction samples using List.reverseRecOn with
  | nil => exact absurd rfl hne
  | append_singleton samples sample ih =>
    rw [run_concat]
    have hnew (h : Restarted ((run samples).step sample) sample.lan) :
        ∃ pre first rest, WindowOf (samples ++ [sample]) pre first rest ∧
          Tracks first rest ((run samples).step sample) :=
      ⟨samples, sample, [], ⟨rfl, h, fun m s t h => by simp at h⟩, h.tracks⟩
    by_cases hsamples : samples = []
    · subst hsamples
      exact hnew ⟨rfl, rfl, rfl⟩
    · obtain ⟨pre, first, rest, hwindow, htracks⟩ := ih hsamples
      have hupdated := update_some htracks.start sample.clientDelta sample.lan
      rw [htracks.since sample, htracks.client, ← clientTraffic_concat] at hupdated
      rcases hupdated.next with ⟨hrestarted, -⟩ | ⟨hkept, hwaits⟩
      · exact hnew hrestarted
      · exact ⟨pre, first, rest ++ [sample], hwindow.concat hwaits hkept.not_restarted, hkept.tracks⟩

/-- The bytes that the clients sent, with the checksums of their packets; a counter stops at its largest value. -/
def clientBytes (receive : Bool) (samples : List Sample) : ℕ :=
  min (samples.map fun sample => (sample.clientDelta.bytes receive).toNat).sum (u64Limit - 1) +
    4 * min (samples.map fun sample => (sample.clientDelta.packets receive).toNat).sum (u64Limit - 1)

theorem wireBytes_clientTraffic (receive : Bool) (samples : List Sample) :
    (clientTraffic samples).wireBytes receive = clientBytes receive samples := by
  have hadd (a b c : ℕ) : min (min a c + b) c = min (a + b) c := by omega
  have h : ((clientTraffic samples).bytes receive).toNat =
      min (samples.map fun sample => (sample.clientDelta.bytes receive).toNat).sum (u64Limit - 1) ∧
      ((clientTraffic samples).packets receive).toNat =
        min (samples.map fun sample => (sample.clientDelta.packets receive).toNat).sum (u64Limit - 1) := by
    induction samples using List.reverseRecOn with
    | nil => cases receive <;> decide
    | append_singleton samples sample ih =>
      rw [clientTraffic_concat, List.map_append, List.sum_append, List.map_append, List.sum_append]
      have hbytes := addAssign_bytes (clientTraffic samples) sample.clientDelta receive
      have hpackets := addAssign_packets (clientTraffic samples) sample.clientDelta receive
      rw [ih.1, hadd] at hbytes
      rw [ih.2, hadd] at hpackets
      exact ⟨hbytes, hpackets⟩
  rw [TrafficCounters.wireBytes, h.1, h.2]
  rfl

/-- What a sample says of the window of `first`, at which the samples of `rest` waited. -/
structure Honest (first : Sample) (rest : List Sample) (sample : Sample) (result : NssCoverageBook × CoverageWindow) :
    Prop where
  pct : ∀ receive p, result.2.pct receive = some p → p.toNat ≤ 100 ∧
    p.toNat = 100 * clientBytes receive (rest ++ [sample]) /
    (sample.lan.counters.wireBytes (!receive) - first.lan.counters.wireBytes (!receive))
  restarts : ¬Continues first.lan sample.lan → Restarted result.1 sample.lan
  inTime : result.2.Waits → ∃ growth, checkedDelta sample.lan.counters first.lan.counters = some growth ∧
    sample.lan.sampleMs.toNat - (waitsSince rest sample).toNat ≤ timeoutMs (clientTraffic (rest ++ [sample])) growth
  waitsOrRestarts : result.2.Waits ∨ Restarted result.1 sample.lan

/-- In every run the windows are what they say they are. -/
theorem update_honest (samples : List Sample) (sample : Sample) :
    (samples = [] ∧ (∀ receive, ((run samples).output sample).pct receive = none) ∧
      Restarted ((run samples).step sample) sample.lan) ∨
    ∃ pre first rest, WindowOf samples pre first rest ∧
      Honest first rest sample ((run samples).update sample.clientDelta sample.lan) := by
  by_cases hsamples : samples = []
  · subst hsamples
    exact .inl ⟨rfl, fun receive => by cases receive <;> rfl, rfl, rfl, rfl⟩
  · obtain ⟨pre, first, rest, hwindow, htracks⟩ := exists_window samples hsamples
    have hupdated := update_some htracks.start sample.clientDelta sample.lan
    rw [htracks.since sample, htracks.client, ← clientTraffic_concat] at hupdated
    refine .inr ⟨pre, first, rest, hwindow, fun receive p h => ?_, fun h => ?_, fun h => ?_, ?_⟩
    · obtain ⟨-, hmax, hvalue⟩ := hupdated.pct receive p h
      rw [wireBytes_clientTraffic] at hvalue
      exact ⟨hmax, hvalue⟩
    · rcases hupdated.next with ⟨hrestarted, -⟩ | ⟨hkept, -⟩
      · exact hrestarted
      · exact absurd hkept.continues h
    · rcases hupdated.next with ⟨-, hwaits⟩ | ⟨hkept, -⟩
      · exact absurd h hwaits
      · exact hkept.inTime
    · rcases hupdated.next with ⟨hrestarted, -⟩ | ⟨-, hwaits⟩
      · exact .inr hrestarted
      · exact .inl hwaits

def fallingSample (sampleMs rxBytes : UInt64) : Sample :=
  ⟨.zero, "br-lan", sampleMs, { TrafficCounters.zero with rxBytes }⟩

/-- A counter of the LAN that falls, but not below its value at the start of the window, does not end the window. -/
theorem update_keeps_fallen :
    ¬(fallingSample 2000 1000000).lan.counters.Grown (fallingSample 3000 500000).lan.counters ∧
      ¬Restarted ((run [fallingSample 1000 0, fallingSample 2000 1000000]).step (fallingSample 3000 500000))
        (fallingSample 3000 500000).lan :=
  ⟨fun h => absurd (h true).1 (by decide), fun h => absurd h.atStart (by decide +kernel)⟩

end NssCoverageBook

end Lanspeedd.RateWindow
