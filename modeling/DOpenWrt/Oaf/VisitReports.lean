import Mathlib.Data.List.Forall2
import DOpenWrt.Lib.Run
import DOpenWrt.Oaf.VisitTable

/-!
# What the reports of a client add up to

Over any run of packets, visits and ticks each report is about the visits, the traffic and the activity of its own
interval. A report is what is built; it is lost with all it is about if its text is too long to go out.
-/

namespace Oaf
open CString (str printInt decimal)

/-- A run of a client: its reports and which of their texts went to netlink, the visits that each report is about, those
since the last one, and the traffic at each tick of the timer. -/
structure Trace where
  node : AfClientNode
  reports : List VisitReport := []
  messages : List (List UInt8) := []
  intervals : List (List Visit) := []
  visits : List Visit := []
  samples : List FlowStat := []

def Trace.handle (t : Trace) (event : ClientEvent) : Trace :=
  let (node, report) := t.node.handle event
  match event, report with
  | .visit appId drop now, _ => { t with node, visits := t.visits ++ [⟨appId, drop, now⟩] }
  | .timer _, some (report, message) => { t with
      node
      reports := t.reports ++ [report]
      messages := t.messages ++ message.toList
      intervals := t.intervals ++ [t.visits]
      visits := []
      samples := t.samples ++ [t.node.flow] }
  | .timer _, none => { t with node, samples := t.samples ++ [t.node.flow] }
  | _, _ => { t with node }

/-- A run from the client's creation on. -/
def runClient (mac : Mac) (events : List ClientEvent) : Trace := events.foldl Trace.handle { node := { mac } }

def ClientEvent.visit? : ClientEvent → Option Visit
  | .visit appId drop now => some ⟨appId, drop, now⟩
  | _ => none

/-! ### A tick -/

namespace Trace

variable {t : Trace} {now : UInt32}

def report (t : Trace) (now : UInt32) : Trace where
  node := { (visitReport t.node now).1 with timerCount := 0 }
  reports := t.reports ++ [(visitReport t.node now).2]
  messages := t.messages ++ (afSendMsgToUser (visitReport t.node now).2.text).toList
  intervals := t.intervals ++ [t.visits]
  visits := []
  samples := t.samples

def tick (t : Trace) : Trace where
  node := { updateClientStatus t.node with timerCount := t.node.timerCount + 1 }
  reports := t.reports
  messages := t.messages
  intervals := t.intervals
  visits := t.visits
  samples := t.samples ++ [t.node.flow]

theorem updateClientStatus_timerCount (node : AfClientNode) :
    (updateClientStatus node).timerCount = node.timerCount := by
  rw [updateClientStatus]
  dsimp only
  split
  · rfl
  · rfl

theorem handle_timer (t : Trace) (now : UInt32) :
    t.handle (.timer now) = if 30 ≤ t.node.timerCount then (t.report now).tick else t.tick := by
  rw [handle, AfClientNode.handle, clientTimerHandler]
  by_cases hdue : 30 ≤ t.node.timerCount
  · rw [if_pos hdue, if_pos hdue, report, tick, afVisitInfoReport]
    have hflow : (visitReport t.node now).1.flow = t.node.flow := rfl
    generalize visitReport t.node now = reported at hflow ⊢
    simp only [updateClientStatus_timerCount, hflow]
  · rw [if_neg hdue, if_neg hdue, tick]
    simp only [updateClientStatus_timerCount]

/-- What packets, visits, reports and the ticks between two reports keep, a run keeps. -/
theorem invariant {I : Trace → Prop} {mac : Mac} (hstart : I { node := { mac } })
    (haddress : ∀ t ip, I t → I (t.handle (.address ip))) (hup : ∀ t len, I t → I (t.handle (.up len)))
    (hdown : ∀ t len, I t → I (t.handle (.down len)))
    (hvisit : ∀ t appId drop now, I t → I (t.handle (.visit appId drop now)))
    (hreport : ∀ t now, I t → 30 ≤ t.node.timerCount → I (t.report now))
    (htick : ∀ t, I t → t.node.timerCount < 30 → I t.tick) (events : List ClientEvent) :
    I (runClient mac events) := by
  refine @Run.invariant _ _ _ _ (fun _ t => I t) (fun _ t event h => ?_) [] hstart events
  cases event with
  | address ip => exact haddress t ip h
  | up len => exact hup t len h
  | down len => exact hdown t len h
  | visit appId drop now => exact hvisit t appId drop now h
  | timer now =>
    rw [handle_timer]
    split
    · rename_i hdue
      exact htick _ (hreport t now h hdue) (Nat.succ_pos 29)
    · rename_i hnot
      exact htick t h (Nat.not_le.1 hnot)

end Trace

/-! ### The visits of a report -/

/-- What a report says of the visits it is about: each application once, with its latest action, and all of them if
there are slots for them. -/
structure Reports (visits : List Visit) (report : VisitReport) : Prop where
  nodup : (report.visits.map Prod.fst).Nodup
  latest : ∀ entry ∈ report.visits,
    (∃ visit ∈ visits, visit.appId = entry.1) ∧ entry.2 = latestAction visits entry.1
  complete : (owners visits).length < maxRecordAppNum → report.visits = reportedVisits visits

theorem getLast?_filter {α : Type*} {l : List α} {a : α} {p : α → Bool} (h : l.getLast? = some a) (ha : p a = true) :
    (l.filter p).getLast? = some a := by
  obtain ⟨front, rfl⟩ := List.getLast?_eq_some_iff.1 h
  rw [List.filter_append, List.filter_cons_of_pos ha, List.filter_nil, List.getLast?_concat]

/-- What a slot says of its last visit is so of the visits to this application. -/
theorem summary_visitsAt {visits : List Visit} {i : ℕ} (hne : visitsAt visits i ≠ []) :
    ∃ visit ∈ visits, visit.appId = (summary (visitsAt visits i)).appId ∧ slotOf (owners visits) visit.appId = i ∧
      (summary (visitsAt visits i)).latestAction = latestAction visits visit.appId := by
  obtain ⟨last, hlast⟩ := Option.ne_none_iff_exists'.1 (mt List.getLast?_eq_none_iff.1 hne)
  obtain ⟨hmem, hslot⟩ := mem_visitsAt.1 (List.mem_of_getLast? hlast)
  have hsame : visits.filter (fun visit => visit.appId = last.appId) =
      (visitsAt visits i).filter fun visit => visit.appId = last.appId := by
    rw [visitsAt, List.filter_filter]
    refine List.filter_congr fun visit _ => ?_
    by_cases h : visit.appId = last.appId
    · simp [h, hslot]
    · simp [h]
  refine ⟨last, hmem, ?_, hslot, ?_⟩
  · rw [summary, hlast]
  · rw [latestAction, hsame, getLast?_filter hlast (by simp), summary, hlast]
    rfl

theorem reports_visitReport {node : AfClientNode} {visits : List Visit} (htable : node.visitInfo = tableOf visits)
    (hvisits : ∀ v ∈ visits, v.appId ≠ 0) (now : UInt32) : Reports visits (visitReport node now).2 := by
  -- a slot that is reported has not been flushed
  have hslot (i : Fin maxRecordAppNum) (h : (flushExpiredVisitInfo node.visitInfo now i).appId ≠ 0) :
      flushExpiredVisitInfo node.visitInfo now i = summary (visitsAt visits i) ∧ visitsAt visits i ≠ [] := by
    have hkept : flushExpiredVisitInfo node.visitInfo now i = summary (visitsAt visits i) := by
      rw [(flushExpiredVisitInfo_apply node.visitInfo now i).resolve_right fun hfree => h (by rw [hfree]), htable,
        tableOf]
    refine ⟨hkept, fun hnil => h ?_⟩
    rw [hkept, hnil]
    rfl
  have hlist : (visitReport node now).2.visits =
      ((List.finRange maxRecordAppNum).filter fun i => (flushExpiredVisitInfo node.visitInfo now i).appId ≠ 0).map
        fun i => ((flushExpiredVisitInfo node.visitInfo now i).appId,
          (flushExpiredVisitInfo node.visitInfo now i).latestAction) := by
    rw [visitReport]
  refine ⟨?_, fun entry hentry => ?_, fun hroom => visitReport_visits htable hvisits hroom now⟩
  · rw [hlist, List.map_map]
    refine List.Nodup.map_on (fun i hi j hj heq => ?_) ((List.nodup_finRange _).filter _)
    obtain ⟨hi, hinil⟩ := hslot i (of_decide_eq_true (List.mem_filter.1 hi).2)
    obtain ⟨hj, hjnil⟩ := hslot j (of_decide_eq_true (List.mem_filter.1 hj).2)
    obtain ⟨v, -, hv, hvi, -⟩ := summary_visitsAt hinil
    obtain ⟨w, -, hw, hwj, -⟩ := summary_visitsAt hjnil
    dsimp only [Function.comp] at heq
    have hsame : v.appId = w.appId := by rw [hv, hw, ← hi, ← hj, heq]
    exact Fin.ext (hvi.symm.trans (hsame ▸ hwj))
  · rw [hlist] at hentry
    obtain ⟨i, hi, rfl⟩ := List.mem_map.1 hentry
    obtain ⟨hi, hnil⟩ := hslot i (of_decide_eq_true (List.mem_filter.1 hi).2)
    obtain ⟨visit, hvisit, hid, -, haction⟩ := summary_visitsAt hnil
    rw [hi, ← hid]
    exact ⟨⟨visit, hvisit, rfl⟩, haction⟩

/-! ### The text of a report -/

section Text

variable {report : VisitReport} {n : UInt32} {lo hi : ℕ}

theorem length_decimal_byte (b : UInt8) : 1 ≤ (decimal b.toNat).length ∧ (decimal b.toNat).length ≤ 3 := by
  have hlt : b.toNat < 10 ^ 3 := (UInt8.toNat_lt b).trans (by decide)
  exact ⟨List.length_pos_of_ne_nil (CString.decimal_ne_nil _), (CString.length_decimal_le_iff (by decide)).2 hlt⟩

theorem length_jsonNumber (n : UInt32) : 1 ≤ (jsonNumber n).length ∧ (jsonNumber n).length ≤ 11 := by
  have hmin := Int32.le_toInt n.toInt32
  have hmax := Int32.toInt_lt n.toInt32
  have hdigits : (decimal n.toInt32.toInt.natAbs).length ≤ 10 :=
    (CString.length_decimal_le_iff (by decide)).2 (by omega)
  have hpos := List.length_pos_of_ne_nil (CString.decimal_ne_nil n.toInt32.toInt.natAbs)
  rw [jsonNumber, printInt, List.length_append]
  split_ifs
  · rw [List.length_singleton]
    omega
  · rw [List.length_nil]
    omega

/-- Parts of a length between two bounds, with a separator of one byte. -/
theorem length_intercalate {sep : List UInt8} (hsep : sep.length = 1) {parts : List (List UInt8)}
    (h : ∀ part ∈ parts, lo ≤ part.length ∧ part.length ≤ hi) :
    (lo + 1) * parts.length ≤ (sep.intercalate parts).length + 1 ∧
      (sep.intercalate parts).length ≤ (hi + 1) * parts.length := by
  induction parts with
  | nil => exact ⟨Nat.zero_le _, Nat.le_refl _⟩
  | cons part parts ih =>
    obtain ⟨hpart, hparts⟩ := List.forall_mem_cons.1 h
    rcases eq_or_ne parts [] with rfl | hne
    · rw [List.intercalate_singleton, List.length_singleton]
      omega
    · have hrest := ih hparts
      rw [List.intercalate_cons_of_ne_nil hne, List.length_append, List.length_append, hsep, List.length_cons,
        Nat.mul_succ, Nat.mul_succ]
      omega

theorem length_macText (mac : Mac) : mac.text.length = 17 := rfl

theorem length_ipText (ip : Ipv4) : 7 ≤ ip.text.length ∧ ip.text.length ≤ 15 := by
  have h0 := length_decimal_byte ip.b0
  have h1 := length_decimal_byte ip.b1
  have h2 := length_decimal_byte ip.b2
  have h3 := length_decimal_byte ip.b3
  have hlen : ip.text.length = (decimal ip.b0.toNat).length + (decimal ip.b1.toNat).length +
      (decimal ip.b2.toNat).length + (decimal ip.b3.toNat).length + 3 := by
    simp [Ipv4.text, List.intercalate, str]
    omega
  omega

theorem length_visitText (visit : UInt32 × UInt32) : 29 ≤ (visitText visit).length ∧ (visitText visit).length ≤ 49 := by
  have hid := length_jsonNumber visit.1
  have haction := length_jsonNumber visit.2
  have hlen : (visitText visit).length = 27 + (jsonNumber visit.1).length + (jsonNumber visit.2).length := by
    simp [visitText, str]
    omega
  omega

/-- Some hundred bytes, and thirty to fifty for each application. -/
theorem length_text (report : VisitReport) : 107 + 30 * report.visits.length ≤ report.text.length + 1 ∧
    report.text.length ≤ 156 + 50 * report.visits.length := by
  have hip := length_ipText report.ip
  have hnum := length_jsonNumber report.appNum
  have hup := length_jsonNumber report.upFlow
  have hdown := length_jsonNumber report.downFlow
  have hactive : (jsonNumber (if report.active then 1 else 0)).length = 1 := by
    cases report.active <;> rfl
  have hvisits := @length_intercalate 29 49 (str ",") rfl (report.visits.map visitText) fun part hpart => by
    obtain ⟨visit, -, rfl⟩ := List.mem_map.1 hpart
    exact length_visitText visit
  rw [List.length_map] at hvisits
  have hlen : report.text.length = 97 + report.ip.text.length + (jsonNumber report.appNum).length +
      (jsonNumber report.upFlow).length + (jsonNumber report.downFlow).length +
      ((str ",").intercalate (report.visits.map visitText)).length := by
    rw [VisitReport.text]
    simp only [List.length_append, length_macText, hactive]
    have hkeys : (str "\x7b\"mac\":\"").length + (str "\",\"ip\":\"").length + (str "\",\"app_num\":").length +
      (str ",\"up_flow\":").length + (str ",\"down_flow\":").length + (str ",\"active\":").length +
      (str ",\"visit_info\":[").length + (str "]\x7d").length = 79 := rfl
    omega
  omega

theorem length_visits (node : AfClientNode) (now : UInt32) :
    (visitReport node now).2.visits.length ≤ maxRecordAppNum := by
  rw [visitReport]
  dsimp only
  rw [List.length_map]
  exact (List.length_filter_le _ _).trans (List.length_finRange).le

/-- The length of a text does not wrap. -/
theorem afSendMsgToUser_text (h : report.visits.length ≤ maxRecordAppNum) : afSendMsgToUser report.text =
    if report.text.length < maxOafNlMsgLen then some report.text else none := by
  have hlen := (length_text report).2
  rw [maxRecordAppNum] at h
  have hmod : report.text.length % 2 ^ 16 = report.text.length := Nat.mod_eq_of_lt (by omega)
  rw [afSendMsgToUser, hmod, List.take_length]
  by_cases hfits : report.text.length < maxOafNlMsgLen
  · rw [if_neg (Nat.not_le.2 hfits), if_pos hfits]
  · rw [if_pos (Nat.not_lt.1 hfits), if_neg hfits]

example : VisitReport.text ⟨⟨2, 0, 0, 0, 0, 0x1f⟩, ⟨192, 168, 1, 2⟩, 0, 12, 345, true, [(8001, 0), (8002, 1)]⟩ =
    str "\x7b\"mac\":\"02:00:00:00:00:1f\",\"ip\":\"192.168.1.2\",\"app_num\":0,\"up_flow\":12,\"down_flow\":345," ++
      str "\"active\":1,\"visit_info\":[\x7b\"appid\":8001,\"latest_action\":0\x7d," ++
      str "\x7b\"appid\":8002,\"latest_action\":1\x7d]\x7d" := by decide +kernel

end Text

/-! ### Samples -/

section Samples

variable {β γ : Type*} {n : ℕ} {say : List β → γ} {samples : List β} {said : List γ}

/-- Something is said after every `n` samples, each time about the samples so far. -/
def Periodic (n : ℕ) (say : List β → γ) (samples : List β) (said : List γ) : Prop :=
  said = (List.range said.length).map fun i => say (samples.take (n * (i + 1)))

theorem Periodic.sample (h : Periodic n say samples said) (hlen : n * said.length ≤ samples.length) (more : List β) :
    Periodic n say (samples ++ more) said := by
  refine h.trans (List.map_congr_left fun i hi => ?_)
  have hle : n * (i + 1) ≤ samples.length := (Nat.mul_le_mul_left n (List.mem_range.1 hi)).trans hlen
  rw [List.take_append_of_le_length hle]

theorem Periodic.concat (h : Periodic n say samples said) (hlen : samples.length = n * (said.length + 1)) :
    Periodic n say samples (said ++ [say samples]) := by
  rw [Periodic, List.length_append, List.length_singleton, List.range_succ, List.map_append, ← h, List.map_singleton,
    ← hlen, List.take_length]

/-- The part of a counter that enters the reports: all that comes after its first value but zero. -/
def counted (samples : List ℕ) : ℕ := samples.getLast?.getD 0 - (samples.find? fun s => 0 < s).getD 0

theorem counted_concat {samples : List ℕ} {last next : ℕ} (hlast : samples.getLast?.getD 0 = last)
    (hle : ∀ s ∈ samples, s ≤ last) (hnext : last ≤ next) :
    counted (samples ++ [next]) = counted samples + if 0 < last then next - last else 0 := by
  rw [counted, counted, hlast, List.getLast?_concat, Option.getD_some, List.find?_append]
  cases hfind : samples.find? fun s => 0 < s with
  | none =>
    have hzero : last = 0 := by
      cases hget : samples.getLast? with
      | none =>
        rw [hget] at hlast
        exact hlast.symm
      | some s =>
        rw [hget] at hlast
        have hs := List.find?_eq_none.1 hfind s (List.mem_of_getLast? hget)
        have hs : s = 0 := by simpa using hs
        exact hlast.symm.trans hs
    rw [hzero, if_neg (Nat.lt_irrefl 0), Option.none_or, List.find?_singleton]
    by_cases hpos : 0 < next
    · simp [hpos]
    · simp [Nat.eq_zero_of_not_pos hpos]
  | some first =>
    have hfirst : 0 < first := by simpa using List.find?_some hfind
    have hfirstLe := hle first (List.mem_of_find?_eq_some hfind)
    rw [Option.some_or, Option.getD_some, if_pos (hfirst.trans_le hfirstLe)]
    omega

/-- What a report says of a counter. -/
def flowReport (counter : FlowStat → ℕ) (samples : List FlowStat) : UInt32 :=
  let total := counted (samples.map counter)
  UInt32.ofNat ((total - counted ((samples.take (samples.length - 30)).map counter)) / 1024)

/-- Of two ticks in a row: whether the client was active between them. -/
def busy (last next : FlowStat) : Bool :=
  10 < UInt32.ofNat ((next.downPkts - last.downPkts) / 2) || 5 < UInt32.ofNat ((next.upPkts - last.upPkts) / 2)

def busyTicks (last : FlowStat) : List FlowStat → List Bool
  | [] => []
  | next :: samples => busy last next :: busyTicks next samples

/-- Whether one of the last 31 ticks was busy. -/
def recentlyBusy (samples : List FlowStat) : Bool := ((busyTicks {} samples).reverse.take 31).contains true

theorem busyTicks_concat (last : FlowStat) (samples : List FlowStat) (next : FlowStat) :
    busyTicks last (samples ++ [next]) = busyTicks last samples ++ [busy (samples.getLast?.getD last) next] := by
  induction samples generalizing last with
  | nil => rfl
  | cons sample samples ih =>
    rw [List.cons_append, busyTicks, ih, busyTicks, List.cons_append, List.getLast?_cons, Option.getD_some]

theorem contains_take_iff (l : List Bool) (n : ℕ) :
    (l.take n).contains true = (l.contains true && decide ((l.takeWhile (! ·)).length < n)) := by
  induction l generalizing n with
  | nil => simp
  | cons b l ih =>
    cases n with
    | zero => simp
    | succ n =>
      cases b with
      | true => simp
      | false => simpa using ih n

end Samples

/-! ### Runs -/

theorem updateClientStatus_eq (node : AfClientNode) :
    (updateClientStatus node).flow = node.flow ∧ (updateClientStatus node).lastFlow = node.flow ∧
      (updateClientStatus node).visitInfo = node.visitInfo ∧
      (updateClientStatus node).periodFlow.upBytes = node.periodFlow.upBytes +
        (if 0 < node.lastFlow.upBytes then node.flow.upBytes - node.lastFlow.upBytes else 0) ∧
      (updateClientStatus node).periodFlow.downBytes = node.periodFlow.downBytes +
        (if 0 < node.lastFlow.downBytes then node.flow.downBytes - node.lastFlow.downBytes else 0) := by
  have hperiod (last period more : ℕ) :
      (if 0 < last then period + more else period) = period + if 0 < last then more else 0 := by
    split
    · rfl
    · rfl
  rw [updateClientStatus]
  dsimp only
  split
  · exact ⟨rfl, rfl, rfl, hperiod .., hperiod ..⟩
  · exact ⟨rfl, rfl, rfl, hperiod .., hperiod ..⟩

theorem updateClientStatus_active (node : AfClientNode) :
    (updateClientStatus node).active =
      (busy node.lastFlow node.flow || node.active && decide (node.inactiveTime + 1 ≤ 30)) ∧
    (updateClientStatus node).inactiveTime = if busy node.lastFlow node.flow then 0 else node.inactiveTime + 1 := by
  rw [updateClientStatus]
  dsimp only
  cases hbusy : busy node.lastFlow node.flow with
  | true =>
    rw [if_pos (by simpa [busy] using hbusy)]
    exact ⟨rfl, rfl⟩
  | false =>
    rw [if_neg (by simpa [busy] using hbusy)]
    exact ⟨rfl, rfl⟩

namespace Trace

variable {t : Trace} {counter : FlowStat → ℕ} {say : VisitReport → UInt32}

/-- A report comes with every thirtieth tick. -/
structure Clocked (t : Trace) : Prop where
  length_eq : t.samples.length = 30 * t.reports.length + t.node.timerCount
  timerCount_le : t.node.timerCount ≤ 30
  lastFlow : t.node.lastFlow = t.samples.getLast?.getD {}

structure Metered (t : Trace) (counter : FlowStat → ℕ) (say : VisitReport → UInt32) : Prop where
  le_last : ∀ s ∈ t.samples.map counter, s ≤ counter t.node.lastFlow
  last_le : counter t.node.lastFlow ≤ counter t.node.flow
  period : counted ((t.samples.take (30 * t.reports.length)).map counter) + counter t.node.periodFlow =
    counted (t.samples.map counter)
  said : Periodic 30 (flowReport counter) t.samples (t.reports.map say)

structure Watched (t : Trace) : Prop where
  inactiveTime : t.node.inactiveTime = ((busyTicks {} t.samples).reverse.takeWhile (! ·)).length
  active : t.node.active = recentlyBusy t.samples
  said : Periodic 30 recentlyBusy t.samples (t.reports.map VisitReport.active)

theorem Clocked.report (h : t.Clocked) (hdue : 30 ≤ t.node.timerCount) (now : UInt32) : (t.report now).Clocked where
  length_eq := by
    have hlen := h.length_eq
    have hle := h.timerCount_le
    have hcount : (t.report now).node.timerCount = 0 := rfl
    have hreports : (t.report now).reports.length = t.reports.length + 1 := List.length_append
    rw [hcount, hreports]
    change t.samples.length = _
    omega
  timerCount_le := Nat.zero_le _
  lastFlow := h.lastFlow

theorem Clocked.length (h : t.Clocked) (hdue : 30 ≤ t.node.timerCount) :
    t.samples.length = 30 * (t.reports.length + 1) := by
  rw [h.length_eq, Nat.le_antisymm h.timerCount_le hdue, Nat.mul_succ]

theorem Clocked.tick (h : t.Clocked) (hnot : t.node.timerCount < 30) : t.tick.Clocked where
  length_eq := by
    change (t.samples ++ [t.node.flow]).length = 30 * t.reports.length + (t.node.timerCount + 1)
    rw [List.length_append, h.length_eq]
    rfl
  timerCount_le := hnot
  lastFlow := by
    change (updateClientStatus t.node).lastFlow = (t.samples ++ [t.node.flow]).getLast?.getD {}
    rw [(updateClientStatus_eq t.node).2.1, List.getLast?_concat, Option.getD_some]

theorem Clocked.last (h : t.Clocked) (hzero : counter {} = 0) :
    (t.samples.map counter).getLast?.getD 0 = counter t.node.lastFlow := by
  rw [h.lastFlow, List.getLast?_map]
  cases t.samples.getLast? with
  | none => exact hzero.symm
  | some s => rfl

theorem Metered.report (h : t.Metered counter say) (hclock : t.Clocked) (hdue : 30 ≤ t.node.timerCount)
    (hzero : counter {} = 0) {now : UInt32}
    (hsay : say (visitReport t.node now).2 = UInt32.ofNat (counter t.node.periodFlow / 1024)) :
    (t.report now).Metered counter say where
  le_last := h.le_last
  last_le := h.last_le
  period := by
    have hreports : (t.report now).reports.length = t.reports.length + 1 := List.length_append
    change counted ((t.samples.take (30 * (t.report now).reports.length)).map counter) + counter {} = _
    rw [hreports, ← hclock.length hdue, List.take_length, hzero]
    rfl
  said := by
    have hsaid : say (visitReport t.node now).2 = flowReport counter t.samples := by
      have hback : t.samples.length - 30 = 30 * t.reports.length := by
        rw [hclock.length hdue]
        rfl
      rw [hsay, flowReport, hback, ← h.period, Nat.add_sub_cancel_left]
    change Periodic 30 (flowReport counter) t.samples ((t.reports ++ [(visitReport t.node now).2]).map say)
    rw [List.map_append, List.map_singleton, hsaid]
    exact h.said.concat ((t.reports.length_map say).symm ▸ hclock.length hdue)

theorem Metered.tick (h : t.Metered counter say) (hclock : t.Clocked) (hzero : counter {} = 0)
    (hperiod : counter (updateClientStatus t.node).periodFlow = counter t.node.periodFlow +
      if 0 < counter t.node.lastFlow then counter t.node.flow - counter t.node.lastFlow else 0) :
    t.tick.Metered counter say where
  le_last s hs := by
    change s ∈ (t.samples ++ [t.node.flow]).map counter at hs
    change s ≤ counter (updateClientStatus t.node).lastFlow
    rw [(updateClientStatus_eq t.node).2.1]
    rw [List.map_append, List.map_singleton] at hs
    rcases List.mem_append.1 hs with hs | hs
    · exact (h.le_last s hs).trans h.last_le
    · exact (List.mem_singleton.1 hs).le
  last_le := by
    change counter (updateClientStatus t.node).lastFlow ≤ counter (updateClientStatus t.node).flow
    rw [(updateClientStatus_eq t.node).1, (updateClientStatus_eq t.node).2.1]
  period := by
    change counted (((t.samples ++ [t.node.flow]).take (30 * t.reports.length)).map counter) +
      counter (updateClientStatus t.node).periodFlow = counted ((t.samples ++ [t.node.flow]).map counter)
    have hle : 30 * t.reports.length ≤ t.samples.length := hclock.length_eq ▸ Nat.le_add_right ..
    rw [List.take_append_of_le_length hle, hperiod, ← Nat.add_assoc, h.period, List.map_append, List.map_singleton,
      counted_concat (hclock.last hzero) h.le_last h.last_le]
  said := by
    refine h.said.sample ?_ _
    rw [List.length_map]
    exact hclock.length_eq ▸ Nat.le_add_right ..

theorem Watched.report (h : t.Watched) (hclock : t.Clocked) (hdue : 30 ≤ t.node.timerCount) (now : UInt32) :
    (t.report now).Watched where
  inactiveTime := h.inactiveTime
  active := h.active
  said := by
    change Periodic 30 recentlyBusy t.samples ((t.reports ++ [(visitReport t.node now).2]).map VisitReport.active)
    have hactive : (visitReport t.node now).2.active = recentlyBusy t.samples := h.active
    rw [List.map_append, List.map_singleton, hactive]
    exact h.said.concat ((t.reports.length_map VisitReport.active).symm ▸ hclock.length hdue)

theorem Watched.tick (h : t.Watched) (hclock : t.Clocked) : t.tick.Watched := by
  have hticks : (busyTicks {} (t.samples ++ [t.node.flow])).reverse =
      busy t.node.lastFlow t.node.flow :: (busyTicks {} t.samples).reverse := by
    rw [busyTicks_concat, List.reverse_append, ← hclock.lastFlow]
    rfl
  obtain ⟨hactive, hinactive⟩ := updateClientStatus_active t.node
  have hbefore := h.active
  rw [recentlyBusy, contains_take_iff, ← h.inactiveTime] at hbefore
  refine ⟨?_, ?_, h.said.sample ?_ _⟩
  · change (updateClientStatus t.node).inactiveTime =
      ((busyTicks {} (t.samples ++ [t.node.flow])).reverse.takeWhile (! ·)).length
    rw [hticks, hinactive]
    cases busy t.node.lastFlow t.node.flow with
    | true => rfl
    | false =>
      rw [List.takeWhile_cons_of_pos rfl, List.length_cons, ← h.inactiveTime]
      rfl
  · change (updateClientStatus t.node).active = recentlyBusy (t.samples ++ [t.node.flow])
    rw [recentlyBusy, hticks, contains_take_iff, hactive]
    cases busy t.node.lastFlow t.node.flow with
    | true => simp
    | false =>
      rw [List.takeWhile_cons_of_pos rfl, List.length_cons, ← h.inactiveTime, hbefore, Bool.false_or, Bool.and_assoc,
        List.contains_cons, ← Bool.decide_and]
      have hiff : t.node.inactiveTime < 31 ∧ t.node.inactiveTime + 1 ≤ 30 ↔ t.node.inactiveTime + 1 < 31 := by omega
      rw [decide_eq_decide.2 hiff]
      rfl
  · rw [List.length_map]
    exact hclock.length_eq ▸ Nat.le_add_right ..

/-- A packet moves its own counter only, and a visit none. -/
theorem Metered.packet {t' : Trace} (h : t.Metered counter say) (hsamples : t'.samples = t.samples)
    (hreports : t'.reports = t.reports) (hlast : t'.node.lastFlow = t.node.lastFlow)
    (hperiod : t'.node.periodFlow = t.node.periodFlow) (hflow : counter t.node.flow ≤ counter t'.node.flow) :
    t'.Metered counter say where
  le_last := hsamples ▸ hlast ▸ h.le_last
  last_le := hlast ▸ h.last_le.trans hflow
  period := hsamples ▸ hreports ▸ hperiod ▸ h.period
  said := hsamples ▸ hreports ▸ h.said

structure Counting (t : Trace) : Prop where
  clock : t.Clocked
  up : t.Metered FlowStat.upBytes VisitReport.upFlow
  down : t.Metered FlowStat.downBytes VisitReport.downFlow
  watched : t.Watched

theorem Counting.report (h : t.Counting) (hdue : 30 ≤ t.node.timerCount) (now : UInt32) : (t.report now).Counting where
  clock := h.clock.report hdue now
  up := h.up.report h.clock hdue rfl rfl
  down := h.down.report h.clock hdue rfl rfl
  watched := h.watched.report h.clock hdue now

theorem Counting.tick (h : t.Counting) (hnot : t.node.timerCount < 30) : t.tick.Counting where
  clock := h.clock.tick hnot
  up := h.up.tick h.clock rfl (updateClientStatus_eq t.node).2.2.2.1
  down := h.down.tick h.clock rfl (updateClientStatus_eq t.node).2.2.2.2
  watched := h.watched.tick h.clock

end Trace

theorem updateClientAppInfo_eq (node : AfClientNode) (appId drop now : UInt32) :
    ∃ visiting, updateClientAppInfo node appId drop now = { node with
      visitInfo := Function.update node.visitInfo (getVisitIndex node.visitInfo appId)
        ((node.visitInfo (getVisitIndex node.visitInfo appId)).count appId drop now)
      visiting } := by
  rw [updateClientAppInfo]
  dsimp only
  split
  · exact ⟨_, rfl⟩
  · exact ⟨_, rfl⟩

theorem counting_runClient (mac : Mac) (events : List ClientEvent) : (runClient mac events).Counting := by
  refine Trace.invariant ?_ (fun t ip h => ?_) (fun t len h => ?_) (fun t len h => ?_)
    (fun t appId drop now h => ?_) (fun t now h hdue => h.report hdue now) (fun t h hnot => h.tick hnot) events
  · exact ⟨⟨rfl, Nat.zero_le _, rfl⟩, ⟨by simp, Nat.le_refl _, rfl, rfl⟩, ⟨by simp, Nat.le_refl _, rfl, rfl⟩, rfl,
      rfl, rfl⟩
  · exact ⟨⟨h.clock.length_eq, h.clock.timerCount_le, h.clock.lastFlow⟩,
      h.up.packet rfl rfl rfl rfl (Nat.le_refl _), h.down.packet rfl rfl rfl rfl (Nat.le_refl _),
      ⟨h.watched.inactiveTime, h.watched.active, h.watched.said⟩⟩
  · exact ⟨⟨h.clock.length_eq, h.clock.timerCount_le, h.clock.lastFlow⟩,
      h.up.packet rfl rfl rfl rfl (Nat.le_add_right _ len), h.down.packet rfl rfl rfl rfl (Nat.le_refl _),
      ⟨h.watched.inactiveTime, h.watched.active, h.watched.said⟩⟩
  · exact ⟨⟨h.clock.length_eq, h.clock.timerCount_le, h.clock.lastFlow⟩,
      h.up.packet rfl rfl rfl rfl (Nat.le_refl _), h.down.packet rfl rfl rfl rfl (Nat.le_add_right _ len),
      ⟨h.watched.inactiveTime, h.watched.active, h.watched.said⟩⟩
  · obtain ⟨visiting, hnode⟩ := updateClientAppInfo_eq t.node appId drop now
    rw [Trace.handle, AfClientNode.handle, hnode]
    exact ⟨⟨h.clock.length_eq, h.clock.timerCount_le, h.clock.lastFlow⟩,
      h.up.packet rfl rfl rfl rfl (Nat.le_refl _), h.down.packet rfl rfl rfl rfl (Nat.le_refl _),
      ⟨h.watched.inactiveTime, h.watched.active, h.watched.said⟩⟩

/-! ### Over any run -/

/-- The table is that of the visits since the last report, and each report is about its interval. -/
def Trace.Told (t : Trace) : Prop :=
  (∀ visit ∈ t.intervals.flatten ++ t.visits, visit.appId ≠ 0) →
    t.node.visitInfo = tableOf t.visits ∧ List.Forall₂ Reports t.intervals t.reports

theorem told_runClient (mac : Mac) (events : List ClientEvent) : (runClient mac events).Told := by
  refine Trace.invariant ?_ (fun t ip h => h) (fun t len h => h) (fun t len h => h) (fun t appId drop now h => ?_)
    (fun t now h _ => ?_) (fun t h _ => ?_) events
  · exact fun _ => ⟨rfl, List.Forall₂.nil⟩
  · intro hvisits
    obtain ⟨visiting, hnode⟩ := updateClientAppInfo_eq t.node appId drop now
    have hbefore (visit : Visit) (hvisit : visit ∈ t.intervals.flatten ++ t.visits) : visit.appId ≠ 0 := by
      refine hvisits visit ?_
      change visit ∈ t.intervals.flatten ++ (t.visits ++ [⟨appId, drop, now⟩])
      rw [← List.append_assoc]
      exact List.mem_append_left _ hvisit
    obtain ⟨htable, hreports⟩ := h hbefore
    refine ⟨?_, hreports⟩
    change (updateClientAppInfo t.node appId drop now).visitInfo = tableOf (t.visits ++ [⟨appId, drop, now⟩])
    rw [tableOf_concat fun visit hvisit => hbefore visit (List.mem_append_right _ hvisit), hnode, htable]
  · intro hvisits
    have hbefore (visit : Visit) (hvisit : visit ∈ t.intervals.flatten ++ t.visits) : visit.appId ≠ 0 := by
      refine hvisits visit (List.mem_append_left _ ?_)
      change visit ∈ (t.intervals ++ [t.visits]).flatten
      rwa [List.flatten_concat]
    obtain ⟨htable, hreports⟩ := h hbefore
    have hlast (visit : Visit) (hvisit : visit ∈ t.visits) := hbefore visit (List.mem_append_right _ hvisit)
    refine ⟨?_, List.rel_append hreports (.cons (reports_visitReport htable hlast now) .nil)⟩
    simp only [Trace.report]
    exact visitReport_table htable hlast now
  · intro hvisits
    obtain ⟨htable, hreports⟩ := h hvisits
    refine ⟨?_, hreports⟩
    change (updateClientStatus t.node).visitInfo = tableOf t.visits
    rw [(updateClientStatus_eq t.node).2.2.1, htable]

theorem visits_runClient (mac : Mac) (events : List ClientEvent) :
    (runClient mac events).intervals.flatten ++ (runClient mac events).visits = events.filterMap ClientEvent.visit? := by
  refine @Run.invariant _ _ _ _
    (fun pre (t : Trace) => t.intervals.flatten ++ t.visits = pre.filterMap ClientEvent.visit?)
    (fun pre t event h => ?_) [] rfl events
  rw [List.filterMap_append, ← h]
  cases event with
  | address ip => exact (List.append_nil _).symm
  | up len => exact (List.append_nil _).symm
  | down len => exact (List.append_nil _).symm
  | visit appId drop now => exact (List.append_assoc ..).symm
  | timer now =>
    rw [Trace.handle_timer]
    split
    · change (t.intervals ++ [t.visits]).flatten ++ [] = _
      rw [List.flatten_concat]
      rfl
    · exact (List.append_nil _).symm

/-- There has been a report at each tick but the first whose number is one more than a multiple of thirty. -/
theorem length_reports (mac : Mac) (events : List ClientEvent) :
    (runClient mac events).reports.length = ((runClient mac events).samples.length - 1) / 30 := by
  have hclock := (counting_runClient mac events).clock
  have hpos : (runClient mac events).samples.length = 0 ∨ 0 < (runClient mac events).node.timerCount := by
    refine @Run.invariant _ _ _ _ (fun _ (t : Trace) => t.samples.length = 0 ∨ 0 < t.node.timerCount)
      (fun _ t event h => ?_) [] (.inl rfl) events
    cases event with
    | address ip => exact h
    | up len => exact h
    | down len => exact h
    | visit appId drop now =>
      obtain ⟨visiting, hnode⟩ := updateClientAppInfo_eq t.node appId drop now
      rw [Trace.handle, AfClientNode.handle, hnode]
      exact h
    | timer now =>
      rw [Trace.handle_timer]
      split
      · exact .inr (Nat.succ_pos _)
      · exact .inr (Nat.succ_pos _)
  have hlen := hclock.length_eq
  have hle := hclock.timerCount_le
  omega

/-- The texts that go out. -/
theorem messages_runClient (mac : Mac) (events : List ClientEvent) : (runClient mac events).messages =
    ((runClient mac events).reports.map VisitReport.text).filter fun text => text.length < maxOafNlMsgLen := by
  refine @Trace.invariant (fun t => t.messages =
    (t.reports.map VisitReport.text).filter fun text => text.length < maxOafNlMsgLen) mac rfl (fun t ip h => h)
    (fun t len h => h) (fun t len h => h) (fun t appId drop now h => h) (fun t now h _ => ?_) (fun t h _ => h) events
  rw [Trace.report]
  dsimp only
  rw [h, afSendMsgToUser_text (length_visits t.node now), List.map_append, List.filter_append, List.map_singleton]
  by_cases hfits : (visitReport t.node now).2.text.length < maxOafNlMsgLen
  · simp [hfits]
  · simp [hfits]

/-- Every visit is in the interval of one report that is built or after the last one, and the report says of it what
`Reports` says. The texts of the reports go out if they are shorter than 1024 bytes: up to 17 applications they are, from
31 on they are not, and what such a report says is lost. -/
theorem reports_exact (mac : Mac) (events : List ClientEvent)
    (h : ∀ visit ∈ events.filterMap ClientEvent.visit?, visit.appId ≠ 0) :
    (runClient mac events).intervals.flatten ++ (runClient mac events).visits =
      events.filterMap ClientEvent.visit? ∧
    List.Forall₂ Reports (runClient mac events).intervals (runClient mac events).reports ∧
    (runClient mac events).reports.length = ((runClient mac events).samples.length - 1) / 30 ∧
    (runClient mac events).node.visitInfo = tableOf (runClient mac events).visits ∧
    (runClient mac events).messages =
      ((runClient mac events).reports.map VisitReport.text).filter (fun text => text.length < maxOafNlMsgLen) ∧
    ∀ report ∈ (runClient mac events).reports,
      (report.visits.length ≤ 17 → report.text.length < maxOafNlMsgLen) ∧
        (31 ≤ report.visits.length → maxOafNlMsgLen ≤ report.text.length) := by
  have hvisits := visits_runClient mac events
  obtain ⟨htable, hreports⟩ := told_runClient mac events (hvisits ▸ h)
  refine ⟨hvisits, hreports, length_reports mac events, htable, messages_runClient mac events, fun report _ => ?_⟩
  have hlen := length_text report
  rw [maxOafNlMsgLen]
  constructor
  · intro hfew
    omega
  · intro hmany
    omega

/-- Three visits and the ticks until their report. -/
def firstMinute : List ClientEvent :=
  [.address ⟨192, 168, 1, 2⟩, .visit 8001 1 100, .visit 8002 0 101, .visit 8001 0 103] ++ List.replicate 31 (.timer 160)

theorem reports_exact_firstMinute :
    (∀ visit ∈ firstMinute.filterMap ClientEvent.visit?, visit.appId ≠ 0) ∧
    List.Forall₂ Reports (runClient ⟨2, 0, 0, 0, 0, 1⟩ firstMinute).intervals
      (runClient ⟨2, 0, 0, 0, 0, 1⟩ firstMinute).reports ∧
    (runClient ⟨2, 0, 0, 0, 0, 1⟩ firstMinute).messages =
      ((runClient ⟨2, 0, 0, 0, 0, 1⟩ firstMinute).reports.map VisitReport.text).filter
        fun text => text.length < maxOafNlMsgLen :=
  have hvisits : ∀ visit ∈ firstMinute.filterMap ClientEvent.visit?, visit.appId ≠ 0 := by decide
  have hexact := reports_exact ⟨2, 0, 0, 0, 0, 1⟩ firstMinute hvisits
  ⟨hvisits, hexact.2.1, hexact.2.2.2.2.1⟩

/-- The traffic that a report is built with is what came between its ticks, once the counter had a first value: whole
kilobytes modulo 2^32, of counters that do not wrap. -/
theorem flow_exact (mac : Mac) (events : List ClientEvent) :
    Periodic 30 (flowReport FlowStat.upBytes) (runClient mac events).samples
        ((runClient mac events).reports.map VisitReport.upFlow) ∧
    Periodic 30 (flowReport FlowStat.downBytes) (runClient mac events).samples
      ((runClient mac events).reports.map VisitReport.downFlow) :=
  ⟨(counting_runClient mac events).up.said, (counting_runClient mac events).down.said⟩

/-- A client is active exactly when one of its last 31 ticks was busy, and each report is built to say so of its own
time. -/
theorem activity_exact (mac : Mac) (events : List ClientEvent) :
    (runClient mac events).node.active = recentlyBusy (runClient mac events).samples ∧
    Periodic 30 recentlyBusy (runClient mac events).samples ((runClient mac events).reports.map VisitReport.active) :=
  ⟨(counting_runClient mac events).watched.active, (counting_runClient mac events).watched.said⟩

end Oaf
