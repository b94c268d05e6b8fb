import DOpenWrt.Lib.Except
import DOpenWrt.Lib.Run
import DOpenWrt.Oaf.NameTables

/-!
# The visit records of a device

What the daemon makes of the reports (`appfilter_nl_handler`), and the passes over its records
(`check_dev_visit_info_expire`, `flush_expire_visit_info`, `clean_invalid_app_records` and
`clear_device_app_statistics` of `appfilter_user.c`).
-/

namespace Oaf

def maxVisitHashSize : ℕ := 64
def maxAppIdNum : ℕ := 512
def reportIntervalSecs : UInt32 := 60
def maxRecordTime : Int32 := 86400
def recordRemainTime : Int32 := 3600
def invalidRecordTime : Int32 := 300

/-- `visit_info_t`. -/
structure VisitInfo where
  appid : ℤ
  firstTime : UInt32
  latestTime : UInt32
  action : ℤ
  expire : Bool := false
  deriving DecidableEq

/-- What a `dev_node_t` holds of its visits; the cells of `stat` are numbered row by row. -/
structure DevVisits where
  visitHtable : Fin maxVisitHashSize → List VisitInfo := fun _ => []
  stat : Fin (maxAppType * maxAppIdNum) → UInt32 := fun _ => 0

/-- An element of `visit_info`. -/
structure ReportedVisit where
  appid : ℤ
  latestAction : ℤ

theorem maxVisitHashSize_pos : 0 < maxVisitHashSize := Nat.succ_pos 63

/-- Of a positive `appid`. -/
def hashAppid (appid : ℤ) : Fin maxVisitHashSize :=
  ⟨(appid.tmod (maxVisitHashSize - 1)).toNat % maxVisitHashSize, Nat.mod_lt _ maxVisitHashSize_pos⟩

/-! ### Reports -/

/-- The first record of the application whose latest time is not five minutes past. -/
def touchVisit (appid action : ℤ) (now : UInt32) : List VisitInfo → Option (List VisitInfo)
  | [] => none
  | p :: rest =>
    if p.appid = appid ∧ now - p.latestTime < 300 then some ({ p with action, latestTime := now } :: rest)
    else (touchVisit appid action now rest).map (p :: ·)

def recordVisit (appid action : ℤ) (now : UInt32) (records : List VisitInfo) : List VisitInfo :=
  (touchVisit appid action now records).getD
    ({ appid, firstTime := now, latestTime := now, action } :: records)

/-- `stat[type - 1][id - 1]`; an `id` above 512 is in a later row. -/
def statCell (appid : ℤ) : ℕ := ((appid.tdiv 1000 - 1) * maxAppIdNum + (appid.tmod 1000 - 1)).toNat

/-- The loop's body. -/
def reportVisit (now updated : UInt32) (known : ℤ → Bool) (node : DevVisits) (visit : ReportedVisit) :
    Except OutOfBounds DevVisits :=
  -- the applications of an earlier feature list
  if now - updated < 300 ∧ known visit.appid = false then .ok node
  else if visit.appid.tmod 1000 ≤ 0 ∨ visit.appid.tdiv 1000 ≤ 0 then .ok node
  else if h : statCell visit.appid < maxAppType * maxAppIdNum then
    let hash := hashAppid visit.appid
    .ok {
      stat := Function.update node.stat ⟨_, h⟩ (node.stat ⟨_, h⟩ + reportIntervalSecs)
      visitHtable := Function.update node.visitHtable hash
        (recordVisit visit.appid visit.latestAction now (node.visitHtable hash)) }
  else .error .write

/-! ### Passes -/

/-- `check_dev_visit_info_expire`. -/
def VisitInfo.checkExpire (now : UInt32) (info : VisitInfo) : VisitInfo :=
  let totalTime := (info.latestTime - info.firstTime).toInt32
  let intervalTime := (now - info.firstTime).toInt32
  if maxRecordTime < intervalTime ∨ intervalTime < 0 then { info with expire := true }
  else if recordRemainTime < intervalTime then
    if totalTime < invalidRecordTime then { info with expire := true } else info
  else info

/-- `clean_invalid_app_records`. -/
def VisitInfo.checkName (known : ℤ → Bool) (info : VisitInfo) : VisitInfo :=
  if known info.appid = false then { info with expire := true } else info

/-- `flush_expire_visit_info` of a list. -/
def flushExpireVisitInfo (records : List VisitInfo) : List VisitInfo := records.filter fun info => !info.expire

/-- What happens to a device: a report, with the time of the last feature update and the names that are known, a pass
over its records by time or by name, the end of the day. -/
inductive DevEvent
  | report (now updated : UInt32) (known : ℤ → Bool) (visits : List ReportedVisit)
  | expire (now : UInt32)
  | clean (known : ℤ → Bool)
  | clear

/-- What a pass does to a record before the flush. -/
def DevEvent.check : DevEvent → VisitInfo → VisitInfo
  | .expire now => VisitInfo.checkExpire now
  | .clean known => VisitInfo.checkName known
  | _ => id

def DevVisits.handle (node : DevVisits) : DevEvent → Except OutOfBounds DevVisits
  | .report now updated known visits => visits.foldlM (reportVisit now updated known) node
  | .clear => .ok { node with stat := fun _ => 0 }
  | event => .ok { node with
      visitHtable := fun hash => flushExpireVisitInfo ((node.visitHtable hash).map event.check) }

def runDevice (events : List DevEvent) : Except OutOfBounds DevVisits := events.foldlM DevVisits.handle {}

/-! ### The visits that are taken up -/

structure Seen where
  appid : ℤ
  time : UInt32
  action : ℤ

def Taken (now updated : UInt32) (known : ℤ → Bool) (visit : ReportedVisit) : Prop :=
  (now - updated < 300 → known visit.appid = true) ∧ 0 < visit.appid.tmod 1000 ∧ 0 < visit.appid.tdiv 1000

instance (now updated : UInt32) (known : ℤ → Bool) (visit : ReportedVisit) :
    Decidable (Taken now updated known visit) :=
  inferInstanceAs (Decidable (_ ∧ _))

def DevEvent.seen : DevEvent → List Seen
  | .report now updated known visits =>
    (visits.filter fun visit => Taken now updated known visit).map fun visit => ⟨visit.appid, now, visit.latestAction⟩
  | _ => []

def DevEvent.reportTime? : DevEvent → Option UInt32
  | .report now .. => some now
  | _ => none

def DevVisits.see (node : DevVisits) (seen : Seen) : Except OutOfBounds DevVisits :=
  if h : statCell seen.appid < maxAppType * maxAppIdNum then
    .ok {
      stat := Function.update node.stat ⟨_, h⟩ (node.stat ⟨_, h⟩ + reportIntervalSecs)
      visitHtable := Function.update node.visitHtable (hashAppid seen.appid)
        (recordVisit seen.appid seen.action seen.time (node.visitHtable (hashAppid seen.appid))) }
  else .error .write

section Reports

variable {now updated : UInt32} {known : ℤ → Bool}

theorem reportVisit_eq (node : DevVisits) (visit : ReportedVisit) : reportVisit now updated known node visit =
    if Taken now updated known visit then node.see ⟨visit.appid, now, visit.latestAction⟩ else .ok node := by
  rw [reportVisit]
  by_cases hknown : now - updated < 300 ∧ known visit.appid = false
  · rw [if_pos hknown, if_neg]
    rintro ⟨hk, -⟩
    rw [hk hknown.1] at hknown
    cases hknown.2
  · rw [if_neg hknown]
    by_cases hid : visit.appid.tmod 1000 ≤ 0 ∨ visit.appid.tdiv 1000 ≤ 0
    · rw [if_pos hid, if_neg]
      rintro ⟨-, hmod, hdiv⟩
      rcases hid with h | h
      · exact absurd hmod (not_lt.2 h)
      · exact absurd hdiv (not_lt.2 h)
    · obtain ⟨hmod, hdiv⟩ := not_or.1 hid
      have hname (hrecent : now - updated < 300) : known visit.appid = true :=
        Bool.of_not_eq_false fun h => hknown ⟨hrecent, h⟩
      rw [if_neg hid, if_pos ⟨hname, not_le.1 hmod, not_le.1 hdiv⟩, DevVisits.see]

/-- A report is the visits it makes the daemon take up. -/
theorem foldlM_reportVisit (visits : List ReportedVisit) (node : DevVisits) :
    visits.foldlM (reportVisit now updated known) node =
      (DevEvent.report now updated known visits).seen.foldlM DevVisits.see node := by
  induction visits generalizing node with
  | nil => rfl
  | cons visit visits ih =>
    rw [List.foldlM_cons, reportVisit_eq, DevEvent.seen]
    by_cases htaken : Taken now updated known visit
    · rw [if_pos htaken, List.filter_cons, if_pos (decide_eq_true htaken), List.map_cons, List.foldlM_cons]
      exact bind_congr fun node => ih node
    · rw [if_neg htaken, List.filter_cons, if_neg (by simpa using htaken)]
      exact ih node

end Reports

/-! ### The records of one application -/

def recordsOf (node : DevVisits) (appid : ℤ) : List VisitInfo :=
  (node.visitHtable (hashAppid appid)).filter fun info => info.appid = appid

section Records

variable {appid other action : ℤ} {now : UInt32} {records records' : List VisitInfo}

theorem touchVisit_filter : touchVisit appid action now (records.filter fun info => info.appid = appid) =
    (touchVisit appid action now records).map fun touched => touched.filter fun info => info.appid = appid := by
  induction records with
  | nil => rfl
  | cons p rest ih =>
    rw [touchVisit]
    by_cases happ : p.appid = appid
    · rw [List.filter_cons, if_pos (decide_eq_true happ), touchVisit]
      by_cases hrecent : now - p.latestTime < 300
      · rw [if_pos ⟨happ, hrecent⟩, if_pos ⟨happ, hrecent⟩, Option.map_some, List.filter_cons,
          if_pos (decide_eq_true happ)]
      · rw [if_neg fun h => hrecent h.2, if_neg fun h => hrecent h.2, ih, Option.map_map, Option.map_map]
        refine congrArg (Option.map · _) (funext fun touched => ?_)
        rw [Function.comp, Function.comp, List.filter_cons, if_pos (decide_eq_true happ)]
    · rw [List.filter_cons, if_neg (by simpa using happ), if_neg fun h => happ h.1, ih, Option.map_map]
      refine congrArg (Option.map · _) (funext fun touched => ?_)
      rw [Function.comp, List.filter_cons, if_neg (by simpa using happ)]

theorem touchVisit_filter_other (hother : other ≠ appid) (h : touchVisit appid action now records = some records') :
    (records'.filter fun info => info.appid = other) = records.filter fun info => info.appid = other := by
  induction records generalizing records' with
  | nil => cases h
  | cons p rest ih =>
    rw [touchVisit] at h
    split at h
    · rename_i happ
      cases h
      have hne : p.appid ≠ other := fun heq => hother (heq.symm.trans happ.1)
      rw [List.filter_cons, if_neg (by simpa using hne), List.filter_cons, if_neg (by simpa using hne)]
    · obtain ⟨touched, htouched, rfl⟩ := Option.map_eq_some_iff.1 h
      rw [List.filter_cons, List.filter_cons, ih htouched]

theorem touchVisit_mem (h : touchVisit appid action now records = some records') :
    ∀ info ∈ records', ∃ before ∈ records, info.appid = before.appid ∧ info.expire = before.expire := by
  induction records generalizing records' with
  | nil => cases h
  | cons p rest ih =>
    rw [touchVisit] at h
    split at h
    · cases h
      intro info hinfo
      rcases List.mem_cons.1 hinfo with rfl | hinfo
      · exact ⟨p, List.mem_cons_self, rfl, rfl⟩
      · exact ⟨info, List.mem_cons_of_mem _ hinfo, rfl, rfl⟩
    · obtain ⟨touched, htouched, rfl⟩ := Option.map_eq_some_iff.1 h
      intro info hinfo
      rcases List.mem_cons.1 hinfo with rfl | hinfo
      · exact ⟨info, List.mem_cons_self, rfl, rfl⟩
      · obtain ⟨before, hbefore, hsame⟩ := ih htouched info hinfo
        exact ⟨before, List.mem_cons_of_mem _ hbefore, hsame⟩

theorem recordVisit_filter : (recordVisit appid action now records).filter (fun info => info.appid = appid) =
    recordVisit appid action now (records.filter fun info => info.appid = appid) := by
  rw [recordVisit, recordVisit, touchVisit_filter]
  cases touchVisit appid action now records with
  | none => exact List.filter_cons_of_pos (by simp)
  | some touched => rfl

theorem recordVisit_filter_other (hother : other ≠ appid) :
    ((recordVisit appid action now records).filter fun info => info.appid = other) =
      records.filter fun info => info.appid = other := by
  rw [recordVisit]
  cases h : touchVisit appid action now records with
  | none => exact List.filter_cons_of_neg (by simpa using hother.symm)
  | some touched => exact touchVisit_filter_other hother h

theorem recordVisit_mem : ∀ info ∈ recordVisit appid action now records,
    info.appid = appid ∧ info.expire = false ∨
      ∃ before ∈ records, info.appid = before.appid ∧ info.expire = before.expire := by
  rw [recordVisit]
  cases h : touchVisit appid action now records with
  | none =>
    intro info hinfo
    rcases List.mem_cons.1 hinfo with rfl | hinfo
    · exact .inl ⟨rfl, rfl⟩
    · exact .inr ⟨info, hinfo, rfl, rfl⟩
  | some touched => exact fun info hinfo => .inr (touchVisit_mem h info hinfo)

end Records

/-- A visit changes the records of its own application only. -/
theorem recordsOf_see {node node' : DevVisits} {seen : Seen} (h : node.see seen = .ok node') (appid : ℤ) :
    recordsOf node' appid =
      if appid = seen.appid then recordVisit appid seen.action seen.time (recordsOf node appid)
      else recordsOf node appid := by
  rw [DevVisits.see] at h
  split at h
  · cases h
    rw [recordsOf, recordsOf]
    dsimp only
    by_cases happ : appid = seen.appid
    · subst happ
      rw [if_pos rfl, Function.update_self, recordVisit_filter]
    · rw [if_neg happ]
      by_cases hhash : hashAppid appid = hashAppid seen.appid
      · rw [hhash, Function.update_self, recordVisit_filter_other happ]
      · rw [Function.update_of_ne hhash]
  · cases h

/-! ### Sessions -/

/-- Visits in a row, each less than five minutes after the one before. -/
structure IsSession (session : List Seen) : Prop where
  ne_nil : session ≠ []
  chain : session.IsChain fun a b => a.time ≤ b.time ∧ b.time.toNat < a.time.toNat + 300

/-- The record of a session. -/
def sessionRecord (appid : ℤ) (session : List Seen) : VisitInfo where
  appid
  firstTime := (session.head?.map Seen.time).getD 0
  latestTime := (session.getLast?.map Seen.time).getD 0
  action := (session.getLast?.map Seen.action).getD 0

/-- The visits of an application. -/
def seenOf (events : List DevEvent) (appid : ℤ) : List Seen :=
  (events.flatMap DevEvent.seen).filter fun visit => visit.appid = appid

/-- The visits to an application are those of its sessions. The sessions that no pass has removed have the records, the
latest first, and lie five minutes apart; the others have been found expired by a pass that came after their visits. -/
structure Sessions (events : List DevEvent) (appid : ℤ) (seen : List Seen) (records : List VisitInfo)
    (removed live : List (List Seen)) : Prop where
  perm : (removed ++ live).flatten.Perm seen
  session : ∀ session ∈ removed ++ live, IsSession session
  apart : live.Pairwise fun later earlier => ∀ a ∈ earlier, ∀ b ∈ later, a.time.toNat + 300 ≤ b.time.toNat
  records : records = live.map (sessionRecord appid)
  gone : ∀ session ∈ removed, ∃ before event behind, events = before ++ event :: behind ∧
    session.Subperm (seenOf before appid) ∧ (event.check (sessionRecord appid session)).expire = true

section Sessions

variable {events : List DevEvent} {appid : ℤ} {seen session : List Seen} {visit : Seen} {records : List VisitInfo}
  {removed live : List (List Seen)}

theorem IsSession.le_latest (h : IsSession session) (appid : ℤ) {a : Seen} (ha : a ∈ session) :
    a.time ≤ (sessionRecord appid session).latestTime := by
  obtain ⟨last, hlast⟩ := Option.ne_none_iff_exists'.1 (mt List.getLast?_eq_none_iff.1 h.ne_nil)
  rw [sessionRecord, hlast]
  obtain ⟨front, rfl⟩ := List.getLast?_eq_some_iff.1 hlast
  have hsorted : (front ++ [last]).Pairwise fun a b => a.time ≤ b.time :=
    (h.chain.imp fun a b hab => hab.1).pairwise
  rcases List.mem_append.1 ha with ha | ha
  · exact (List.pairwise_append.1 hsorted).2.2 a ha last List.mem_cons_self
  · rw [List.mem_singleton.1 ha]
    exact UInt32.le_refl _

theorem sessionRecord_concat (hne : session ≠ []) : sessionRecord appid (session ++ [visit]) =
    { sessionRecord appid session with action := visit.action, latestTime := visit.time } := by
  rw [sessionRecord, sessionRecord, List.head?_append_of_ne_nil _ hne, List.getLast?_concat]
  rfl

theorem latest_mem (appid : ℤ) (hne : session ≠ []) :
    ∃ a ∈ session, (sessionRecord appid session).latestTime = a.time := by
  obtain ⟨last, hlast⟩ := Option.ne_none_iff_exists'.1 (mt List.getLast?_eq_none_iff.1 hne)
  refine ⟨last, List.mem_of_getLast? hlast, ?_⟩
  rw [sessionRecord, hlast]
  rfl

theorem sub_lt_iff {a b : UInt32} (h : b ≤ a) : a - b < 300 ↔ a.toNat < b.toNat + 300 := by
  rw [UInt32.lt_iff_toNat_lt, UInt32.toNat_sub_of_le _ _ h]
  have hle := UInt32.le_iff_toNat_le.1 h
  change a.toNat - b.toNat < 300 ↔ _
  omega

theorem touchVisit_eq_none {action : ℤ} {now : UInt32} (h : ∀ p ∈ records, ¬ now - p.latestTime < 300) :
    touchVisit appid action now records = none := by
  induction records with
  | nil => rfl
  | cons p rest ih =>
    rw [touchVisit, if_neg fun hp => h p List.mem_cons_self hp.2, ih fun q hq => h q (List.mem_cons_of_mem _ hq)]
    rfl

theorem Sessions.live_mem (h : Sessions events appid seen records removed live) (hsession : session ∈ live) {a : Seen}
    (ha : a ∈ session) : a ∈ seen :=
  h.perm.subset (List.mem_flatten.2 ⟨session, List.mem_append_right _ hsession, ha⟩)

/-- A visit goes on with the last session, if that is not five minutes past. -/
theorem Sessions.extend (h : Sessions events appid seen records removed (session :: live))
    (hlatest : ∀ a ∈ seen, a.time ≤ visit.time)
    (hrecent : visit.time - (sessionRecord appid session).latestTime < 300) :
    Sessions events appid (seen ++ [visit]) (recordVisit appid visit.action visit.time records) removed
      ((session ++ [visit]) :: live) := by
  have hsession := h.session session (List.mem_append_right _ List.mem_cons_self)
  obtain ⟨latest, hmem, htime⟩ := latest_mem appid hsession.ne_nil
  have hle := hlatest latest (h.live_mem List.mem_cons_self hmem)
  constructor
  · rw [List.flatten_append, List.flatten_cons, List.append_assoc session, List.singleton_append, ← List.append_assoc]
    have hperm := h.perm
    rw [List.flatten_append, List.flatten_cons, ← List.append_assoc] at hperm
    exact List.perm_middle.trans ((hperm.cons visit).trans (List.perm_append_singleton visit seen).symm)
  · intro other hother
    rcases List.mem_append.1 hother with hother | hother
    · exact h.session other (List.mem_append_left _ hother)
    · rcases List.mem_cons.1 hother with rfl | hother
      · refine ⟨List.append_ne_nil_of_left_ne_nil hsession.ne_nil _, List.isChain_append.2 ⟨hsession.chain,
          List.isChain_singleton _, fun a ha b hb => ?_⟩⟩
        cases hb
        rw [htime, sub_lt_iff hle] at hrecent
        have hsame : a.time = latest.time := by
          rw [← htime, sessionRecord, Option.mem_def.1 ha]
          rfl
        rw [hsame]
        exact ⟨hle, hrecent⟩
      · exact h.session other (List.mem_append_right _ (List.mem_cons_of_mem _ hother))
  · obtain ⟨hfirst, hrest⟩ := List.pairwise_cons.1 h.apart
    refine List.pairwise_cons.2 ⟨fun earlier hearlier a ha b hb => ?_, hrest⟩
    rcases List.mem_append.1 hb with hb | hb
    · exact hfirst earlier hearlier a ha b hb
    · rw [List.mem_singleton.1 hb]
      exact (hfirst earlier hearlier a ha latest hmem).trans (UInt32.le_iff_toNat_le.1 hle)
  · rw [h.records, recordVisit, List.map_cons, touchVisit, if_pos ⟨rfl, hrecent⟩, List.map_cons,
      sessionRecord_concat hsession.ne_nil]
    rfl
  · exact h.gone

/-- Else it begins a session. -/
theorem Sessions.begin (h : Sessions events appid seen records removed live) (hlatest : ∀ a ∈ seen, a.time ≤ visit.time)
    (hpast : ∀ session ∈ live, ¬ visit.time - (sessionRecord appid session).latestTime < 300) :
    Sessions events appid (seen ++ [visit]) (recordVisit appid visit.action visit.time records) removed
      ([visit] :: live) := by
  constructor
  · rw [List.flatten_append, List.flatten_cons, List.singleton_append]
    have hperm := h.perm
    rw [List.flatten_append] at hperm
    exact List.perm_middle.trans ((hperm.cons visit).trans (List.perm_append_singleton visit seen).symm)
  · intro other hother
    rcases List.mem_append.1 hother with hother | hother
    · exact h.session other (List.mem_append_left _ hother)
    · rcases List.mem_cons.1 hother with rfl | hother
      · exact ⟨List.cons_ne_nil _ _, List.isChain_singleton _⟩
      · exact h.session other (List.mem_append_right _ hother)
  · refine List.pairwise_cons.2 ⟨fun earlier hearlier a ha b hb => ?_, h.apart⟩
    obtain ⟨latest, hmem, htime⟩ :=
      latest_mem appid (h.session earlier (List.mem_append_right _ hearlier)).ne_nil
    have hnot := hpast earlier hearlier
    rw [htime, sub_lt_iff (hlatest latest (h.live_mem hearlier hmem))] at hnot
    have hle := (h.session earlier (List.mem_append_right _ hearlier)).le_latest appid ha
    rw [htime, UInt32.le_iff_toNat_le] at hle
    rw [List.mem_singleton.1 hb]
    omega
  · have hnone : touchVisit appid visit.action visit.time records = none := by
      refine touchVisit_eq_none fun p hp => ?_
      rw [h.records] at hp
      obtain ⟨session, hsession, rfl⟩ := List.mem_map.1 hp
      exact hpast session hsession
    rw [recordVisit, hnone, h.records]
    rfl
  · exact h.gone

/-- No record but the first can be of less than five minutes ago. -/
theorem Sessions.see (h : Sessions events appid seen records removed live) (hlatest : ∀ a ∈ seen, a.time ≤ visit.time) :
    ∃ live', Sessions events appid (seen ++ [visit])
      (recordVisit appid visit.action visit.time records) removed live' := by
  cases live with
  | nil => exact ⟨_, h.begin hlatest fun session hsession => absurd hsession List.not_mem_nil⟩
  | cons session live =>
    by_cases hrecent : visit.time - (sessionRecord appid session).latestTime < 300
    · exact ⟨_, h.extend hlatest hrecent⟩
    · refine ⟨_, h.begin hlatest fun other hother => ?_⟩
      rcases List.mem_cons.1 hother with rfl | hother
      · exact hrecent
      · obtain ⟨first, hfirst⟩ :=
          List.exists_mem_of_ne_nil _ (h.session session (List.mem_append_right _ List.mem_cons_self)).ne_nil
        obtain ⟨latest, hmem, htime⟩ := latest_mem appid
          (h.session other (List.mem_append_right _ (List.mem_cons_of_mem _ hother))).ne_nil
        have hapart := (List.pairwise_cons.1 h.apart).1 other hother latest hmem first hfirst
        have hle := UInt32.le_iff_toNat_le.1 (hlatest first (h.live_mem List.mem_cons_self hfirst))
        rw [htime, sub_lt_iff (hlatest latest (h.live_mem (List.mem_cons_of_mem _ hother) hmem))]
        omega

/-! ### Passes over sessions -/

theorem DevEvent.check_cases (event : DevEvent) (info : VisitInfo) :
    event.check info = info ∨ event.check info = { info with expire := true } := by
  cases event with
  | report => exact .inl rfl
  | clear => exact .inl rfl
  | expire now =>
    rw [check, VisitInfo.checkExpire]
    split
    · exact .inr rfl
    · split
      · split
        · exact .inr rfl
        · exact .inl rfl
      · exact .inl rfl
  | clean known =>
    rw [check, VisitInfo.checkName]
    split
    · exact .inr rfl
    · exact .inl rfl

theorem DevEvent.check_appid (event : DevEvent) (info : VisitInfo) : (event.check info).appid = info.appid := by
  rcases event.check_cases info with h | h
  · rw [h]
  · rw [h]

theorem DevEvent.check_eq {event : DevEvent} {info : VisitInfo} (h : (event.check info).expire = false) :
    event.check info = info := by
  rcases event.check_cases info with hsame | hexpired
  · exact hsame
  · rw [hexpired] at h
    cases h

theorem flushExpireVisitInfo_map (event : DevEvent) (sessions : List (List Seen)) :
    flushExpireVisitInfo ((sessions.map (sessionRecord appid)).map event.check) =
      (sessions.filter fun session => !(event.check (sessionRecord appid session)).expire).map
        (sessionRecord appid) := by
  rw [flushExpireVisitInfo, List.map_map, List.filter_map]
  refine List.map_congr_left fun session hsession => ?_
  have hkept : (!(event.check (sessionRecord appid session)).expire) = true := (List.mem_filter.1 hsession).2
  rw [Bool.not_eq_true'] at hkept
  exact event.check_eq hkept

/-- What has been removed stays so. -/
theorem Sessions.gone_append (h : Sessions events appid seen records removed live) (last : DevEvent)
    (hsession : session ∈ removed) : ∃ before event behind, events ++ [last] = before ++ event :: behind ∧
      session.Subperm (seenOf before appid) ∧ (event.check (sessionRecord appid session)).expire = true := by
  obtain ⟨before, event, behind, rfl, hseen, hexpired⟩ := h.gone session hsession
  exact ⟨before, event, behind ++ [last], by rw [List.append_assoc, List.cons_append], hseen, hexpired⟩

/-- A pass removes the sessions whose records it finds expired. -/
theorem Sessions.pass (h : Sessions events appid (seenOf events appid) records removed live) (event : DevEvent) :
    Sessions (events ++ [event]) appid (seenOf events appid) (flushExpireVisitInfo (records.map event.check))
      (removed ++ live.filter fun session => (event.check (sessionRecord appid session)).expire)
      (live.filter fun session => !(event.check (sessionRecord appid session)).expire) where
  perm := by
    rw [List.append_assoc]
    exact (((List.filter_append_perm _ live).append_left removed).flatten).trans h.perm
  session session hsession := by
    refine h.session session ?_
    rw [List.append_assoc] at hsession
    exact (((List.filter_append_perm _ live).append_left removed).mem_iff).1 hsession
  apart := h.apart.filter _
  records := by rw [h.records, flushExpireVisitInfo_map]
  gone session hsession := by
    rcases List.mem_append.1 hsession with hsession | hsession
    · exact h.gone_append event hsession
    · obtain ⟨hlive, hexpired⟩ := List.mem_filter.1 hsession
      have hsub := List.sublist_flatten_of_mem (List.mem_append_right removed hlive)
      exact ⟨events, event, [], rfl, hsub.subperm.trans h.perm.subperm, hexpired⟩

theorem Sessions.event (h : Sessions events appid seen records removed live) (event : DevEvent) :
    Sessions (events ++ [event]) appid seen records removed live where
  perm := h.perm
  session := h.session
  apart := h.apart
  records := h.records
  gone _ hsession := h.gone_append event hsession

end Sessions

/-! ### Runs of a device -/

theorem recordsOf_pass (node : DevVisits) (event : DevEvent) (appid : ℤ) :
    recordsOf
        { node with visitHtable := fun hash => flushExpireVisitInfo ((node.visitHtable hash).map event.check) } appid =
      flushExpireVisitInfo ((recordsOf node appid).map event.check) := by
  simp only [recordsOf, flushExpireVisitInfo, List.filter_filter, List.filter_map]
  refine congrArg (List.map event.check) (List.filter_congr fun info _ => ?_)
  rw [Function.comp, event.check_appid, Function.comp, Bool.and_comm]

/-- The visits of a report, one after the other. -/
theorem sessions_foldlM {events : List DevEvent} {appid : ℤ} {now : UInt32} (visits : List Seen)
    (hnow : ∀ visit ∈ visits, visit.time = now) {node node' : DevVisits} {seen : List Seen}
    (hrun : visits.foldlM DevVisits.see node = .ok node') (hlatest : ∀ a ∈ seen, a.time ≤ now)
    (h : ∃ removed live, Sessions events appid seen (recordsOf node appid) removed live) :
    ∃ removed live, Sessions events appid (seen ++ visits.filter fun visit => visit.appid = appid)
      (recordsOf node' appid) removed live := by
  induction visits generalizing node seen with
  | nil =>
    cases hrun
    rwa [List.filter_nil, List.append_nil]
  | cons visit visits ih =>
    rw [List.foldlM_cons] at hrun
    obtain ⟨next, hnext, hrun⟩ := Except.bind_eq_ok.1 hrun
    have htime := hnow visit List.mem_cons_self
    have hrest := fun other hother => hnow other (List.mem_cons_of_mem visit hother)
    have hrecords := recordsOf_see hnext appid
    obtain ⟨removed, live, hsessions⟩ := h
    rw [List.filter_cons]
    by_cases happ : visit.appid = appid
    · subst happ
      rw [if_pos rfl] at hrecords
      rw [if_pos (decide_eq_true rfl)]
      obtain ⟨live', hsee⟩ := @Sessions.see _ _ _ visit _ _ _ hsessions fun a ha => htime ▸ hlatest a ha
      rw [← hrecords] at hsee
      have := @ih hrest _ (seen ++ [visit]) hrun ?_ ⟨removed, live', hsee⟩
      · rwa [List.append_assoc] at this
      · intro a ha
        rcases List.mem_append.1 ha with ha | ha
        · exact hlatest a ha
        · rw [List.mem_singleton.1 ha, htime]
          exact UInt32.le_refl _
    · rw [if_neg fun heq => happ heq.symm] at hrecords
      rw [if_neg (by simpa using happ)]
      exact ih hrest hrun hlatest ⟨removed, live, hrecords ▸ hsessions⟩

/-- As long as the reports come in the order of their times. -/
def HasSessions (appid : ℤ) (events : List DevEvent) (node : DevVisits) : Prop :=
  (events.filterMap DevEvent.reportTime?).Pairwise (· ≤ ·) →
    ∃ removed live, Sessions events appid (seenOf events appid) (recordsOf node appid) removed live

theorem HasSessions.handle {pre : List DevEvent} {node node' : DevVisits} {event : DevEvent} {appid : ℤ}
    (h : HasSessions appid pre node) (hrun : node.handle event = .ok node') :
    HasSessions appid (pre ++ [event]) node' := by
  intro htimes
  have hbefore : (pre.filterMap DevEvent.reportTime?).Pairwise (· ≤ ·) := by
    rw [List.filterMap_append] at htimes
    exact (List.pairwise_append.1 htimes).1
  have hseen : seenOf (pre ++ [event]) appid =
      seenOf pre appid ++ event.seen.filter fun visit => visit.appid = appid := by
    rw [seenOf, seenOf, List.flatMap_append, List.filter_append, List.flatMap_singleton]
  obtain ⟨removed, live, hsessions⟩ := h hbefore
  cases event with
  | report now updated known visits =>
    rw [DevVisits.handle, foldlM_reportVisit] at hrun
    rw [List.filterMap_append, List.pairwise_append] at htimes
    rw [hseen]
    refine sessions_foldlM _ (fun visit hvisit => (?_ : visit.time = now)) hrun (fun a ha => ?_)
      ⟨removed, live, hsessions.event _⟩
    · obtain ⟨reported, -, rfl⟩ := List.mem_map.1 hvisit
      rfl
    · obtain ⟨before, hbefore, ha⟩ := List.mem_flatMap.1 (List.mem_filter.1 ha).1
      refine htimes.2.2 a.time (List.mem_filterMap.2 ⟨before, hbefore, ?_⟩) now List.mem_cons_self
      cases before with
      | report =>
        obtain ⟨reported, -, rfl⟩ := List.mem_map.1 ha
        rfl
      | expire => cases ha
      | clean => cases ha
      | clear => cases ha
  | expire now =>
    cases hrun
    rw [recordsOf_pass, hseen.trans (List.append_nil _)]
    exact ⟨_, _, hsessions.pass _⟩
  | clean known =>
    cases hrun
    rw [recordsOf_pass, hseen.trans (List.append_nil _)]
    exact ⟨_, _, hsessions.pass _⟩
  | clear =>
    cases hrun
    rw [hseen.trans (List.append_nil _)]
    exact ⟨_, _, hsessions.event _⟩

theorem sessions_runDevice {events : List DevEvent} {node : DevVisits} (hrun : runDevice events = .ok node)
    (appid : ℤ) : HasSessions appid events node :=
  Run.foldlM_invariant (I := HasSessions appid) (fun _ _ _ _ h hstep => h.handle hstep)
    (fun _ => ⟨[], [], ⟨List.Perm.nil, by simp, List.Pairwise.nil, rfl, by simp⟩⟩ : HasSessions appid [] {}) hrun

/-! ### Where the records are -/

/-- A record is in the list of its application's hash, and none is left that has expired. -/
def Placed (node : DevVisits) : Prop :=
  ∀ hash, ∀ info ∈ node.visitHtable hash, hashAppid info.appid = hash ∧ info.expire = false

theorem Placed.see {node node' : DevVisits} {seen : Seen} (h : Placed node) (hsee : node.see seen = .ok node') :
    Placed node' := by
  rw [DevVisits.see] at hsee
  split at hsee
  · cases hsee
    intro hash info hinfo
    dsimp only at hinfo
    by_cases hhash : hash = hashAppid seen.appid
    · rw [hhash, Function.update_self] at hinfo
      rcases recordVisit_mem info hinfo with ⟨happ, hexpire⟩ | ⟨before, hbefore, happ, hexpire⟩
      · exact ⟨hhash ▸ congrArg hashAppid happ, hexpire⟩
      · rw [happ, hexpire, hhash]
        exact h _ before hbefore
    · rw [Function.update_of_ne hhash] at hinfo
      exact h hash info hinfo
  · cases hsee

theorem Placed.pass {node : DevVisits} (h : Placed node) (event : DevEvent) : Placed { node with
    visitHtable := fun hash => flushExpireVisitInfo ((node.visitHtable hash).map event.check) } := by
  intro hash info hinfo
  obtain ⟨hmem, hkept⟩ := List.mem_filter.1 hinfo
  obtain ⟨before, hbefore, rfl⟩ := List.mem_map.1 hmem
  rw [event.check_appid]
  exact ⟨(h hash before hbefore).1, by simpa using hkept⟩

theorem placed_runDevice {events : List DevEvent} {node : DevVisits} (hrun : runDevice events = .ok node) :
    Placed node := by
  refine Run.MeetsM.invariant (C := fun _ _ => True) (fun node event node' _ h hstep => ?_)
    (fun hash info hinfo => absurd hinfo List.not_mem_nil) (Run.meetsM_true _ _) hrun
  cases event with
  | report now updated known visits =>
    rw [DevVisits.handle, foldlM_reportVisit] at hstep
    exact Run.MeetsM.invariant (C := fun _ _ => True) (fun _ _ _ _ h hsee => h.see hsee) h (Run.meetsM_true _ _) hstep
  | expire now =>
    cases hstep
    exact h.pass _
  | clean known =>
    cases hstep
    exact h.pass _
  | clear =>
    cases hstep
    exact h

/-! ### The total times -/

/-- The visits since the total times were last cleared. -/
def sinceClear (events : List DevEvent) : List Seen :=
  events.foldl (fun seen event => match event with | .clear => [] | event => seen ++ event.seen) []

/-- Each visit adds to its cell. -/
theorem stat_foldlM {visits : List Seen} {node node' : DevVisits} (hrun : visits.foldlM DevVisits.see node = .ok node')
    (cell : Fin (maxAppType * maxAppIdNum)) : node'.stat cell =
      node.stat cell + UInt32.ofNat (60 * visits.countP fun visit => statCell visit.appid = cell) := by
  induction visits generalizing node with
  | nil =>
    cases hrun
    exact (UInt32.add_zero _).symm
  | cons visit visits ih =>
    rw [List.foldlM_cons] at hrun
    obtain ⟨next, hnext, hrun⟩ := Except.bind_eq_ok.1 hrun
    rw [ih hrun, List.countP_cons, Nat.mul_add, UInt32.ofNat_add]
    rw [DevVisits.see] at hnext
    split at hnext
    · rename_i hcell
      cases hnext
      dsimp only
      by_cases h : statCell visit.appid = cell
      · obtain rfl : cell = ⟨_, hcell⟩ := Fin.ext h.symm
        rw [Function.update_self, if_pos (decide_eq_true rfl), reportIntervalSecs, UInt32.add_assoc, UInt32.add_comm 60]
        rfl
      · rw [Function.update_of_ne fun heq => h (congrArg Fin.val heq).symm, if_neg (by simpa using h)]
        rw [Nat.mul_zero]
        exact congrArg _ (UInt32.add_zero _).symm
    · cases hnext

theorem see_ok_iff (node : DevVisits) (visit : Seen) :
    (∃ node', node.see visit = .ok node') ↔ statCell visit.appid < maxAppType * maxAppIdNum := by
  rw [DevVisits.see]
  split
  · rename_i h
    exact iff_of_true ⟨_, rfl⟩ h
  · rename_i h
    exact iff_of_false (fun ⟨node', hnode⟩ => by cases hnode) h

theorem runDevice_ok_iff (events : List DevEvent) : (∃ node, runDevice events = .ok node) ↔
    ∀ visit ∈ events.flatMap DevEvent.seen, statCell visit.appid < maxAppType * maxAppIdNum := by
  have hreport (node : DevVisits) (visits : List Seen) : (∃ node', visits.foldlM DevVisits.see node = .ok node') ↔
      ∀ visit ∈ visits, statCell visit.appid < maxAppType * maxAppIdNum := by
    rw [Run.foldlM_ok_iff_start (I := fun _ _ => True)
      (D := fun _ visit => statCell visit.appid < maxAppType * maxAppIdNum)
      (fun _ _ _ _ _ _ => trivial) (fun _ node visit _ => see_ok_iff node visit) trivial]
    constructor
    · intro h visit hvisit
      obtain ⟨before, behind, hsplit⟩ := List.append_of_mem hvisit
      exact h before visit behind hsplit
    · rintro h before visit behind rfl
      exact h visit (List.mem_append_right _ List.mem_cons_self)
  have hevent (node : DevVisits) (event : DevEvent) : (∃ node', node.handle event = .ok node') ↔
      ∀ visit ∈ event.seen, statCell visit.appid < maxAppType * maxAppIdNum := by
    cases event with
    | report now updated known visits =>
      rw [DevVisits.handle, foldlM_reportVisit]
      exact hreport node _
    | expire now => exact iff_of_true ⟨_, rfl⟩ fun visit hvisit => absurd hvisit List.not_mem_nil
    | clean known => exact iff_of_true ⟨_, rfl⟩ fun visit hvisit => absurd hvisit List.not_mem_nil
    | clear => exact iff_of_true ⟨_, rfl⟩ fun visit hvisit => absurd hvisit List.not_mem_nil
  rw [runDevice, Run.foldlM_ok_iff_start (I := fun _ _ => True)
    (D := fun _ (event : DevEvent) => ∀ visit ∈ event.seen, statCell visit.appid < maxAppType * maxAppIdNum)
    (fun _ _ _ _ _ _ => trivial) (fun _ node event _ => hevent node event) trivial]
  constructor
  · intro h visit hvisit
    obtain ⟨event, hmem, hvisit⟩ := List.mem_flatMap.1 hvisit
    obtain ⟨before, behind, hsplit⟩ := List.append_of_mem hmem
    exact h before event behind hsplit visit hvisit
  · rintro h before event behind rfl visit hvisit
    exact h visit (List.mem_flatMap.2 ⟨event, List.mem_append_right _ List.mem_cons_self, hvisit⟩)

def HasStat (events : List DevEvent) (node : DevVisits) : Prop :=
  ∀ cell, node.stat cell = UInt32.ofNat (60 * (sinceClear events).countP fun visit => statCell visit.appid = cell)

theorem HasStat.handle {pre : List DevEvent} {node node' : DevVisits} {event : DevEvent} (h : HasStat pre node)
    (hrun : node.handle event = .ok node') : HasStat (pre ++ [event]) node' := by
  intro cell
  rw [sinceClear, List.foldl_concat]
  cases event with
  | report now updated known visits =>
    rw [DevVisits.handle, foldlM_reportVisit] at hrun
    rw [stat_foldlM hrun, h cell, ← UInt32.ofNat_add, ← Nat.mul_add, ← List.countP_append]
    rfl
  | expire now =>
    cases hrun
    dsimp only [DevEvent.seen]
    rw [List.append_nil]
    exact h cell
  | clean known =>
    cases hrun
    dsimp only [DevEvent.seen]
    rw [List.append_nil]
    exact h cell
  | clear =>
    cases hrun
    rfl

/-- Applications whose `id` is at most 512 have cells of their own. -/
theorem statCell_inj {a b : ℤ} (ha : 0 < a.tmod 1000 ∧ 0 < a.tdiv 1000) (hb : 0 < b.tmod 1000 ∧ 0 < b.tdiv 1000)
    (haid : a.tmod 1000 ≤ maxAppIdNum) (hbid : b.tmod 1000 ≤ maxAppIdNum) (h : statCell a = statCell b) : a = b := by
  have hae := Int.tmod_add_mul_tdiv a 1000
  have hbe := Int.tmod_add_mul_tdiv b 1000
  rw [statCell, statCell] at h
  simp only [maxAppIdNum] at *
  omega

theorem DevEvent.seen_appid {event : DevEvent} {visit : Seen} (h : visit ∈ event.seen) :
    0 < visit.appid.tmod 1000 ∧ 0 < visit.appid.tdiv 1000 := by
  cases event with
  | report now updated known visits =>
    obtain ⟨reported, hreported, rfl⟩ := List.mem_map.1 h
    exact (of_decide_eq_true (List.mem_filter.1 hreported).2 : Taken now updated known reported).2
  | expire => cases h
  | clean => cases h
  | clear => cases h

theorem sinceClear_appid {events : List DevEvent} :
    ∀ visit ∈ sinceClear events, 0 < visit.appid.tmod 1000 ∧ 0 < visit.appid.tdiv 1000 := by
  induction events using List.reverseRecOn with
  | nil => exact fun visit hvisit => absurd hvisit List.not_mem_nil
  | append_singleton events event ih =>
    intro visit hvisit
    rw [sinceClear, List.foldl_concat] at hvisit
    split at hvisit
    · cases hvisit
    · rcases List.mem_append.1 hvisit with hvisit | hvisit
      · exact ih visit hvisit
      · exact event.seen_appid hvisit

/-! ### Over any run -/

/-- The records of an application are those of its sessions, whatever the other applications do. -/
theorem visitRecords_exact {events : List DevEvent} (htimes : (events.filterMap DevEvent.reportTime?).Pairwise (· ≤ ·))
    (hcells : ∀ visit ∈ events.flatMap DevEvent.seen, statCell visit.appid < maxAppType * maxAppIdNum) :
    ∃ node, runDevice events = .ok node ∧ Placed node ∧ ∀ appid, ∃ removed live,
      Sessions events appid (seenOf events appid) (recordsOf node appid) removed live := by
  obtain ⟨node, hrun⟩ := (runDevice_ok_iff events).2 hcells
  exact ⟨node, hrun, placed_runDevice hrun, fun appid => sessions_runDevice hrun appid htimes⟩

/-- Three reports and a pass after a pause. -/
def shortEvening : List DevEvent :=
  [.report 10000 0 (fun _ => true) [⟨1001, 1⟩, ⟨2003, 0⟩], .report 10060 0 (fun _ => true) [⟨1001, 0⟩], .expire 14000,
    .report 14010 0 (fun _ => true) [⟨1001, 1⟩]]

theorem visitRecords_shortEvening : (shortEvening.filterMap DevEvent.reportTime?).Pairwise (· ≤ ·) ∧
    (∀ visit ∈ shortEvening.flatMap DevEvent.seen, statCell visit.appid < maxAppType * maxAppIdNum) ∧
    ∃ node, runDevice shortEvening = .ok node ∧ ∃ removed live,
      Sessions shortEvening 1001 (seenOf shortEvening 1001) (recordsOf node 1001) removed live := by
  have htimes : (shortEvening.filterMap DevEvent.reportTime?).Pairwise (· ≤ ·) := by decide
  have hcells : ∀ visit ∈ shortEvening.flatMap DevEvent.seen, statCell visit.appid < maxAppType * maxAppIdNum := by
    decide
  obtain ⟨node, hrun, -, hsessions⟩ := visitRecords_exact htimes hcells
  exact ⟨htimes, hcells, node, hrun, hsessions 1001⟩

/-- The total times are those of the cells; no write leaves `stat` exactly if all cells are in it, and an application
has its time to itself if no `id` is above 512. -/
theorem stat_exact (events : List DevEvent) :
    ((∃ node, runDevice events = .ok node) ↔
      ∀ visit ∈ events.flatMap DevEvent.seen, statCell visit.appid < maxAppType * maxAppIdNum) ∧
    ∀ node, runDevice events = .ok node →
      (∀ cell, node.stat cell =
        UInt32.ofNat (60 * (sinceClear events).countP fun visit => statCell visit.appid = cell)) ∧
      ((∀ visit ∈ sinceClear events, visit.appid.tmod 1000 ≤ maxAppIdNum) →
        ∀ visit ∈ sinceClear events, ∀ cell : Fin (maxAppType * maxAppIdNum), cell.val = statCell visit.appid →
          node.stat cell = UInt32.ofNat (60 * (sinceClear events).countP fun other => other.appid = visit.appid)) := by
  refine ⟨runDevice_ok_iff events, fun node hrun => ?_⟩
  have hstart : HasStat [] {} := fun _ => rfl
  have hstat : HasStat events node :=
    Run.foldlM_invariant (I := HasStat) (fun _ _ _ _ h hstep => h.handle hstep) hstart hrun
  refine ⟨hstat, fun hids visit hvisit cell hcell => ?_⟩
  rw [hstat cell, hcell]
  have hcount : (sinceClear events).countP (fun other => statCell other.appid = statCell visit.appid) =
      (sinceClear events).countP fun other => other.appid = visit.appid := by
    refine List.countP_congr fun other hother => ?_
    rw [decide_eq_true_iff, decide_eq_true_iff]
    exact ⟨statCell_inj (sinceClear_appid other hother) (sinceClear_appid visit hvisit) (hids other hother)
      (hids visit hvisit), congrArg statCell⟩
  rw [hcount]

end Oaf
