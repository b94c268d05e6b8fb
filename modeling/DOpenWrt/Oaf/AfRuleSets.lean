import DOpenWrt.Lib.Except
import DOpenWrt.Oaf.AfConfig

/-!
# Filter rules as sets

The commands stand for operations on three sets: the filtered applications, the clients of the manual mode and the
clients exempt in the automatic mode. Rows of the status table have 512 cells while the remainder of an id reaches
999, so an id whose remainder is 512 or more names the cell of the id 488 above it, or leaves the table from the last
row. Among ids that avoid this the tables are the sets.
-/

namespace Oaf
open CString (str)

structure RuleSets where
  apps : Set ℤ
  macList : Set Mac
  whitelist : Set Mac

inductive Command
  | addApps (ids : List ℤ)
  | delApps (ids : List ℤ)
  | cleanApps
  | setMacList (macs : List Mac)
  | setWhitelist (macs : List Mac)

def Command.ids : Command → List ℤ
  | addApps ids => ids
  | delApps ids => ids
  | _ => []

/-- The elements of the member `name` of the data of a command. -/
def readData (data : Option CJson) (name : List UInt8) : Except Fault (Option (List CJson)) :=
  match data with
  | none => .ok none
  | some data => (·.map CJson.child) <$> cJsonGetObjectItem data name

def readApps (data : Option CJson) : Except Fault (Option (List ℤ)) :=
  (·.map (·.map CJson.valueint)) <$> readData data (str "apps")

def readStrings : List CJson → Except Fault (List (List UInt8))
  | [] => .ok []
  | c :: cs =>
    match c.valuestring with
    | none => .error .nullPointer
    | some s => do
      let ss ← readStrings cs
      return s :: ss

def readMacs (scan : List UInt8 → Option Mac) (data : Option CJson) : Except Fault (Option (List Mac)) := do
  match ← readData data (str "mac_list") with
  | none => return none
  | some items => (fun texts => some (texts.filterMap scan)) <$> readStrings items

def AfRules.AfConfigCmd.read (scan : List UInt8 → Option Mac) (data : Option CJson) :
    AfRules.AfConfigCmd → Except Fault (Option Command)
  | .addAppid => (·.map Command.addApps) <$> readApps data
  | .delAppid => (·.map Command.delApps) <$> readApps data
  | .cleanAppid => .ok (some Command.cleanApps)
  | .setMacList => (·.map Command.setMacList) <$> readMacs scan data
  | .setWhitelistMacList => (·.map Command.setWhitelist) <$> readMacs scan data

/-- What a parsed command asks for, none if it is rejected. -/
def readCommand (scan : List UInt8 → Option Mac) (configObj : CJson) : Except Fault (Option Command) := do
  match ← cJsonGetObjectItem configObj (str "op") with
  | none => return none
  | some op => do
    let data ← cJsonGetObjectItem configObj (str "data")
    match AfRules.afFindHandler op.valueint with
    | none => return none
    | some cmd => cmd.read scan data

namespace RuleSets

def init : RuleSets := ⟨∅, ∅, ∅⟩

def apply (r : RuleSets) : Command → RuleSets
  | .addApps ids => { r with apps := r.apps ∪ {a | a ∈ ids} }
  | .delApps ids => { r with apps := r.apps \ {a | a ∈ ids} }
  | .cleanApps => { r with apps := ∅ }
  | .setMacList macs => { r with macList := {m | m ∈ macs} }
  | .setWhitelist macs => { r with whitelist := {m | m ∈ macs} }

def step (scan : List UInt8 → Option Mac) (r : RuleSets) (configObj : CJson) : RuleSets :=
  match readCommand scan configObj with
  | .ok c => c.elim r r.apply
  | .error _ => r

def Selected (r : RuleSets) (gUserMode : ℤ) (client : Mac) : Prop :=
  if gUserMode = 0 then client ∉ r.whitelist else client ∈ r.macList

end RuleSets

/-! ### Cells -/

theorem appCell_eq {a : ℤ} (ha : 1001 ≤ a ∧ a ≤ 31999) :
    (appCell a).map Fin.val = if a / 1000 * 512 + a % 1000 < 32 * 512 then
      some (a / 1000 * 512 + a % 1000).toNat else none := by
  have hq : afAppType a = a / 1000 := Int.tdiv_eq_ediv_of_nonneg (by omega)
  have hr : afAppId a = a % 1000 := Int.tmod_eq_emod_of_nonneg (by omega)
  have h512 : (afMaxAppNum : ℤ) = 512 := rfl
  simp only [appCell, hq, hr, h512]
  have : 0 ≤ a / 1000 * 512 + a % 1000 := by omega
  by_cases h : a / 1000 * 512 + a % 1000 < 32 * 512
  · rw [dif_pos ⟨this, h⟩, if_pos h]
    rfl
  · rw [dif_neg fun h' => h h'.2, if_neg h]
    rfl

theorem appCell_isSome {a : ℤ} (ha : 1001 ≤ a ∧ a ≤ 31999) : (appCell a).isSome ↔ a < 31512 := by
  have := appCell_eq ha
  split at this
  · obtain ⟨c, hc, -⟩ := Option.map_eq_some_iff.1 this
    simp only [hc, Option.isSome_some, true_iff]
    omega
  · rw [Option.map_eq_none_iff.1 this]
    simp only [Option.isSome_none, Bool.false_eq_true, false_iff]
    omega

/-- Two ids share a cell only if they lie 488 apart around the end of a row. -/
theorem appCell_eq_iff {a b : ℤ} (ha : 1001 ≤ a ∧ a ≤ 31999) (hb : 1001 ≤ b ∧ b ≤ 31999) (ha' : a < 31512)
    (hab : a < b) : appCell a = appCell b ↔ 512 ≤ a % 1000 ∧ b = a + 488 := by
  have hinj : appCell a = appCell b ↔ (appCell a).map Fin.val = (appCell b).map Fin.val :=
    (Option.map_injective Fin.val_injective).eq_iff.symm
  rw [hinj, appCell_eq ha, appCell_eq hb, if_pos (by omega)]
  split
  · rw [Option.some.injEq]
    omega
  · simp only [reduceCtorEq, false_iff]
    omega

/-- No id of the set names a cell outside the table, or the cell of another id of the set. -/
def CellsApart (A : Set ℤ) : Prop := ∀ a ∈ A, a < 31512 ∧ (512 ≤ a % 1000 → a + 488 ∉ A)

theorem CellsApart.isSome {A : Set ℤ} (h : CellsApart A) (hA : A ⊆ Set.Icc 1001 31999) {a : ℤ} (ha : a ∈ A) :
    ∃ c, appCell a = some c :=
  Option.isSome_iff_exists.1 ((appCell_isSome (hA ha)).2 (h a ha).1)

theorem CellsApart.injective {A : Set ℤ} (h : CellsApart A) (hA : A ⊆ Set.Icc 1001 31999) {a b : ℤ} (ha : a ∈ A)
    (hb : b ∈ A) (hab : appCell a = appCell b) : a = b := by
  rcases lt_trichotomy a b with hlt | heq | hlt
  · obtain ⟨h512, rfl⟩ := (appCell_eq_iff (hA ha) (hA hb) (h a ha).1 hlt).1 hab
    exact absurd hb ((h a ha).2 h512)
  · exact heq
  · obtain ⟨h512, rfl⟩ := (appCell_eq_iff (hA hb) (hA ha) (h b hb).1 hlt).1 hab.symm
    exact absurd ha ((h b hb).2 h512)

/-! ### The tables represent the sets -/

/-- On the ids of `A`, the tables stand for the sets. -/
structure Represents (A : Set ℤ) (s : AfRules) (r : RuleSets) : Prop where
  status : ∀ a ∈ A, ∀ c, appCell a = some c → (s.gAppIdArray c ≠ 0 ↔ a ∈ r.apps)
  macList : ∀ m, (s.afMacFind m).isSome ↔ m ∈ r.macList
  whitelist : ∀ m, (s.afWhitelistMacFind m).isSome ↔ m ∈ r.whitelist

section

variable {A : Set ℤ} {s : AfRules} {r : RuleSets} {scan : List UInt8 → Option Mac}

theorem represents_init : Represents A AfRules.init RuleSets.init where
  status a _ c _ := by simp [AfRules.init, RuleSets.init]
  macList m := by simp [AfRules.init, RuleSets.init, AfRules.afMacFind, BucketTable.find_empty]
  whitelist m := by simp [AfRules.init, RuleSets.init, AfRules.afWhitelistMacFind, BucketTable.find_empty]

/-- The loop writes the cells of its ids and no other cell of an id of `A`. -/
theorem setStatus_spec (hA : A ⊆ Set.Icc 1001 31999) (hC : CellsApart A) (status : ℤ) (items : List CJson)
    (hitems : ∀ a ∈ items.map CJson.valueint, a ∈ A) (s : AfRules) :
    ∃ g, AfRules.setStatus status s items = .ok { s with gAppIdArray := g } ∧
      ∀ a ∈ A, ∀ c, appCell a = some c →
        g c = if a ∈ items.map CJson.valueint then status else s.gAppIdArray c := by
  induction items generalizing s with
  | nil => exact ⟨s.gAppIdArray, rfl, fun a _ c _ => by simp⟩
  | cons item rest ih =>
    have hitem : item.valueint ∈ A := hitems _ (by simp)
    obtain ⟨cell, hcell⟩ := hC.isSome hA hitem
    obtain ⟨g, hg, hspec⟩ := ih (fun a ha => hitems a (List.mem_cons_of_mem _ ha))
      { s with gAppIdArray := Function.update s.gAppIdArray cell status }
    refine ⟨g, ?_, fun a ha c hc => ?_⟩
    · simp only [AfRules.setStatus, appCellM, hcell]
      exact hg
    · rw [hspec a ha c hc]
      simp only [List.map_cons, List.mem_cons]
      by_cases hrest : a ∈ rest.map CJson.valueint
      · simp [hrest]
      · by_cases heq : a = item.valueint
        · rw [if_neg hrest, if_pos (.inl heq)]
          have : c = cell := by simpa [heq, hcell, eq_comm] using hc
          rw [this, Function.update_self]
        · have hne : c ≠ cell := by
            rintro rfl
            exact heq (hC.injective hA ha hitem (hc.trans hcell.symm))
          simp [hrest, heq, hne]

theorem addMacs_spec (add : AfRules → Mac → AfRules) (items : List CJson) {texts : List (List UInt8)}
    (h : readStrings items = .ok texts) (s : AfRules) :
    AfRules.addMacs scan add s items = .ok ((texts.filterMap scan).foldl add s) := by
  induction items generalizing texts s with
  | nil =>
    cases h
    rfl
  | cons item rest ih =>
    rw [readStrings] at h
    cases hs : item.valuestring with
    | none => simp [hs] at h
    | some text =>
      rw [hs] at h
      cases hrest : readStrings rest with
      | error e => simp [hrest, Bind.bind, Except.bind] at h
      | ok texts' =>
        rw [hrest] at h
        cases h
        rw [AfRules.addMacs, hs]
        cases hm : scan text with
        | none => simpa [hm] using ih hrest s
        | some mac => simpa [hm] using ih hrest (add s mac)

theorem foldl_afMacAdd (macs : List Mac) (s : AfRules) :
    macs.foldl AfRules.afMacAdd s = { s with afMacHtable := macs.foldl (BucketTable.add hashMac) s.afMacHtable } := by
  induction macs generalizing s with
  | nil => rfl
  | cons mac macs ih =>
    rw [List.foldl_cons, ih]
    rfl

theorem foldl_afWhitelistMacAdd (macs : List Mac) (s : AfRules) :
    macs.foldl AfRules.afWhitelistMacAdd s =
      { s with afWhitelistMacHtable := macs.foldl (BucketTable.add hashMac) s.afWhitelistMacHtable } := by
  induction macs generalizing s with
  | nil => rfl
  | cons mac macs ih =>
    rw [List.foldl_cons, ih]
    rfl

theorem changeAppStatus_spec (hA : A ⊆ Set.Icc 1001 31999) (hC : CellsApart A) (status : ℤ) {data : Option CJson}
    {ids : Option (List ℤ)} (h : readApps data = .ok ids) (hids : ∀ l ∈ ids, ∀ a ∈ l, a ∈ A) (s : AfRules) :
    ∃ g ret, s.afChangeAppStatus data status = .ok ({ s with gAppIdArray := g }, ret) ∧
      ∀ a ∈ A, ∀ c, appCell a = some c → g c = if ∃ l ∈ ids, a ∈ l then status else s.gAppIdArray c := by
  cases data with
  | none =>
    cases h
    exact ⟨s.gAppIdArray, -1, rfl, fun a _ c _ => by simp⟩
  | some data =>
    simp only [readApps, readData] at h
    simp only [AfRules.afChangeAppStatus]
    cases hitem : cJsonGetObjectItem data (str "apps") with
    | error e => simp [hitem] at h
    | ok item =>
      rw [hitem] at h
      cases item with
      | none =>
        cases h
        exact ⟨s.gAppIdArray, -1, rfl, fun a _ c _ => by simp⟩
      | some arr =>
        cases h
        obtain ⟨g, hg, hspec⟩ := setStatus_spec hA hC status arr.child (hids _ rfl) s
        refine ⟨g, 0, ?_, fun a ha c hc => ?_⟩
        · simp only [Bind.bind, Except.bind, hg]
          rfl
        · simpa using hspec a ha c hc

theorem setMacs_spec (flush : AfRules → AfRules) (add : AfRules → Mac → AfRules) {data : Option CJson}
    {macs : Option (List Mac)} (h : readMacs scan data = .ok macs) (s : AfRules) :
    ∃ ret, s.setMacs scan flush add data = .ok (macs.elim s fun macs => macs.foldl add (flush s), ret) := by
  cases data with
  | none =>
    cases h
    exact ⟨-1, rfl⟩
  | some data =>
    simp only [readMacs, readData] at h
    simp only [AfRules.setMacs]
    cases hitem : cJsonGetObjectItem data (str "mac_list") with
    | error e => simp [hitem, Bind.bind, Except.bind] at h
    | ok item =>
      rw [hitem] at h
      cases item with
      | none =>
        cases h
        exact ⟨-1, rfl⟩
      | some arr =>
        cases htexts : readStrings arr.child with
        | error e => simp [htexts, Bind.bind, Except.bind] at h
        | ok texts =>
          simp only [Bind.bind, Except.bind, Except.map_ok, Option.map_some, htexts, Except.ok.injEq] at h
          subst h
          refine ⟨0, ?_⟩
          simp only [Bind.bind, Except.bind, addMacs_spec add arr.child htexts]
          rfl

theorem Represents.setMacList (hs : Represents A s r) (macs : List Mac) :
    Represents A (macs.foldl AfRules.afMacAdd s.afMacListFlush) { r with macList := {m | m ∈ macs} } := by
  rw [foldl_afMacAdd]
  refine ⟨hs.status, fun m => ?_, hs.whitelist⟩
  simp [AfRules.afMacFind, AfRules.afMacListFlush, BucketTable.find_foldl_add, BucketTable.find_empty]

theorem Represents.setWhitelist (hs : Represents A s r) (macs : List Mac) :
    Represents A (macs.foldl AfRules.afWhitelistMacAdd s.afWhitelistMacFlush) { r with whitelist := {m | m ∈ macs} } := by
  rw [foldl_afWhitelistMacAdd]
  refine ⟨hs.status, hs.macList, fun m => ?_⟩
  simp [AfRules.afWhitelistMacFind, AfRules.afWhitelistMacFlush, BucketTable.find_foldl_add, BucketTable.find_empty]

theorem Represents.setApps (hs : Represents A s r) {g : Cell → ℤ} {apps : Set ℤ}
    (h : ∀ a ∈ A, ∀ c, appCell a = some c → (g c ≠ 0 ↔ a ∈ apps)) :
    Represents A { s with gAppIdArray := g } { r with apps := apps } :=
  ⟨h, hs.macList, hs.whitelist⟩

/-- A handler that does not fault does what the command asks for. -/
theorem Represents.handler (hA : A ⊆ Set.Icc 1001 31999) (hC : CellsApart A) (hs : Represents A s r)
    {cmd : AfRules.AfConfigCmd} {data : Option CJson} {c : Option Command} (h : cmd.read scan data = .ok c)
    (hids : ∀ c' ∈ c, ∀ a ∈ c'.ids, a ∈ A) :
    ∃ s' ret, s.handler scan cmd data = .ok (s', ret) ∧ Represents A s' (c.elim r r.apply) := by
  cases cmd with
  | addAppid =>
    obtain ⟨ids, hread, rfl⟩ := Except.map_eq_ok.1 h
    obtain ⟨g, ret, hok, hg⟩ := changeAppStatus_spec hA hC 1 hread (fun l hl a ha =>
      hids _ (Option.mem_map_of_mem Command.addApps hl) a ha) s
    refine ⟨_, ret, hok, ?_⟩
    cases ids with
    | none => exact hs.setApps fun a ha c hc => by simpa [hg a ha c hc] using hs.status a ha c hc
    | some l =>
      refine hs.setApps fun a ha c hc => ?_
      have := hs.status a ha c hc
      by_cases hal : a ∈ l <;> simp [hg a ha c hc, hal, this]
  | delAppid =>
    obtain ⟨ids, hread, rfl⟩ := Except.map_eq_ok.1 h
    obtain ⟨g, ret, hok, hg⟩ := changeAppStatus_spec hA hC 0 hread (fun l hl a ha =>
      hids _ (Option.mem_map_of_mem Command.delApps hl) a ha) s
    refine ⟨_, ret, hok, ?_⟩
    cases ids with
    | none => exact hs.setApps fun a ha c hc => by simpa [hg a ha c hc] using hs.status a ha c hc
    | some l =>
      refine hs.setApps fun a ha c hc => ?_
      have := hs.status a ha c hc
      by_cases hal : a ∈ l <;> simp [hg a ha c hc, hal, this]
  | cleanAppid =>
    cases h
    exact ⟨_, 0, rfl, hs.setApps fun a _ c _ => by simp⟩
  | setMacList =>
    obtain ⟨macs, hread, rfl⟩ := Except.map_eq_ok.1 h
    obtain ⟨ret, hok⟩ := setMacs_spec AfRules.afMacListFlush AfRules.afMacAdd hread s
    refine ⟨_, ret, hok, ?_⟩
    cases macs with
    | none => exact hs
    | some macs => exact hs.setMacList macs
  | setWhitelistMacList =>
    obtain ⟨macs, hread, rfl⟩ := Except.map_eq_ok.1 h
    obtain ⟨ret, hok⟩ := setMacs_spec AfRules.afWhitelistMacFlush AfRules.afWhitelistMacAdd hread s
    refine ⟨_, ret, hok, ?_⟩
    cases macs with
    | none => exact hs
    | some macs => exact hs.setWhitelist macs

/-- A request that can be read and names only ids of `A`. -/
def Readable (scan : List UInt8 → Option Mac) (A : Set ℤ) (configObj : CJson) : Prop :=
  ∃ c, readCommand scan configObj = .ok c ∧ ∀ c' ∈ c, ∀ a ∈ c'.ids, a ∈ A

theorem Represents.step (hA : A ⊆ Set.Icc 1001 31999) (hC : CellsApart A) (hs : Represents A s r)
    {configObj : CJson} (h : Readable scan A configObj) :
    ∃ s' ret, s.afConfigHandle scan configObj = .ok (s', ret) ∧ Represents A s' (r.step scan configObj) := by
  obtain ⟨c, hread, hids⟩ := h
  rw [RuleSets.step, hread]
  rw [readCommand] at hread
  rw [AfRules.afConfigHandle]
  cases hop : cJsonGetObjectItem configObj (str "op") with
  | error e => simp [hop, Bind.bind, Except.bind] at hread
  | ok op =>
    rw [hop] at hread
    cases op with
    | none =>
      cases hread
      exact ⟨s, -1, rfl, hs⟩
    | some op =>
      cases hdata : cJsonGetObjectItem configObj (str "data") with
      | error e => simp [hdata, Bind.bind, Except.bind] at hread
      | ok data =>
        simp only [hdata, Bind.bind, Except.bind] at hread ⊢
        cases hcmd : AfRules.afFindHandler op.valueint with
        | none =>
          rw [hcmd] at hread
          cases hread
          exact ⟨s, -1, rfl, hs⟩
        | some cmd =>
          rw [hcmd] at hread
          exact hs.handler hA hC hread hids

/-- The tables after a run of requests. -/
def AfRules.run (scan : List UInt8 → Option Mac) (requests : List CJson) : Except Fault AfRules :=
  requests.foldlM (fun s configObj => Prod.fst <$> s.afConfigHandle scan configObj) AfRules.init

def RuleSets.run (scan : List UInt8 → Option Mac) (requests : List CJson) : RuleSets :=
  requests.foldl (RuleSets.step scan) RuleSets.init

theorem Represents.run (hA : A ⊆ Set.Icc 1001 31999) (hC : CellsApart A) {requests : List CJson}
    (h : ∀ configObj ∈ requests, Readable scan A configObj) :
    ∃ s, AfRules.run scan requests = .ok s ∧ Represents A s (RuleSets.run scan requests) := by
  suffices ∀ s r, Represents A s r → ∃ s',
      requests.foldlM (fun s configObj => Prod.fst <$> AfRules.afConfigHandle s scan configObj) s = .ok s' ∧
        Represents A s' (requests.foldl (RuleSets.step scan) r) from this _ _ represents_init
  induction requests with
  | nil => exact fun s r hs => ⟨s, rfl, hs⟩
  | cons configObj rest ih =>
    intro s r hs
    obtain ⟨s', ret, hok, hs'⟩ := hs.step hA hC (h configObj (by simp))
    obtain ⟨s'', hrun, hs''⟩ := ih (fun j hj => h j (List.mem_cons_of_mem _ hj)) s' _ hs'
    refine ⟨s'', ?_, hs''⟩
    rw [List.foldlM_cons, hok]
    exact hrun

theorem Represents.matchUser (hs : Represents A s r) (gUserMode : ℤ) (client : Mac) :
    s.matchAppFilterUser gUserMode client = true ↔ r.Selected gUserMode client := by
  rw [AfRules.matchAppFilterUser, RuleSets.Selected]
  split
  · rw [← hs.whitelist]
    cases s.afWhitelistMacFind client <;> simp
  · rw [← hs.macList]
    cases s.afMacFind client <;> simp

theorem Represents.matchRule (hA : A ⊆ Set.Icc 1001 31999) (hC : CellsApart A) (hs : Represents A s r)
    (gUserMode : ℤ) {appid : ℤ} (hid : appid ∈ A) (client : Mac) :
    ∃ b, s.matchAppFilterRule gUserMode 0 appid client = .ok b ∧
      (b = true ↔ r.Selected gUserMode client ∧ appid ∈ r.apps) := by
  rw [← hs.matchUser gUserMode client, AfRules.matchAppFilterRule]
  cases s.matchAppFilterUser gUserMode client with
  | false => exact ⟨false, rfl, by simp⟩
  | true =>
    obtain ⟨c, hc⟩ := hC.isSome hA hid
    refine ⟨decide (s.gAppIdArray c ≠ 0), ?_, ?_⟩
    · simp [AfRules.afGetAppStatus, appCellM, hc, Bind.bind, Except.bind]
      rfl
    · simpa using hs.status appid hid c hc

/-- The tables behave as the sets on the ids of `A`: no run of requests over `A` faults, afterwards every id of `A` is
matched as the sets say, and no two ids of `A` share a cell. -/
def BehavesAsSets (scan : List UInt8 → Option Mac) (A : Set ℤ) : Prop :=
  (∀ requests : List CJson, (∀ configObj ∈ requests, Readable scan A configObj) →
    ∃ s, AfRules.run scan requests = .ok s ∧ ∀ gUserMode client, ∀ appid ∈ A,
      ∃ b, s.matchAppFilterRule gUserMode 0 appid client = .ok b ∧
        (b = true ↔ (RuleSets.run scan requests).Selected gUserMode client ∧
          appid ∈ (RuleSets.run scan requests).apps)) ∧
  ∀ a ∈ A, ∀ b ∈ A, a ≠ b → appCell a ≠ appCell b

theorem behavesAsSets_iff (scan : List UInt8 → Option Mac) (A : Set ℤ) (hA : A ⊆ Set.Icc 1001 31999) :
    BehavesAsSets scan A ↔ ∀ a ∈ A, a < 31512 ∧ (512 ≤ a % 1000 → a + 488 ∉ A) := by
  constructor
  · rintro ⟨hrun, hshare⟩ a ha
    have hlt : a < 31512 := by
      -- an empty whitelist selects every client, so the status of `a` is read
      obtain ⟨s, hs, hmatch⟩ := hrun [] (by simp)
      cases hs
      obtain ⟨b, hb, -⟩ := hmatch 0 ⟨0, 0, 0, 0, 0, 0⟩ a ha
      rw [← appCell_isSome (hA ha)]
      cases hc : appCell a with
      | none => simp [AfRules.matchAppFilterRule, AfRules.matchAppFilterUser, AfRules.afWhitelistMacFind, AfRules.init,
          BucketTable.find_empty, AfRules.afGetAppStatus, appCellM, hc, Bind.bind, Except.bind] at hb
      | some c => rfl
    refine ⟨hlt, fun h512 hmem => ?_⟩
    exact hshare a ha _ hmem (by omega) ((appCell_eq_iff (hA ha) (hA hmem) hlt (by omega)).2 ⟨h512, rfl⟩)
  · intro hC
    refine ⟨fun requests h => ?_, fun a ha b hb hab heq => hab (CellsApart.injective hC hA ha hb heq)⟩
    obtain ⟨s, hs, hrep⟩ := Represents.run hA hC h
    exact ⟨s, hs, fun gUserMode client appid hid => hrep.matchRule hA hC gUserMode hid client⟩

end

/-- `{"op": 1, "data": {"apps": [2000]}}`. -/
def addApp2000 : CJson :=
  .node none none 0
    [.node (some (str "op")) none 1 [],
      .node (some (str "data")) none 0 [.node (some (str "apps")) none 0 [.node none none 2000 []]]]

theorem readCommand_addApp2000 (scan : List UInt8 → Option Mac) :
    readCommand scan addApp2000 = .ok (some (.addApps [2000])) := rfl

/-- Application 1512 is filtered after only 2000 was added. -/
theorem app_1512_filtered_with_2000 :
    (∃ s, AfRules.run (fun _ => none) [addApp2000] = .ok s ∧
      s.matchAppFilterRule 0 0 1512 ⟨2, 0, 0, 0, 0, 1⟩ = .ok true) ∧
    Readable (fun _ => none) (Set.Icc 1001 31999) addApp2000 ∧
    (1512 : ℤ) ∉ (RuleSets.run (fun _ => none) [addApp2000]).apps ∧
    ¬ BehavesAsSets (fun _ => none) (Set.Icc 1001 31999) := by
  have hread := readCommand_addApp2000 fun _ => none
  refine ⟨⟨_, rfl, rfl⟩, ⟨_, hread, ?_⟩, ?_, ?_⟩
  · rintro c ⟨⟩ a ha
    simp only [Command.ids, List.mem_singleton] at ha
    simp [ha]
  · simp [RuleSets.run, RuleSets.step, hread, RuleSets.apply, RuleSets.init]
  · rintro ⟨-, hshare⟩
    exact hshare 1512 (by simp) 2000 (by simp) (by decide) (by decide)

/-! ### Texts of MAC addresses -/

def hexValue (c : UInt8) : Option UInt8 :=
  if '0'.toUInt8 ≤ c ∧ c ≤ '9'.toUInt8 then some (c - '0'.toUInt8)
  else if 'a'.toUInt8 ≤ c ∧ c ≤ 'f'.toUInt8 then some (c - 'a'.toUInt8 + 10)
  else if 'A'.toUInt8 ≤ c ∧ c ≤ 'F'.toUInt8 then some (c - 'A'.toUInt8 + 10)
  else none

/-- Two hexadecimal digits and what follows them. -/
def scanByte : List UInt8 → Option (UInt8 × List UInt8)
  | hi :: lo :: rest => do
    let hi ← hexValue hi
    let lo ← hexValue lo
    return (hi * 16 + lo, rest)
  | _ => none

/-- A colon and a byte. -/
def scanNext : List UInt8 → Option (UInt8 × List UInt8)
  | c :: rest => if c = ':'.toUInt8 then scanByte rest else none
  | [] => none

/-- `sscanf` with `%02x:%02x:%02x:%02x:%02x:%02x`, on texts with two digits to a byte. -/
def scanMac (text : List UInt8) : Option Mac := do
  let (b0, text) ← scanByte text
  let (b1, text) ← scanNext text
  let (b2, text) ← scanNext text
  let (b3, text) ← scanNext text
  let (b4, text) ← scanNext text
  let (b5, _) ← scanNext text
  return ⟨b0, b1, b2, b3, b4, b5⟩

/-- `{"op": 5, "data": {"mac_list": ["02:00:00:00:00:1f", "?"]}}`. -/
def exemptClient : CJson :=
  .node none none 0
    [.node (some (str "op")) none 5 [],
      .node (some (str "data")) none 0
        [.node (some (str "mac_list")) none 0
          [.node none (some (str "02:00:00:00:00:1f")) 0 [], .node none (some (str "?")) 0 []]]]

/-- The text that is no address is left out. -/
theorem readCommand_exemptClient :
    readCommand scanMac exemptClient = .ok (some (.setWhitelist [⟨2, 0, 0, 0, 0, 0x1f⟩])) := rfl

/-- All ids whose remainder is less than 512: application 2000 is filtered for every client but the exempt one. -/
theorem behavesAsSets_lt_512 :
    BehavesAsSets scanMac {a | 1001 ≤ a ∧ a ≤ 31999 ∧ a % 1000 < 512} ∧
    ∃ s, AfRules.run scanMac [addApp2000, exemptClient] = .ok s ∧ ∀ client,
      ∃ b, s.matchAppFilterRule 0 0 2000 client = .ok b ∧ (b = true ↔ client ≠ ⟨2, 0, 0, 0, 0, 0x1f⟩) := by
  have hsets : BehavesAsSets scanMac {a | 1001 ≤ a ∧ a ≤ 31999 ∧ a % 1000 < 512} :=
    (behavesAsSets_iff scanMac {a | 1001 ≤ a ∧ a ≤ 31999 ∧ a % 1000 < 512} fun _ h => ⟨h.1, h.2.1⟩).2
      fun _ h => ⟨by have := h.2; omega, fun h512 => absurd h.2.2 (by omega)⟩
  have hadd := readCommand_addApp2000 scanMac
  have hreadable : ∀ configObj ∈ [addApp2000, exemptClient],
      Readable scanMac {a | 1001 ≤ a ∧ a ≤ 31999 ∧ a % 1000 < 512} configObj := by
    simp only [List.forall_mem_cons]
    refine ⟨⟨_, hadd, ?_⟩, ⟨_, readCommand_exemptClient, ?_⟩, fun c hc => absurd hc List.not_mem_nil⟩
    · rintro c ⟨⟩ a ha
      obtain rfl := List.mem_singleton.1 ha
      exact ⟨by decide, by decide, by decide⟩
    · rintro c ⟨⟩ a ha
      exact absurd ha List.not_mem_nil
  obtain ⟨s, hrun, hmatch⟩ := hsets.1 [addApp2000, exemptClient] hreadable
  refine ⟨hsets, s, hrun, fun client => ?_⟩
  obtain ⟨b, hb, hiff⟩ := hmatch 0 client 2000 ⟨by decide, by decide, by decide⟩
  refine ⟨b, hb, hiff.trans ?_⟩
  simp [RuleSets.run, RuleSets.step, hadd, readCommand_exemptClient, RuleSets.apply, RuleSets.init, RuleSets.Selected]

end Oaf
