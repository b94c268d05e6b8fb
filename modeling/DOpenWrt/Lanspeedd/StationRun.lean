import DOpenWrt.Lib.Run
import DOpenWrt.Lanspeedd.StationExtend

/-!
# Runs of station dumps

A run follows, beside the provider, what each station really counts and everything that was reported. `Legal` is what
the kernel guarantees of a dump; `StationsOk` ties the reports to the true counters.
-/

namespace Lanspeedd

/-- A station of a dump, with the association it is in and its true counters. -/
structure StationEntry where
  interface : WirelessInterface
  raw : RawStationCounter
  association : ℕ
  truth : LinkCounters
  deriving DecidableEq

def StationEntry.key (e : StationEntry) : StationKey := stationKey e.interface e.raw

/-- The attributes show the true counters, which fit 64 bits. -/
def StationEntry.Faithful (e : StationEntry) : Prop :=
  ∀ c : StationCounter, e.raw.counters.get c = (c.width e.raw.rxByteWidth e.raw.txByteWidth).shown (e.truth.get c) ∧
    e.truth.get c ≤ u64Max

structure StationDump where
  entries : List StationEntry
  readBeginMs : ℕ
  readEndMs : ℕ

def StationDump.keys (d : StationDump) : List StationKey := d.entries.map (·.key)

structure StationReport where
  key : StationKey
  association : ℕ
  generation : ℕ
  counters : LinkCounters
  truth : LinkCounters
  deriving DecidableEq

/-- The provider, the last entry of each station in an accepted dump, and the reports, newest first. -/
structure TrackedStations where
  provider : SystemNl80211StationProvider
  seen : StationKey → Option StationEntry
  log : List StationReport

namespace TrackedStations

def new : TrackedStations := ⟨.new, fun _ => none, []⟩

variable (s : TrackedStations) (d : StationDump)

def outcome : SystemNl80211StationProvider × Except String StationCounterSnapshot :=
  s.provider.applyGenerations (d.entries.map fun e => (e.interface, e.raw)) d.readBeginMs d.readEndMs

def seenAfter (key : StationKey) : Option StationEntry :=
  match (s.outcome d).2 with
  | .ok _ => (d.entries.find? (·.key = key)).or (s.seen key)
  | .error _ => s.seen key

/-- The reports of a call: what its snapshot publishes, with the truth about each station. -/
def reports : List StationReport :=
  match (s.outcome d).2 with
  | .ok snapshot => snapshot.stations.filterMap fun x => (s.seenAfter d (x.ifindex, x.mac)).map fun e =>
      ⟨(x.ifindex, x.mac), e.association, x.associationGeneration, x.counters, e.truth⟩
  | .error _ => []

def step : TrackedStations := ⟨(s.outcome d).1, s.seenAfter d, s.reports d ++ s.log⟩

def run (dumps : List StationDump) : TrackedStations := dumps.foldl step new

/-- The last report of a station. -/
def lastReport (key : StationKey) : Option StationReport := s.log.find? (·.key = key)

/-- What the kernel guarantees of an accepted dump: within an association the counters only grow, by less than
`2 ^ 32`; another association shows another start marker or other widths. -/
def Legal : Prop :=
  d.keys.Nodup → ∀ e ∈ d.entries, e.Faithful ∧ ∀ e₀, s.seen e.key = some e₀ →
    (e₀.association = e.association → ∀ c : StationCounter, e₀.truth.get c ≤ e.truth.get c ∧
      e.truth.get c < e₀.truth.get c + 2 ^ 32) ∧
    (e₀.association ≠ e.association → e₀.raw.associationStartedNs ≠ e.raw.associationStartedNs ∨
      e₀.raw.rxByteWidth ≠ e.raw.rxByteWidth ∨ e₀.raw.txByteWidth ≠ e.raw.txByteWidth)

variable {s d}

/-! ### One call -/

theorem outcome_ok (hpos : 1 ≤ s.provider.nextGeneration) (hnodup : d.keys.Nodup)
    (hlt : (s.outcome d).1.nextGeneration < u64Max) :
    ∃ next snapshot, (s.outcome d).2 = .ok snapshot ∧
      (s.outcome d).1.associations = next ++ retainMissing s.provider.associations d.keys ∧
      Applied s.provider.get [] s.provider.nextGeneration (d.entries.map fun e => (e.interface, e.raw))
        (s.outcome d).1.nextGeneration next ∧
      ∀ x, x ∈ snapshot.stations ↔ ∃ a ∈ (s.outcome d).1.associations, stationSample a = x := by
  have hkeys : (d.entries.map fun e => (e.interface, e.raw)).map (fun e => stationKey e.1 e.2) = d.keys := by
    rw [List.map_map]
    rfl
  have hsome : (applyRaw s.provider.get [] s.provider.nextGeneration
      (d.entries.map fun e => (e.interface, e.raw))).2.isSome :=
    applyRaw_isSome.2 ⟨by rwa [hkeys], fun _ _ => List.not_mem_nil⟩
  obtain ⟨next, hnext⟩ := Option.isSome_iff_exists.1 hsome
  have happ := fun h => applyRaw_applied hpos h hnext
  simp only [outcome, SystemNl80211StationProvider.applyGenerations] at hlt ⊢
  generalize applyRaw s.provider.get [] s.provider.nextGeneration (d.entries.map fun e => (e.interface, e.raw)) = r
    at happ hnext hlt ⊢
  obtain ⟨gen', out⟩ := r
  simp only at hnext
  subst hnext
  refine ⟨next, _, rfl, by rw [← hkeys], happ hlt, fun x => ?_⟩
  simp only [List.mem_insertionSort, List.mem_map]

theorem outcome_error (hnodup : ¬ d.keys.Nodup) : (s.outcome d).1.associations = s.provider.associations ∧
    (s.outcome d).2 = .error "duplicate station in nl80211 snapshot" := by
  have hkeys : (d.entries.map fun e => (e.interface, e.raw)).map (fun e => stationKey e.1 e.2) = d.keys := by
    rw [List.map_map]
    rfl
  have hnone : (applyRaw s.provider.get [] s.provider.nextGeneration
      (d.entries.map fun e => (e.interface, e.raw))).2 = none := by
    rw [← Option.not_isSome_iff_eq_none, applyRaw_isSome, hkeys]
    exact fun h => hnodup h.1
  simp only [outcome, SystemNl80211StationProvider.applyGenerations]
  generalize applyRaw s.provider.get [] s.provider.nextGeneration (d.entries.map fun e => (e.interface, e.raw)) = r
    at hnone ⊢
  obtain ⟨gen', out⟩ := r
  simp only at hnone
  subst hnone
  exact ⟨rfl, rfl⟩

theorem nextGeneration_outcome (s : TrackedStations) (d : StationDump) : (s.outcome d).1.nextGeneration =
    (applyRaw s.provider.get [] s.provider.nextGeneration (d.entries.map fun e => (e.interface, e.raw))).1 := by
  simp only [outcome, SystemNl80211StationProvider.applyGenerations]
  generalize applyRaw s.provider.get [] s.provider.nextGeneration (d.entries.map fun e => (e.interface, e.raw)) = r
  obtain ⟨gen', - | next⟩ := r
  · rfl
  · rfl

theorem nextGeneration_le_step (hpos : 1 ≤ s.provider.nextGeneration)
    (hlt : (s.step d).provider.nextGeneration < u64Max) :
    s.provider.nextGeneration ≤ (s.step d).provider.nextGeneration := by
  simp only [step, nextGeneration_outcome] at hlt ⊢
  exact le_applyRaw hpos hlt

theorem seenAfter_ok {snapshot : StationCounterSnapshot} (h : (s.outcome d).2 = .ok snapshot) (key : StationKey) :
    s.seenAfter d key = (d.entries.find? (·.key = key)).or (s.seen key) := by
  rw [seenAfter, h]

theorem mem_reports {snapshot : StationCounterSnapshot} {r : StationReport} (h : (s.outcome d).2 = .ok snapshot)
    (hmem : ∀ x, x ∈ snapshot.stations ↔ ∃ a ∈ (s.outcome d).1.associations, stationSample a = x) :
    r ∈ s.reports d ↔ ∃ a ∈ (s.outcome d).1.associations, ∃ e, s.seenAfter d a.key = some e ∧
      r = ⟨a.key, e.association, a.generation, a.counters, e.truth⟩ := by
  rw [reports, h, List.mem_filterMap]
  constructor
  · rintro ⟨x, hx, hr⟩
    obtain ⟨a, ha, rfl⟩ := (hmem x).1 hx
    obtain ⟨e, he, rfl⟩ := Option.map_eq_some_iff.1 hr
    exact ⟨a, ha, e, he, rfl⟩
  · rintro ⟨a, ha, e, he, rfl⟩
    exact ⟨stationSample a, (hmem _).2 ⟨a, ha, rfl⟩, Option.map_eq_some_iff.2 ⟨e, he, rfl⟩⟩

/-! ### The invariant -/

/-- The association has been reported last as it is, and its counters are not ahead of the true ones. -/
structure Tracks (s : TrackedStations) (a : AssociationState) (e : StationEntry) : Prop where
  seen : s.seen a.key = some e
  raw_eq : e.raw = a.raw
  iftype_eq : e.interface.iftype = a.interface.iftype
  counters_le : ∀ c : StationCounter, a.counters.get c ≤ e.truth.get c
  reported : s.lastReport a.key = some ⟨a.key, e.association, a.generation, a.counters, e.truth⟩

structure StationsOk (s : TrackedStations) : Prop where
  pos : 1 ≤ s.provider.nextGeneration
  nodup : (s.provider.associations.map (·.key)).Nodup
  faithful : ∀ key e, s.seen key = some e → e.key = key ∧ e.Faithful
  tracks : ∀ a ∈ s.provider.associations, ∃ e, Tracks s a e
  below : ∀ r ∈ s.log, r.generation < s.provider.nextGeneration
  bounded : ∀ r ∈ s.log, ∀ c : StationCounter, r.counters.get c ≤ r.truth.get c ∧ r.truth.get c ≤ u64Max
  unique : ∀ r ∈ s.log, ∀ r' ∈ s.log, r.generation = r'.generation → r.key = r'.key ∧ r.association = r'.association

theorem Tracks.mem_log {a : AssociationState} {e : StationEntry} (h : Tracks s a e) :
    ⟨a.key, e.association, a.generation, a.counters, e.truth⟩ ∈ s.log :=
  List.mem_of_find?_eq_some h.reported

theorem stationsOk_new : StationsOk new := by
  refine ⟨le_rfl, List.nodup_nil, nofun, nofun, nofun, nofun, nofun⟩

theorem get_eq_some (h : StationsOk s) {key : StationKey} {a : AssociationState} :
    s.provider.get key = some a ↔ a ∈ s.provider.associations ∧ a.key = key := by
  constructor
  · intro hget
    exact ⟨List.mem_of_find?_eq_some hget, by simpa using List.find?_some hget⟩
  · rintro ⟨hmem, rfl⟩
    cases hget : s.provider.get a.key with
    | none => exact absurd (List.find?_eq_none.1 hget a hmem) (by simp)
    | some b =>
      have hb : b.key = a.key := by simpa using List.find?_some hget
      rw [List.inj_on_of_nodup_map h.nodup (List.mem_of_find?_eq_some hget) hmem hb]

/-! ### What a dump changes -/

/-- A dump with pairwise different stations, and what it makes of the associations. -/
structure Accepted (s : TrackedStations) (d : StationDump) (next : List AssociationState) : Prop where
  nodup : d.keys.Nodup
  associations_eq : (s.step d).provider.associations = next ++ retainMissing s.provider.associations d.keys
  applied : Applied s.provider.get [] s.provider.nextGeneration (d.entries.map fun e => (e.interface, e.raw))
    (s.step d).provider.nextGeneration next
  seen_eq : ∀ key, (s.step d).seen key = (d.entries.find? (·.key = key)).or (s.seen key)
  mem_reports : ∀ r, r ∈ s.reports d ↔ ∃ a ∈ (s.step d).provider.associations, ∃ e, (s.step d).seen a.key = some e ∧
    r = ⟨a.key, e.association, a.generation, a.counters, e.truth⟩

theorem accepted_of_nodup (hpos : 1 ≤ s.provider.nextGeneration) (hnodup : d.keys.Nodup)
    (hlt : (s.step d).provider.nextGeneration < u64Max) : ∃ next, Accepted s d next := by
  obtain ⟨next, snapshot, hok, hassoc, happ, hmem⟩ := outcome_ok hpos hnodup hlt
  exact ⟨next, hnodup, hassoc, happ, seenAfter_ok hok, fun r => mem_reports hok hmem⟩

theorem step_of_not_nodup (hnodup : ¬ d.keys.Nodup) :
    (s.step d).provider.associations = s.provider.associations ∧ (s.step d).seen = s.seen ∧ s.reports d = [] := by
  obtain ⟨hassoc, herr⟩ := outcome_error (s := s) hnodup
  refine ⟨hassoc, ?_, ?_⟩
  · funext key
    simp only [step, seenAfter, herr]
  · simp only [reports, herr]

variable {next : List AssociationState}

theorem Accepted.entry_of_mem (h : Accepted s d next) {a : AssociationState} (ha : a ∈ next) :
    ∃ e ∈ d.entries, e.interface = a.interface ∧ e.raw = a.raw ∧ e.key = a.key ∧ (s.step d).seen a.key = some e := by
  have hmem : (a.interface, a.raw) ∈ d.entries.map fun e => (e.interface, e.raw) := by
    rw [← h.applied.entries]
    exact List.mem_map.2 ⟨a, ha, rfl⟩
  obtain ⟨e, he, heq⟩ := List.mem_map.1 hmem
  obtain ⟨hi, hr⟩ := Prod.mk.inj heq
  have hkey : e.key = a.key := by rw [StationEntry.key, hi, hr, AssociationState.key]
  refine ⟨e, he, hi, hr, hkey, ?_⟩
  rw [h.seen_eq]
  cases hf : d.entries.find? (·.key = a.key) with
  | none => exact absurd (List.find?_eq_none.1 hf e he) (by simp [hkey])
  | some e' =>
    have hk' : e'.key = a.key := by simpa using List.find?_some hf
    have : e' = e := List.inj_on_of_nodup_map h.nodup (List.mem_of_find?_eq_some hf) he (hk'.trans hkey.symm)
    rw [this, Option.some_or]

theorem Accepted.keys_next (h : Accepted s d next) : next.map (·.key) = d.keys := by
  have := congrArg (List.map fun e : WirelessInterface × RawStationCounter => stationKey e.1 e.2) h.applied.entries
  rw [List.map_map, List.map_map] at this
  exact this

theorem mem_retainMissing {previous : List AssociationState} {seen : List StationKey} {a : AssociationState} :
    a ∈ retainMissing previous seen ↔ ∃ old ∈ previous, old.key ∉ seen ∧
      old.missingCompleteReads < stationMissingGraceReads ∧
        a = { old with missingCompleteReads := old.missingCompleteReads + 1 } := by
  simp only [retainMissing, List.mem_map, List.mem_filter, Bool.not_eq_true', Bool.or_eq_false_iff,
    decide_eq_false_iff_not, not_le, and_assoc]
  constructor
  · rintro ⟨old, hold, hkey, hmiss, rfl⟩
    exact ⟨old, hold, hkey, hmiss, rfl⟩
  · rintro ⟨old, hold, hkey, hmiss, rfl⟩
    exact ⟨old, hold, hkey, hmiss, rfl⟩

theorem Accepted.nodup_step (h : Accepted s d next) (hok : StationsOk s) :
    ((s.step d).provider.associations.map (·.key)).Nodup := by
  rw [h.associations_eq, List.map_append, h.keys_next]
  have hret : ((retainMissing s.provider.associations d.keys).map (·.key)).Sublist
      (s.provider.associations.map (·.key)) := by
    rw [retainMissing, List.map_map]
    exact List.filter_sublist.map _
  refine List.nodup_append.2 ⟨h.nodup, hok.nodup.sublist hret, ?_⟩
  rintro k hk k' hk' rfl
  obtain ⟨a, ha, rfl⟩ := List.mem_map.1 hk'
  obtain ⟨old, -, hnot, -, rfl⟩ := mem_retainMissing.1 ha
  exact hnot hk

theorem material_spec {old : AssociationState} {iftype : Option ℕ} {raw : RawStationCounter}
    (h : associationMaterialContinues old iftype raw = true) :
    old.raw.rxByteWidth = raw.rxByteWidth ∧ old.raw.txByteWidth = raw.txByteWidth ∧
      old.raw.associationStartedNs = raw.associationStartedNs := by
  simp only [associationMaterialContinues, Bool.and_eq_true, decide_eq_true_eq] at h
  refine ⟨h.1.1.1.2, h.1.1.2, ?_⟩
  have hm := h.1.2
  cases h₁ : old.raw.associationStartedNs <;> cases h₂ : raw.associationStartedNs <;> simp_all

/-- The counters of an association grow as the true ones do. -/
def Grows (p p' t t' : LinkCounters) : Prop :=
  ∀ c : StationCounter, t.get c ≤ t'.get c ∧ p'.get c + t.get c = p.get c + t'.get c

/-- A continued station is still in its association, and its counters grow as the true ones do. -/
theorem grows_of_continued {a : AssociationState} {e e₀ : StationEntry} {old : AssociationState}
    (hold : Tracks s old e₀) (hfaith₀ : e₀.Faithful) (hfaith : e.Faithful) (hraw : e.raw = a.raw)
    (hmat : associationMaterialContinues old a.interface.iftype a.raw = true)
    (hext : extendStationCounters old.raw.counters a.raw.counters old.counters a.raw.rxByteWidth a.raw.txByteWidth =
      some a.counters)
    (hsame : e₀.association = e.association → ∀ c : StationCounter, e₀.truth.get c ≤ e.truth.get c ∧
      e.truth.get c < e₀.truth.get c + 2 ^ 32)
    (hother : e₀.association ≠ e.association → e₀.raw.associationStartedNs ≠ e.raw.associationStartedNs ∨
      e₀.raw.rxByteWidth ≠ e.raw.rxByteWidth ∨ e₀.raw.txByteWidth ≠ e.raw.txByteWidth) :
    e₀.association = e.association ∧ Grows old.counters a.counters e₀.truth e.truth := by
  obtain ⟨hrx, htx, hstart⟩ := material_spec hmat
  have hassoc : e₀.association = e.association := by
    by_contra hne
    rcases hother hne with h | h | h
    · exact h (by rw [hold.raw_eq, hraw, hstart])
    · exact h (by rw [hold.raw_eq, hraw, hrx])
    · exact h (by rw [hold.raw_eq, hraw, htx])
  refine ⟨hassoc, fun c => ?_⟩
  obtain ⟨hle, hlt⟩ := hsame hassoc c
  obtain ⟨n, hn, -, hc⟩ := extendStationCounters_eq_some.1 hext c
  have h₀ := (hfaith₀ c).1
  have h₁ := (hfaith c).1
  rw [hold.raw_eq, hrx, htx] at h₀
  rw [hraw] at h₁
  rw [h₀, h₁] at hn
  have := counterDelta_eq hn hle hlt
  exact ⟨hle, by omega⟩

/-- An association after a dump goes on from one before, or is new. -/
theorem Accepted.cases (h : Accepted s d next) (hok : StationsOk s) (hlegal : s.Legal d) {a : AssociationState}
    (ha : a ∈ (s.step d).provider.associations) :
    ∃ e, (s.step d).seen a.key = some e ∧ e.raw = a.raw ∧ e.interface.iftype = a.interface.iftype ∧ e.Faithful ∧
      ((∃ old ∈ s.provider.associations, ∃ e₀, Tracks s old e₀ ∧ old.key = a.key ∧ old.generation = a.generation ∧
          e₀.association = e.association ∧ Grows old.counters a.counters e₀.truth e.truth) ∨
        (a ∈ next ∧ a.IsNew s.provider.get ∧ a.counters = a.raw.counters ∧
          s.provider.nextGeneration ≤ a.generation ∧ a.generation < (s.step d).provider.nextGeneration)) := by
  rw [h.associations_eq] at ha
  rcases List.mem_append.1 ha with ha | ha
  · obtain ⟨e, he, hi, hr, hkey, hseen⟩ := h.entry_of_mem ha
    obtain ⟨hfaith, hlast⟩ := hlegal h.nodup e he
    refine ⟨e, hseen, hr, by rw [hi], hfaith, ?_⟩
    by_cases hnew : a.IsNew s.provider.get
    · exact Or.inr ⟨ha, hnew, h.applied.numbered a ha hnew⟩
    · left
      obtain ⟨old, hget, hcont⟩ := Option.bind_eq_some_iff.1 (h.applied.kept a ha hnew)
      cases hmat : associationMaterialContinues old a.interface.iftype a.raw with
      | false => simp [hmat] at hcont
      | true =>
        simp only [hmat, Bool.not_true, Bool.false_eq_true, if_false] at hcont
        obtain ⟨counters, hext, heq⟩ := Option.map_eq_some_iff.1 hcont
        obtain ⟨hgen, hcounters⟩ := Prod.mk.inj heq
        rw [hcounters] at hext
        obtain ⟨hmem, hk⟩ := (get_eq_some hok).1 hget
        obtain ⟨e₀, htr⟩ := hok.tracks old hmem
        have hseen₀ : s.seen e.key = some e₀ := by rw [hkey, ← hk, htr.seen]
        obtain ⟨hsame, hother⟩ := hlast e₀ hseen₀
        obtain ⟨hassoc, hgrow⟩ :=
          grows_of_continued htr (hok.faithful _ _ hseen₀).2 hfaith hr hmat hext hsame hother
        exact ⟨old, hmem, e₀, htr, hk, hgen, hassoc, hgrow⟩
  · obtain ⟨old, hmem, hnot, -, rfl⟩ := mem_retainMissing.1 ha
    obtain ⟨e₀, htr⟩ := hok.tracks old hmem
    have hseen : (s.step d).seen old.key = some e₀ := by
      rw [h.seen_eq]
      have hnone : d.entries.find? (·.key = old.key) = none := by
        rw [List.find?_eq_none]
        intro e he hk
        exact hnot (List.mem_map.2 ⟨e, he, of_decide_eq_true hk⟩)
      rw [hnone, Option.none_or, htr.seen]
    refine ⟨e₀, hseen, htr.raw_eq, htr.iftype_eq, (hok.faithful _ _ htr.seen).2, Or.inl ⟨old, hmem, e₀, htr, rfl, rfl,
      rfl, fun c => ⟨le_rfl, rfl⟩⟩⟩

/-! ### The invariant over a dump -/

theorem Accepted.counters_le (h : Accepted s d next) (hok : StationsOk s) (hlegal : s.Legal d) {a : AssociationState}
    {e : StationEntry} (ha : a ∈ (s.step d).provider.associations) (he : (s.step d).seen a.key = some e)
    (c : StationCounter) : a.counters.get c ≤ e.truth.get c := by
  obtain ⟨e', hseen, hraw, -, hfaith, hcase⟩ := h.cases hok hlegal ha
  obtain rfl : e' = e := Option.some.inj (hseen.symm.trans he)
  rcases hcase with ⟨old, -, e₀, htr, -, -, -, hgrow⟩ | ⟨-, -, hc, -⟩
  · have h₁ := htr.counters_le c
    have h₂ := (hgrow c).2
    omega
  · rw [hc, ← hraw, (hfaith c).1]
    cases c.width e'.raw.rxByteWidth e'.raw.txByteWidth with
    | bits32 => exact Nat.mod_le _ _
    | bits64 => exact le_rfl

/-- The first report of an association after a dump is the one of the dump. -/
theorem Accepted.reported (h : Accepted s d next) (hok : StationsOk s) {a : AssociationState} {e : StationEntry}
    (ha : a ∈ (s.step d).provider.associations) (he : (s.step d).seen a.key = some e) :
    (s.step d).lastReport a.key = some ⟨a.key, e.association, a.generation, a.counters, e.truth⟩ := by
  have hmem := (h.mem_reports ⟨a.key, e.association, a.generation, a.counters, e.truth⟩).2 ⟨a, ha, e, he, rfl⟩
  rw [lastReport, step, List.find?_append]
  cases hf : (s.reports d).find? (·.key = a.key) with
  | none => exact absurd (List.find?_eq_none.1 hf _ hmem) (by simp)
  | some r =>
    have hk : r.key = a.key := by simpa using List.find?_some hf
    obtain ⟨b, hb, e', he', rfl⟩ := (h.mem_reports r).1 (List.mem_of_find?_eq_some hf)
    obtain rfl : b = a := List.inj_on_of_nodup_map (h.nodup_step hok) hb ha hk
    obtain rfl : e' = e := Option.some.inj (he'.symm.trans he)
    rfl

/-- A report goes on from an earlier one, or is of a new association. -/
theorem Accepted.report_cases (h : Accepted s d next) (hok : StationsOk s) (hlegal : s.Legal d) {r : StationReport}
    (hr : r ∈ s.reports d) :
    (∃ r₀, s.lastReport r.key = some r₀ ∧ r₀ ∈ s.log ∧ r₀.key = r.key ∧ r₀.generation = r.generation ∧
        r₀.association = r.association ∧ Grows r₀.counters r.counters r₀.truth r.truth) ∨
      ∃ a ∈ next, a.IsNew s.provider.get ∧ a.key = r.key ∧ a.generation = r.generation ∧
        s.provider.nextGeneration ≤ r.generation ∧ r.generation < (s.step d).provider.nextGeneration := by
  obtain ⟨a, ha, e, he, rfl⟩ := (h.mem_reports r).1 hr
  obtain ⟨e', hseen, -, -, -, hcase⟩ := h.cases hok hlegal ha
  obtain rfl : e' = e := Option.some.inj (hseen.symm.trans he)
  rcases hcase with ⟨old, -, e₀, htr, hkey, hgen, hassoc, hgrow⟩ | ⟨hmem, hnew, -, hle, hlt⟩
  · refine Or.inl ⟨_, ?_, htr.mem_log, hkey, hgen, hassoc, hgrow⟩
    rw [← htr.reported, hkey]
  · exact Or.inr ⟨a, hmem, hnew, rfl, rfl, hle, hlt⟩

theorem eq_of_ordered {R : AssociationState → AssociationState → Prop} {l : List AssociationState}
    {a b : AssociationState} (h : l.Pairwise R) (ha : a ∈ l) (hb : b ∈ l) (hab : ¬ R a b) (hba : ¬ R b a) : a = b := by
  obtain ⟨i, hi, rfl⟩ := List.getElem_of_mem ha
  obtain ⟨j, hj, rfl⟩ := List.getElem_of_mem hb
  rcases lt_trichotomy i j with hij | rfl | hij
  · exact absurd (List.pairwise_iff_getElem.1 h i j hi hj hij) hab
  · rfl
  · exact absurd (List.pairwise_iff_getElem.1 h j i hj hi hij) hba

theorem Accepted.unique (h : Accepted s d next) (hok : StationsOk s) (hlegal : s.Legal d) :
    ∀ r ∈ (s.step d).log, ∀ r' ∈ (s.step d).log, r.generation = r'.generation →
      r.key = r'.key ∧ r.association = r'.association := by
  have hnew : ∀ r ∈ s.reports d, ∀ r' ∈ s.log, r.generation = r'.generation →
      r.key = r'.key ∧ r.association = r'.association := by
    intro r hr r' hr' heq
    rcases h.report_cases hok hlegal hr with ⟨r₀, -, hmem, hk, hg, ha, -⟩ | ⟨a, -, -, -, -, hle, -⟩
    · obtain ⟨h₁, h₂⟩ := hok.unique r₀ hmem r' hr' (hg.trans heq)
      exact ⟨hk.symm.trans h₁, ha.symm.trans h₂⟩
    · have := hok.below r' hr'
      omega
  have hboth : ∀ r ∈ s.reports d, ∀ r' ∈ s.reports d, r.generation = r'.generation →
      r.key = r'.key ∧ r.association = r'.association := by
    intro r hr r' hr' heq
    rcases h.report_cases hok hlegal hr' with ⟨r₀, -, hmem, hk, hg, ha, -⟩ | ⟨b, hb, hnb, hkb, hgb, hle, -⟩
    · obtain ⟨h₁, h₂⟩ := hnew r hr r₀ hmem (heq.trans hg.symm)
      exact ⟨h₁.trans hk, h₂.trans ha⟩
    · rcases h.report_cases hok hlegal hr with ⟨r₀, -, hmem, -, hg, -, -⟩ | ⟨a, ha, hna, hka, hga, -, -⟩
      · have := hok.below r₀ hmem
        omega
      · obtain rfl : a = b := by
          refine eq_of_ordered h.applied.ordered ha hb (fun hlt => ?_) fun hlt => ?_
          · exact absurd (hlt hna hnb) (by omega)
          · exact absurd (hlt hnb hna) (by omega)
        have hkey : r.key = r'.key := hka.symm.trans hkb
        obtain ⟨x, -, e, he, rfl⟩ := (h.mem_reports r).1 hr
        obtain ⟨y, -, e', he', rfl⟩ := (h.mem_reports r').1 hr'
        simp only at hkey
        rw [hkey] at he
        obtain rfl : e = e' := Option.some.inj (he.symm.trans he')
        exact ⟨hkey, rfl⟩
  intro r hr r' hr' heq
  rcases List.mem_append.1 hr with hr | hr
  · rcases List.mem_append.1 hr' with hr' | hr'
    · exact hboth r hr r' hr' heq
    · exact hnew r hr r' hr' heq
  · rcases List.mem_append.1 hr' with hr' | hr'
    · obtain ⟨h₁, h₂⟩ := hnew r' hr' r hr heq.symm
      exact ⟨h₁.symm, h₂.symm⟩
    · exact hok.unique r hr r' hr' heq

theorem StationsOk.step (hok : StationsOk s) (hlegal : s.Legal d)
    (hlt : (s.step d).provider.nextGeneration < u64Max) : StationsOk (s.step d) := by
  have hle := nextGeneration_le_step hok.pos hlt
  by_cases hnodup : d.keys.Nodup
  · obtain ⟨next, h⟩ := accepted_of_nodup hok.pos hnodup hlt
    refine ⟨hok.pos.trans hle, h.nodup_step hok, ?_, ?_, ?_, ?_, h.unique hok hlegal⟩
    · intro key e he
      rw [h.seen_eq] at he
      cases hf : d.entries.find? (·.key = key) with
      | none =>
        rw [hf, Option.none_or] at he
        exact hok.faithful key e he
      | some e' =>
        rw [hf, Option.some_or] at he
        obtain rfl : e' = e := Option.some.inj he
        exact ⟨by simpa using List.find?_some hf, (hlegal hnodup e' (List.mem_of_find?_eq_some hf)).1⟩
    · intro a ha
      obtain ⟨e, hseen, hraw, hif, -, -⟩ := h.cases hok hlegal ha
      exact ⟨e, hseen, hraw, hif, h.counters_le hok hlegal ha hseen, h.reported hok ha hseen⟩
    · intro r hr
      rcases List.mem_append.1 hr with hr | hr
      · rcases h.report_cases hok hlegal hr with ⟨r₀, -, hmem, -, hg, -⟩ | ⟨a, -, -, -, -, -, hlt⟩
        · rw [← hg]
          exact (hok.below r₀ hmem).trans_le hle
        · exact hlt
      · exact (hok.below r hr).trans_le hle
    · intro r hr c
      rcases List.mem_append.1 hr with hr | hr
      · obtain ⟨a, ha, e, he, rfl⟩ := (h.mem_reports r).1 hr
        obtain ⟨e', hseen, -, -, hfaith, -⟩ := h.cases hok hlegal ha
        obtain rfl : e' = e := Option.some.inj (hseen.symm.trans he)
        exact ⟨h.counters_le hok hlegal ha he c, (hfaith c).2⟩
      · exact hok.bounded r hr c
  · obtain ⟨hassoc, hseen, hrep⟩ := step_of_not_nodup (s := s) hnodup
    have hlog : (s.step d).log = s.log := by
      change s.reports d ++ s.log = s.log
      rw [hrep, List.nil_append]
    refine ⟨hok.pos.trans hle, by rw [hassoc]; exact hok.nodup, by rw [hseen]; exact hok.faithful, ?_, ?_,
      by rw [hlog]; exact hok.bounded, by rw [hlog]; exact hok.unique⟩
    · rw [hassoc]
      intro a ha
      obtain ⟨e, htr⟩ := hok.tracks a ha
      exact ⟨e, by rw [hseen]; exact htr.seen, htr.raw_eq, htr.iftype_eq, htr.counters_le,
        by rw [lastReport, hlog]; exact htr.reported⟩
    · rw [hlog]
      exact fun r hr => (hok.below r hr).trans_le hle

end TrackedStations

end Lanspeedd
