import DOpenWrt.Lanspeedd.StationRun

/-!
# Generations of the stations

Over any dumps that the kernel can produce: the published counters grow as the true ones do as long as the generation
stays, and no generation is given out twice before the numbers run out (`station_counters_extended`).
-/

namespace Lanspeedd

namespace TrackedStations

variable {s : TrackedStations} {d : StationDump} {dumps : List StationDump} {next : List AssociationState}

theorem run_concat (dumps : List StationDump) (d : StationDump) : run (dumps ++ [d]) = (run dumps).step d := by
  simp only [run, List.foldl_append, List.foldl_cons, List.foldl_nil]

theorem nextGeneration_pos (s : TrackedStations) (d : StationDump) (hpos : 1 ≤ s.provider.nextGeneration) :
    1 ≤ (s.step d).provider.nextGeneration := by
  by_cases hlt : (s.step d).provider.nextGeneration < u64Max
  · exact hpos.trans (nextGeneration_le_step hpos hlt)
  · have : 1 ≤ u64Max := by decide
    omega

theorem nextGeneration_pos_run (dumps : List StationDump) : 1 ≤ (run dumps).provider.nextGeneration := by
  induction dumps using List.reverseRecOn with
  | nil => exact le_rfl
  | append_singleton dumps d ih =>
    rw [run_concat]
    exact nextGeneration_pos _ _ ih

theorem stationsOk_run (h : Run.Meets step Legal new dumps) (hlt : (run dumps).provider.nextGeneration < u64Max) :
    StationsOk (run dumps) := by
  induction dumps using List.reverseRecOn with
  | nil => exact stationsOk_new
  | append_singleton dumps d ih =>
    obtain ⟨hd, hlegal⟩ := Run.meets_concat.1 h
    rw [run_concat] at hlt ⊢
    have hle := nextGeneration_le_step (nextGeneration_pos_run dumps) hlt
    exact (ih hd (hle.trans_lt hlt)).step hlegal hlt

/-! ### Stations that are missing -/

/-- After a dump without the station it is marked as missing; after another one it is gone. -/
theorem missing_run {early mid : List StationDump} {key : StationKey}
    (hmiss : ∀ x ∈ d :: mid, x.keys.Nodup → key ∉ x.keys) (hd : d.keys.Nodup)
    (hlt : (run (early ++ d :: mid)).provider.nextGeneration < u64Max) :
    ∀ a ∈ (run (early ++ d :: mid)).provider.associations, a.key = key →
      1 ≤ a.missingCompleteReads ∧ ∀ x ∈ mid, ¬ x.keys.Nodup := by
  induction mid using List.reverseRecOn with
  | nil =>
    rw [run_concat] at hlt ⊢
    obtain ⟨next, h⟩ := accepted_of_nodup (nextGeneration_pos_run early) hd hlt
    intro a ha hk
    rw [h.associations_eq] at ha
    rcases List.mem_append.1 ha with ha | ha
    · have hmem : a.key ∈ d.keys := h.keys_next ▸ List.mem_map.2 ⟨a, ha, rfl⟩
      exact absurd (hk ▸ hmem) (hmiss d List.mem_cons_self hd)
    · obtain ⟨old, -, -, -, rfl⟩ := mem_retainMissing.1 ha
      exact ⟨Nat.succ_pos _, nofun⟩
  | append_singleton mid x ih =>
    rw [← List.cons_append, ← List.append_assoc, run_concat] at hlt ⊢
    have hle := nextGeneration_le_step (nextGeneration_pos_run (early ++ d :: mid)) hlt
    have hbefore := ih (fun y hy => hmiss y (by
      rw [← List.cons_append]
      exact List.mem_append_left _ hy)) (hle.trans_lt hlt)
    intro a ha hk
    by_cases hx : x.keys.Nodup
    · obtain ⟨next, h⟩ := accepted_of_nodup (nextGeneration_pos_run (early ++ d :: mid)) hx hlt
      rw [h.associations_eq] at ha
      rcases List.mem_append.1 ha with ha | ha
      · have hmem : a.key ∈ x.keys := h.keys_next ▸ List.mem_map.2 ⟨a, ha, rfl⟩
        exact absurd (hk ▸ hmem) (hmiss x (by simp) hx)
      · obtain ⟨old, hold, -, hlow, rfl⟩ := mem_retainMissing.1 ha
        have := (hbefore old hold hk).1
        simp only [stationMissingGraceReads] at hlow
        omega
    · rw [(step_of_not_nodup hx).1] at ha
      obtain ⟨h₁, h₂⟩ := hbefore a ha hk
      refine ⟨h₁, fun y hy => ?_⟩
      rcases List.mem_append.1 hy with hy | hy
      · exact h₂ y hy
      · rwa [List.mem_singleton.1 hy]

/-- A station that the table does not have is reported under a new generation. -/
theorem Accepted.new_of_absent (h : Accepted s d next) (hok : StationsOk s) (hlegal : s.Legal d) {r : StationReport}
    (hr : r ∈ s.reports d) (habsent : ∀ a ∈ s.provider.associations, a.key ≠ r.key) :
    ∀ r₀ ∈ s.log, r₀.generation < r.generation := by
  obtain ⟨a, ha, e, he, rfl⟩ := (h.mem_reports r).1 hr
  obtain ⟨_, -, -, -, -, hcase⟩ := h.cases hok hlegal ha
  rcases hcase with ⟨old, hold, -, -, hkey, -⟩ | ⟨-, -, -, hle, -⟩
  · exact absurd hkey (habsent old hold)
  · exact fun r₀ hr₀ => (hok.below r₀ hr₀).trans_le hle

/-- A station that a dump does not contain is reported as the last time. -/
theorem Accepted.repeats (h : Accepted s d next) (hok : StationsOk s) {r : StationReport} (hr : r ∈ s.reports d)
    (hkey : r.key ∉ d.keys) : s.lastReport r.key = some r := by
  obtain ⟨a, ha, e, he, rfl⟩ := (h.mem_reports r).1 hr
  rw [h.associations_eq] at ha
  rcases List.mem_append.1 ha with ha | ha
  · exact absurd (h.keys_next ▸ List.mem_map.2 ⟨a, ha, rfl⟩) hkey
  · obtain ⟨old, hold, -, -, rfl⟩ := mem_retainMissing.1 ha
    obtain ⟨e₀, htr⟩ := hok.tracks old hold
    have hnone : d.entries.find? (·.key = old.key) = none := by
      rw [List.find?_eq_none]
      intro x hx hk
      exact hkey (List.mem_map.2 ⟨x, hx, of_decide_eq_true hk⟩)
    have hseen : (s.step d).seen old.key = some e := he
    rw [h.seen_eq, hnone, Option.none_or, htr.seen] at hseen
    obtain rfl : e₀ = e := Option.some.inj hseen
    exact htr.reported

/-! ### Stations that continue -/

theorem exists_extend {previous current extended : LinkCounters} {rx tx : StationByteCounterWidth}
    (h : ∀ c : StationCounter, ∃ n, counterDelta (previous.get c) (current.get c) (c.width rx tx) = some n ∧
      extended.get c + n ≤ u64Max) :
    ∃ result, extendStationCounters previous current extended rx tx = some result := by
  choose n hn hmax using h
  refine ⟨⟨extended.rxBytes + n .rxBytes, extended.txBytes + n .txBytes, extended.rxPackets + n .rxPackets,
    extended.txPackets + n .txPackets⟩, extendStationCounters_eq_some.2 fun c => ⟨n c, hn c, hmax c, ?_⟩⟩
  cases c <;> rfl

theorem Accepted.kept_of_small_growth (h : Accepted s d next) (hok : StationsOk s) (hlegal : s.Legal d)
    {old : AssociationState} {e e₀ : StationEntry} (hold : old ∈ s.provider.associations) (he : e ∈ d.entries)
    (hkey : e.key = old.key) (hseen : s.seen e.key = some e₀)
    (hmat : associationMaterialContinues old e.interface.iftype e.raw = true)
    (hgrow : ∀ c : StationCounter, e.truth.get c ≤ e₀.truth.get c + 2 ^ 30) :
    ∃ r ∈ s.reports d, r.key = old.key ∧ r.generation = old.generation := by
  obtain ⟨e₁, htr⟩ := hok.tracks old hold
  obtain rfl : e₁ = e₀ := Option.some.inj (htr.seen.symm.trans (hkey ▸ hseen))
  obtain ⟨hfaith, hlast⟩ := hlegal h.nodup e he
  obtain ⟨hsame, hother⟩ := hlast e₁ hseen
  obtain ⟨hrx, htx, hstart⟩ := material_spec hmat
  have hassoc : e₁.association = e.association := by
    by_contra hne
    rcases hother hne with hne | hne | hne
    · exact hne (by rw [htr.raw_eq, hstart])
    · exact hne (by rw [htr.raw_eq, hrx])
    · exact hne (by rw [htr.raw_eq, htx])
  -- each delta is the true growth, and the sum is at most the true counter
  obtain ⟨counters, hext⟩ : ∃ counters, extendStationCounters old.raw.counters e.raw.counters old.counters
      e.raw.rxByteWidth e.raw.txByteWidth = some counters := by
    refine exists_extend fun c => ⟨e.truth.get c - e₁.truth.get c, ?_, ?_⟩
    · have h₀ := ((hok.faithful _ _ hseen).2 c).1
      rw [htr.raw_eq, hrx, htx] at h₀
      rw [h₀, (hfaith c).1]
      exact counterDelta_of_le (hsame hassoc c).1 (hgrow c)
    · have h₁ := htr.counters_le c
      have h₂ := (hfaith c).2
      have h₃ := (hsame hassoc c).1
      omega
  have hmem : (e.interface, e.raw) ∈ next.map fun a => (a.interface, a.raw) := by
    rw [h.applied.entries]
    exact List.mem_map.2 ⟨e, he, rfl⟩
  obtain ⟨a, ha, heq⟩ := List.mem_map.1 hmem
  obtain ⟨hi, hr⟩ := Prod.mk.inj heq
  have hak : a.key = old.key := by rw [← hkey, StationEntry.key, ← hi, ← hr, AssociationState.key]
  have hcont : continued (s.provider.get a.key) a.interface a.raw = some (old.generation, counters) := by
    rw [(get_eq_some hok).2 ⟨hold, hak.symm⟩, hi, hr, continued, Option.bind_some, hmat, hext]
    rfl
  have hkept : ¬ a.IsNew s.provider.get := by
    simp [AssociationState.IsNew, hcont]
  have hgen := (Prod.mk.inj (Option.some.inj ((h.applied.kept a ha hkept).symm.trans hcont))).1
  obtain ⟨e', -, -, -, -, he'⟩ := h.entry_of_mem ha
  refine ⟨⟨a.key, e'.association, a.generation, a.counters, e'.truth⟩, (h.mem_reports _).2 ⟨a, ?_, e', he', rfl⟩, hak,
    hgen⟩
  rw [h.associations_eq]
  exact List.mem_append_left _ ha

/-! ### The counters over every run -/

/-- For any dumps that the kernel can produce, the last of which is `d`, as long as the generations have not run
out. -/
theorem station_counters_extended (dumps : List StationDump) (d : StationDump)
    (hmeets : Run.Meets step Legal new (dumps ++ [d]))
    (hlt : (run (dumps ++ [d])).provider.nextGeneration < u64Max) :
    -- two consecutive reports under one generation differ by the true growth
    (∀ r ∈ (run dumps).reports d, ∀ r₀, (run dumps).lastReport r.key = some r₀ → r₀.generation = r.generation →
      Grows r₀.counters r.counters r₀.truth r.truth) ∧
    -- a station that the dump lacks is reported unchanged
    (∀ r ∈ (run dumps).reports d, r.key ∉ d.keys → (run dumps).lastReport r.key = some r) ∧
    -- no published counter is ahead of the true one, so none overflows
    (∀ r ∈ (run (dumps ++ [d])).log, ∀ c : StationCounter, r.counters.get c ≤ r.truth.get c ∧ r.truth.get c ≤ u64Max) ∧
    -- over a small growth with matching markers the generation is kept
    (d.keys.Nodup → ∀ old ∈ (run dumps).provider.associations, ∀ e ∈ d.entries, ∀ e₀, e.key = old.key →
      (run dumps).seen e.key = some e₀ → associationMaterialContinues old e.interface.iftype e.raw = true →
      (∀ c : StationCounter, e.truth.get c ≤ e₀.truth.get c + 2 ^ 30) →
      ∃ r ∈ (run dumps).reports d, ∃ r₀, (run dumps).lastReport r.key = some r₀ ∧ r.key = e.key ∧
        r₀.generation = r.generation) ∧
    -- a generation belongs to one association of one station
    (∀ r ∈ (run (dumps ++ [d])).log, ∀ r' ∈ (run (dumps ++ [d])).log, r.generation = r'.generation →
      r.key = r'.key ∧ r.association = r'.association) ∧
    -- a station that two accepted dumps in a row lack comes back under a new generation
    (∀ early x mid key, dumps = early ++ x :: mid → x.keys.Nodup → (∃ y ∈ mid, y.keys.Nodup) →
      (∀ y ∈ x :: mid, y.keys.Nodup → key ∉ y.keys) →
      ∀ r ∈ (run dumps).reports d, r.key = key → ∀ r₀ ∈ (run dumps).log, r₀.generation < r.generation) ∧
    -- a rejected dump leaves the associations
    (¬ d.keys.Nodup → (run (dumps ++ [d])).provider.associations = (run dumps).provider.associations ∧
      (run dumps).reports d = []) := by
  obtain ⟨hdumps, hlegal⟩ := Run.meets_concat.1 hmeets
  have hok' := stationsOk_run hmeets hlt
  have hle : (run dumps).provider.nextGeneration ≤ (run (dumps ++ [d])).provider.nextGeneration := by
    rw [run_concat] at hlt ⊢
    exact nextGeneration_le_step (nextGeneration_pos_run dumps) hlt
  have hlt₀ := hle.trans_lt hlt
  have hok := stationsOk_run hdumps hlt₀
  have hacc : d.keys.Nodup → ∃ next, Accepted (run dumps) d next :=
    fun hn => accepted_of_nodup hok.pos hn (run_concat dumps d ▸ hlt)
  -- a dump that reports anything is accepted
  have hrep : ∀ r ∈ (run dumps).reports d, ∃ next, Accepted (run dumps) d next := by
    intro r hr
    refine hacc (by_contra fun hn => ?_)
    rw [(step_of_not_nodup hn).2.2] at hr
    cases hr
  refine ⟨fun r hr r₀ hlast hgen => ?_, fun r hr hk => ?_, hok'.bounded, ?_, hok'.unique, ?_, fun hn => ?_⟩
  · obtain ⟨next, h⟩ := hrep r hr
    rcases h.report_cases hok hlegal hr with ⟨r₁, hr₁, -, -, -, -, hgrow⟩ | ⟨a, -, -, -, -, hnew, -⟩
    · rw [hlast] at hr₁
      rwa [Option.some.inj hr₁]
    · have := hok.below r₀ (List.mem_of_find?_eq_some hlast)
      omega
  · obtain ⟨next, h⟩ := hrep r hr
    exact h.repeats hok hr hk
  · intro hn old hold e he e₀ hkey hseen hmat hgrow
    obtain ⟨next, h⟩ := hacc hn
    obtain ⟨r, hr, hrk, hgen⟩ := h.kept_of_small_growth hok hlegal hold he hkey hseen hmat hgrow
    obtain ⟨e₁, htr⟩ := hok.tracks old hold
    exact ⟨r, hr, _, hrk ▸ htr.reported, hrk.trans hkey.symm, hgen.symm⟩
  · rintro early x mid key rfl hx ⟨y, hy, hyn⟩ hmiss r hr rfl
    obtain ⟨next, h⟩ := hrep r hr
    refine h.new_of_absent hok hlegal hr fun a ha hk => ?_
    exact (missing_run hmiss hx hlt₀ a ha hk).2 y hy hyn
  · rw [run_concat]
    exact ⟨(step_of_not_nodup hn).1, (step_of_not_nodup hn).2.2⟩

/-! ### Running out of generations -/

def wlan : WirelessInterface := ⟨7, "wlan0", none, none, some nl80211IftypeAp⟩

def idleCounters : LinkCounters := ⟨0, 0, 0, 0⟩

def restartEntry (n : ℕ) : StationEntry :=
  ⟨wlan, ⟨#v[2, 0, 0, 0, 0, 1], 7, some n, none, idleCounters, .bits32, .bits32⟩, n, idleCounters⟩

/-- A dump with one station, in its `n`-th association. -/
def restart (n : ℕ) : StationDump := ⟨[restartEntry n], 0, 0⟩

/-- The state after the dumps `0`, …, `n - 1`. -/
structure Restarted (n : ℕ) (s : TrackedStations) : Prop where
  next : s.provider.nextGeneration = min (n + 1) u64Max
  started : ∀ a ∈ s.provider.associations, ∃ m < n, a.raw.associationStartedNs = some m
  seen : ∀ key e, s.seen key = some e → ∃ m < n, e = restartEntry m
  log : ∀ m < n, ∃ r ∈ s.log, r.association = m ∧ r.generation = min (m + 1) u64Max

theorem Restarted.continued_eq_none {n : ℕ} (h : Restarted n s) :
    continued (s.provider.get (restartEntry n).key) (restartEntry n).interface (restartEntry n).raw = none := by
  cases hget : s.provider.get (restartEntry n).key with
  | none => rfl
  | some old =>
    obtain ⟨m, hm, hstart⟩ := h.started old (List.mem_of_find?_eq_some hget)
    have hmat : associationMaterialContinues old (restartEntry n).interface.iftype (restartEntry n).raw = false := by
      simp [associationMaterialContinues, hstart, restartEntry, hm.ne]
    rw [continued, Option.bind_some, hmat]
    rfl

theorem Restarted.outcome_eq {n : ℕ} (h : Restarted n s) :
    (s.outcome (restart n)).1.nextGeneration = min (n + 2) u64Max ∧
      (s.outcome (restart n)).1.associations =
        ⟨min (n + 1) u64Max, wlan, (restartEntry n).raw, idleCounters, 0⟩ ::
          retainMissing s.provider.associations [(restartEntry n).key] ∧
      ∃ snapshot, (s.outcome (restart n)).2 = .ok snapshot ∧
        ∀ x, x ∈ snapshot.stations ↔ ∃ a ∈ (s.outcome (restart n)).1.associations, stationSample a = x := by
  have hgen : allocateGeneration s.provider.nextGeneration = (min (n + 1) u64Max, min (n + 2) u64Max) := by
    have : 1 ≤ u64Max := by decide
    simp only [allocateGeneration, saturatingAdd, h.next, Prod.mk.injEq]
    omega
  have hraw : applyRaw s.provider.get [] s.provider.nextGeneration [((restartEntry n).interface, (restartEntry n).raw)] =
      (min (n + 2) u64Max, some [⟨min (n + 1) u64Max, wlan, (restartEntry n).raw, idleCounters, 0⟩]) := by
    simp only [applyRaw, List.not_mem_nil, if_false]
    rw [show stationKey (restartEntry n).interface (restartEntry n).raw = (restartEntry n).key from rfl,
      h.continued_eq_none, hgen]
    rfl
  simp only [outcome, SystemNl80211StationProvider.applyGenerations, restart, List.map_cons, List.map_nil, hraw]
  refine ⟨trivial, rfl, _, rfl, fun x => ?_⟩
  simp only [List.mem_insertionSort, List.mem_map]

theorem Restarted.legal {n : ℕ} (h : Restarted n s) : s.Legal (restart n) := by
  rintro - e he
  obtain rfl : e = restartEntry n := List.mem_singleton.1 he
  refine ⟨fun c => ?_, fun e₀ hseen => ?_⟩
  · cases c <;> exact ⟨rfl, Nat.zero_le _⟩
  · obtain ⟨m, hm, rfl⟩ := h.seen _ _ hseen
    refine ⟨fun heq => absurd heq hm.ne, fun _ => Or.inl fun heq => ?_⟩
    exact hm.ne (Option.some.inj heq)

theorem Restarted.step {n : ℕ} (h : Restarted n s) : Restarted (n + 1) (s.step (restart n)) := by
  obtain ⟨hnext, hassoc, snapshot, hok, hmem⟩ := h.outcome_eq
  have hseen : ∀ key, (s.step (restart n)).seen key =
      ((restart n).entries.find? (·.key = key)).or (s.seen key) := seenAfter_ok hok
  refine ⟨hnext, ?_, ?_, ?_⟩
  · intro a ha
    change a ∈ (s.outcome (restart n)).1.associations at ha
    rw [hassoc] at ha
    rcases List.mem_cons.1 ha with rfl | ha
    · exact ⟨n, Nat.lt_succ_self n, rfl⟩
    · obtain ⟨old, hold, -, -, rfl⟩ := mem_retainMissing.1 ha
      obtain ⟨m, hm, hstart⟩ := h.started old hold
      exact ⟨m, hm.trans (Nat.lt_succ_self n), hstart⟩
  · intro key e he
    rw [hseen] at he
    cases hf : (restart n).entries.find? (·.key = key) with
    | none =>
      rw [hf, Option.none_or] at he
      obtain ⟨m, hm, heq⟩ := h.seen key e he
      exact ⟨m, hm.trans (Nat.lt_succ_self n), heq⟩
    | some e' =>
      rw [hf, Option.some_or] at he
      obtain rfl : e' = e := Option.some.inj he
      exact ⟨n, Nat.lt_succ_self n, List.mem_singleton.1 (List.mem_of_find?_eq_some hf)⟩
  · intro m hm
    rcases Nat.lt_succ_iff_lt_or_eq.1 hm with hm | rfl
    · obtain ⟨r, hr, h₁, h₂⟩ := h.log m hm
      exact ⟨r, List.mem_append_right _ hr, h₁, h₂⟩
    · refine ⟨⟨(restartEntry m).key, m, min (m + 1) u64Max, idleCounters, idleCounters⟩, List.mem_append_left _ ?_, rfl,
        rfl⟩
      refine (mem_reports hok hmem).2 ⟨⟨min (m + 1) u64Max, wlan, (restartEntry m).raw, idleCounters, 0⟩, ?_,
        restartEntry m, ?_, rfl⟩
      · rw [hassoc]
        exact List.mem_cons_self
      · rw [seenAfter_ok hok]
        have : (restart m).entries.find? (·.key = AssociationState.key
            ⟨min (m + 1) u64Max, wlan, (restartEntry m).raw, idleCounters, 0⟩) = some (restartEntry m) :=
          List.find?_cons_of_pos (decide_eq_true rfl)
        rw [this, Option.some_or]

theorem restarted_run (n : ℕ) : Restarted n (run ((List.range n).map restart)) ∧
    Run.Meets TrackedStations.step Legal new ((List.range n).map restart) := by
  induction n with
  | zero => exact ⟨⟨by decide, nofun, nofun, nofun⟩, trivial⟩
  | succ n ih =>
    rw [List.range_succ, List.map_append, List.map_singleton, run_concat, Run.meets_concat]
    exact ⟨ih.1.step, ih.2, ih.1.legal⟩

/-- When the numbers have run out, the last two associations share one. -/
theorem reused_of_max {n : ℕ} (hn : u64Max ≤ n) :
    ∃ dumps, dumps = (List.range (n + 1)).map restart ∧ Run.Meets step Legal new dumps ∧
      ∃ r ∈ (run dumps).log, ∃ r' ∈ (run dumps).log,
        r.generation = r'.generation ∧ r.association ≠ r'.association := by
  obtain ⟨h, hmeets⟩ := restarted_run (n + 1)
  have hpos : 1 ≤ u64Max := by decide
  obtain ⟨r, hr, ha, hg⟩ := h.log n (Nat.lt_succ_self n)
  obtain ⟨r', hr', ha', hg'⟩ := h.log (n - 1) (by omega)
  refine ⟨_, rfl, hmeets, r, hr, r', hr', ?_, ?_⟩
  · rw [hg, hg', min_eq_right (by omega), min_eq_right (by omega)]
  · rw [ha, ha']
    omega

theorem generation_reused : ∃ dumps, dumps = (List.range (u64Max + 1)).map restart ∧
    Run.Meets step Legal new dumps ∧ ∃ r ∈ (run dumps).log, ∃ r' ∈ (run dumps).log,
      r.generation = r'.generation ∧ r.association ≠ r'.association :=
  reused_of_max le_rfl

theorem station_counters_extended_restart :
    (run [restart 0, restart 1]).provider.nextGeneration < u64Max ∧
      ∀ r ∈ (run [restart 0, restart 1]).log, ∀ r' ∈ (run [restart 0, restart 1]).log,
        r.generation = r'.generation → r.key = r'.key ∧ r.association = r'.association := by
  have hlt : (run ([restart 0] ++ [restart 1])).provider.nextGeneration < u64Max := by decide +kernel
  have hmeets : Run.Meets step Legal new ([restart 0] ++ [restart 1]) := (restarted_run 2).2
  exact ⟨hlt, (station_counters_extended [restart 0] (restart 1) hmeets hlt).2.2.2.2.1⟩

end TrackedStations

end Lanspeedd
