import DOpenWrt.Lanspeedd.StationCounters

/-!
# Extending the counters of a station

What one call makes of the counters: over growth below `2 ^ 32` an extension is exact (`counterDelta_eq`), up to
`2 ^ 30` it never fails (`counterDelta_of_le`). What one call does to the associations (`Applied`).
-/

namespace Lanspeedd

inductive StationCounter
  | rxBytes
  | txBytes
  | rxPackets
  | txPackets
  deriving DecidableEq

def LinkCounters.get (counters : LinkCounters) : StationCounter → ℕ
  | .rxBytes => counters.rxBytes
  | .txBytes => counters.txBytes
  | .rxPackets => counters.rxPackets
  | .txPackets => counters.txPackets

/-- The width of the attribute that a counter is read from. -/
def StationCounter.width (rx tx : StationByteCounterWidth) : StationCounter → StationByteCounterWidth
  | rxBytes => rx
  | txBytes => tx
  | _ => .bits32

/-- What an attribute shows of a counter. -/
def StationByteCounterWidth.shown : StationByteCounterWidth → ℕ → ℕ
  | bits32, n => n % 2 ^ 32
  | bits64, n => n

/-! ### One counter -/

variable {w : StationByteCounterWidth} {t t' d : ℕ}

theorem counterDelta_of_ge (h : t ≤ t') : counterDelta t t' w = some (t' - t) := if_pos h

theorem counterDelta_eq (h : counterDelta (w.shown t) (w.shown t') w = some d) (hle : t ≤ t')
    (hlt : t' < t + 2 ^ 32) : d = t' - t := by
  cases w with
  | bits64 =>
    rw [StationByteCounterWidth.shown, StationByteCounterWidth.shown, counterDelta_of_ge hle] at h
    exact (Option.some.inj h).symm
  | bits32 =>
    simp only [counterDelta, StationByteCounterWidth.shown, counter32Modulus] at h
    split at h
    · have := Option.some.inj h
      omega
    · split at h
      · have := Option.some.inj h
        omega
      · cases h

/-- A growth of a quarter of the modulus wraps from above the high watermark to below the low one. -/
theorem counterDelta_of_le (hle : t ≤ t') (hlt : t' ≤ t + 2 ^ 30) :
    counterDelta (w.shown t) (w.shown t') w = some (t' - t) := by
  cases w with
  | bits64 => exact counterDelta_of_ge hle
  | bits32 =>
    simp only [counterDelta, StationByteCounterWidth.shown, counter32Modulus, counter32WrapHighWatermark, counter32WrapLowWatermark,
      true_and]
    split
    · congr 1
      omega
    · rw [if_pos (by omega)]
      congr 1
      omega

theorem checkedAdd_eq_some {a b c : ℕ} : checkedAdd a b = some c ↔ a + b ≤ u64Max ∧ c = a + b := by
  rw [checkedAdd]
  split
  next h => exact ⟨fun he => ⟨h, (Option.some.inj he).symm⟩, fun he => by rw [he.2]⟩
  next h => exact ⟨nofun, fun he => absurd he.1 h⟩

theorem extendStationCounters_eq_some {previous current extended result : LinkCounters}
    {rx tx : StationByteCounterWidth} :
    extendStationCounters previous current extended rx tx = some result ↔
      ∀ c : StationCounter, ∃ d, counterDelta (previous.get c) (current.get c) (c.width rx tx) = some d ∧
        extended.get c + d ≤ u64Max ∧ result.get c = extended.get c + d := by
  have hone : ∀ (c : StationCounter) (n : ℕ),
      ((counterDelta (previous.get c) (current.get c) (c.width rx tx)).bind fun d => checkedAdd (extended.get c) d) =
          some n ↔
        ∃ d, counterDelta (previous.get c) (current.get c) (c.width rx tx) = some d ∧
          extended.get c + d ≤ u64Max ∧ n = extended.get c + d := by
    intro c n
    simp only [Option.bind_eq_some_iff, checkedAdd_eq_some]
  simp only [← hone]
  have hsplit : extendStationCounters previous current extended rx tx = some result ↔
      ∃ a b c d, ((counterDelta previous.rxBytes current.rxBytes rx).bind fun d => checkedAdd extended.rxBytes d) =
          some a ∧
        ((counterDelta previous.txBytes current.txBytes tx).bind fun d => checkedAdd extended.txBytes d) = some b ∧
        ((counterDelta previous.rxPackets current.rxPackets .bits32).bind fun d =>
          checkedAdd extended.rxPackets d) = some c ∧
        ((counterDelta previous.txPackets current.txPackets .bits32).bind fun d =>
          checkedAdd extended.txPackets d) = some d ∧ result = ⟨a, b, c, d⟩ := by
    simp only [extendStationCounters, Option.bind_eq_bind, Option.bind_eq_some_iff, Option.pure_def,
      Option.some.injEq]
    constructor
    · rintro ⟨d₁, h₁, a, h₁', d₂, h₂, b, h₂', d₃, h₃, c, h₃', d₄, h₄, d, h₄', rfl⟩
      exact ⟨a, b, c, d, ⟨d₁, h₁, h₁'⟩, ⟨d₂, h₂, h₂'⟩, ⟨d₃, h₃, h₃'⟩, ⟨d₄, h₄, h₄'⟩, rfl⟩
    · rintro ⟨a, b, c, d, ⟨d₁, h₁, h₁'⟩, ⟨d₂, h₂, h₂'⟩, ⟨d₃, h₃, h₃'⟩, ⟨d₄, h₄, h₄'⟩, rfl⟩
      exact ⟨d₁, h₁, a, h₁', d₂, h₂, b, h₂', d₃, h₃, c, h₃', d₄, h₄, d, h₄', rfl⟩
  rw [hsplit]
  constructor
  · rintro ⟨a, b, c, d, h₁, h₂, h₃, h₄, rfl⟩ (_ | _ | _ | _)
    · exact h₁
    · exact h₂
    · exact h₃
    · exact h₄
  · intro h
    exact ⟨_, _, _, _, h .rxBytes, h .txBytes, h .rxPackets, h .txPackets, rfl⟩

/-! ### One frame -/

variable {previous : StationKey → Option AssociationState} {seen : List StationKey} {gen : ℕ}
  {raw : List (WirelessInterface × RawStationCounter)}

/-- The association could not be continued, and got a number of its own. -/
def AssociationState.IsNew (previous : StationKey → Option AssociationState) (a : AssociationState) : Prop :=
  continued (previous a.key) a.interface a.raw = none

/-- What the loop over a frame does: the stations continue or get the numbers from `gen` to `gen'`. -/
structure Applied (previous : StationKey → Option AssociationState) (seen : List StationKey) (gen : ℕ)
    (raw : List (WirelessInterface × RawStationCounter)) (gen' : ℕ) (next : List AssociationState) : Prop where
  le : gen ≤ gen'
  entries : next.map (fun a => (a.interface, a.raw)) = raw
  nodup : (raw.map fun e => stationKey e.1 e.2).Nodup
  unseen : ∀ e ∈ raw, stationKey e.1 e.2 ∉ seen
  present : ∀ a ∈ next, a.missingCompleteReads = 0
  kept : ∀ a ∈ next, ¬ a.IsNew previous →
    continued (previous a.key) a.interface a.raw = some (a.generation, a.counters)
  numbered : ∀ a ∈ next, a.IsNew previous → a.counters = a.raw.counters ∧ gen ≤ a.generation ∧ a.generation < gen'
  ordered : next.Pairwise fun a b => a.IsNew previous → b.IsNew previous → a.generation < b.generation

theorem allocateGeneration_eq (hpos : 1 ≤ gen) (hlt : (allocateGeneration gen).2 < u64Max) :
    allocateGeneration gen = (gen, gen + 1) := by
  simp only [allocateGeneration, max_eq_left hpos, saturatingAdd] at hlt ⊢
  rw [min_eq_left (by omega)]

theorem le_applyRaw (hpos : 1 ≤ gen) (hlt : (applyRaw previous seen gen raw).1 < u64Max) :
    gen ≤ (applyRaw previous seen gen raw).1 := by
  induction raw generalizing seen gen with
  | nil => exact le_rfl
  | cons e raw ih =>
    rw [applyRaw] at hlt ⊢
    split
    next => exact le_rfl
    next hseen =>
      rw [if_neg hseen] at hlt
      split
      next hc =>
        rw [hc] at hlt
        exact ih hpos hlt
      next hc =>
        rw [hc] at hlt
        have hmono : (allocateGeneration gen).2 < u64Max := by
          by_contra hge
          have hmax : (allocateGeneration gen).2 = u64Max := by
            simp only [allocateGeneration, saturatingAdd] at hge ⊢
            omega
          simp only at hlt
          have := @ih (stationKey e.1 e.2 :: seen) (allocateGeneration gen).2 (by rw [hmax]; decide) hlt
          omega
        rw [allocateGeneration_eq hpos hmono] at hlt ⊢
        exact (Nat.le_succ gen).trans (ih (Nat.succ_pos _) hlt)

theorem Applied.cons {a : AssociationState} {g gen' : ℕ} {next : List AssociationState} (hseen : a.key ∉ seen)
    (hpresent : a.missingCompleteReads = 0)
    (hcase : continued (previous a.key) a.interface a.raw = some (a.generation, a.counters) ∧ g = gen ∨
      a.IsNew previous ∧ a.counters = a.raw.counters ∧ a.generation = gen ∧ g = gen + 1)
    (h : Applied previous (a.key :: seen) g raw gen' next) :
    Applied previous seen gen ((a.interface, a.raw) :: raw) gen' (a :: next) := by
  have hg : gen ≤ g := by
    rcases hcase with ⟨-, rfl⟩ | ⟨-, -, -, rfl⟩
    · exact le_rfl
    · exact Nat.le_succ gen
  have hnew : a.IsNew previous → a.counters = a.raw.counters ∧ a.generation = gen ∧ g = gen + 1 := by
    intro hn
    rcases hcase with ⟨hc, -⟩ | ⟨-, h⟩
    · rw [AssociationState.IsNew, hc] at hn
      cases hn
    · exact h
  refine ⟨hg.trans h.le, by rw [List.map_cons, h.entries], ?_, ?_, ?_, ?_, ?_, ?_⟩
  · refine List.nodup_cons.2 ⟨fun hmem => ?_, h.nodup⟩
    obtain ⟨e, he, hk⟩ := List.mem_map.1 hmem
    exact h.unseen e he (hk ▸ List.mem_cons_self)
  · intro e he
    rcases List.mem_cons.1 he with rfl | he
    · exact hseen
    · exact fun hmem => h.unseen e he (List.mem_cons_of_mem _ hmem)
  · intro b hb
    rcases List.mem_cons.1 hb with rfl | hb
    · exact hpresent
    · exact h.present b hb
  · intro b hb hn
    rcases List.mem_cons.1 hb with rfl | hb
    · rcases hcase with ⟨hc, -⟩ | ⟨hn', -⟩
      · exact hc
      · exact absurd hn' hn
    · exact h.kept b hb hn
  · intro b hb hn
    rcases List.mem_cons.1 hb with rfl | hb
    · obtain ⟨hc, hgen, hgg⟩ := hnew hn
      have := h.le
      exact ⟨hc, hgen.ge, by omega⟩
    · obtain ⟨hc, h1, h2⟩ := h.numbered b hb hn
      exact ⟨hc, hg.trans h1, h2⟩
  · refine List.pairwise_cons.2 ⟨fun b hb hna hnb => ?_, h.ordered⟩
    obtain ⟨-, hgen, hgg⟩ := hnew hna
    have := (h.numbered b hb hnb).2.1
    omega

theorem applyRaw_applied {next : List AssociationState} (hpos : 1 ≤ gen)
    (hlt : (applyRaw previous seen gen raw).1 < u64Max) (h : (applyRaw previous seen gen raw).2 = some next) :
    Applied previous seen gen raw (applyRaw previous seen gen raw).1 next := by
  induction raw generalizing seen gen next with
  | nil =>
    cases h
    exact ⟨le_rfl, rfl, List.nodup_nil, nofun, nofun, nofun, nofun, List.Pairwise.nil⟩
  | cons e raw ih =>
    obtain ⟨interface, r⟩ := e
    by_cases hseen : stationKey interface r ∈ seen
    · rw [applyRaw, if_pos hseen] at h
      cases h
    · cases hc : continued (previous (stationKey interface r)) interface r with
      | some old =>
        simp only [applyRaw, if_neg hseen, hc] at hlt h ⊢
        obtain ⟨rest, hrest, rfl⟩ := Option.map_eq_some_iff.1 h
        exact Applied.cons (a := ⟨old.1, interface, r, old.2, 0⟩) hseen rfl (Or.inl ⟨hc, rfl⟩) (ih hpos hlt hrest)
      | none =>
        have hmono : (allocateGeneration gen).2 < u64Max := by
          simp only [applyRaw, if_neg hseen, hc] at hlt
          exact (le_applyRaw (by simp only [allocateGeneration, saturatingAdd]; omega) hlt).trans_lt hlt
        simp only [applyRaw, if_neg hseen, hc, allocateGeneration_eq hpos hmono] at hlt h ⊢
        obtain ⟨rest, hrest, rfl⟩ := Option.map_eq_some_iff.1 h
        exact Applied.cons (a := ⟨gen, interface, r, r.counters, 0⟩) hseen rfl (Or.inr ⟨hc, rfl, rfl, rfl⟩)
          (ih (Nat.succ_pos _) hlt hrest)

/-- A frame is rejected exactly when a station occurs twice. -/
theorem applyRaw_isSome : (applyRaw previous seen gen raw).2.isSome ↔
    (raw.map fun e => stationKey e.1 e.2).Nodup ∧ ∀ e ∈ raw, stationKey e.1 e.2 ∉ seen := by
  induction raw generalizing seen gen with
  | nil => exact iff_of_true rfl ⟨List.nodup_nil, nofun⟩
  | cons e raw ih =>
    obtain ⟨interface, r⟩ := e
    by_cases hseen : stationKey interface r ∈ seen
    · rw [applyRaw, if_pos hseen]
      exact iff_of_false nofun fun h => h.2 _ List.mem_cons_self hseen
    · have hrest : (∀ e ∈ raw, stationKey e.1 e.2 ∉ stationKey interface r :: seen) ↔
          stationKey interface r ∉ raw.map (fun e => stationKey e.1 e.2) ∧ ∀ e ∈ raw, stationKey e.1 e.2 ∉ seen := by
        simp only [List.mem_cons, not_or, List.mem_map, not_exists, not_and, forall_and]
      have hiff : (applyRaw previous seen gen ((interface, r) :: raw)).2.isSome ↔
          (raw.map fun e => stationKey e.1 e.2).Nodup ∧
            ∀ e ∈ raw, stationKey e.1 e.2 ∉ stationKey interface r :: seen := by
        rw [applyRaw, if_neg hseen]
        split
        next => rw [Option.isSome_map]; exact ih
        next => rw [Option.isSome_map]; exact ih
      rw [hiff, hrest, List.map_cons, List.nodup_cons]
      constructor
      · rintro ⟨h1, h2, h3⟩
        exact ⟨⟨h2, h1⟩, List.forall_mem_cons.2 ⟨hseen, h3⟩⟩
      · rintro ⟨⟨h2, h1⟩, h3⟩
        exact ⟨h1, h2, (List.forall_mem_cons.1 h3).2⟩

end Lanspeedd
