import Mathlib.Tactic
import DOpenWrt.Lib.Run

/-!
# Stable reads of fast counters

`fast_counter.rs`. A counter is read by two lookups, and a pair of equal copies with an even sequence number is taken
for a value the producer published. The readers report a new reset generation before they return one of its values.
-/

namespace Lanspeedd

def fastCounterAbiVersion : BitVec 32 := 1

@[ext]
structure FastCounterValue where
  abiVersion : BitVec 32
  resetGeneration : BitVec 32
  seq : BitVec 64
  bytes : BitVec 64
  packets : BitVec 64
  lastSeenNs : BitVec 64
deriving DecidableEq, Repr

/-- `FastCounterValue::default`. -/
def FastCounterValue.default : FastCounterValue := ⟨0, 0, 0, 0, 0, 0⟩

inductive StableReadError where
  | abiMismatch (first second : BitVec 32)
  | resetGenerationMismatch (first second : BitVec 32)
  | sequenceUnstable (first second : BitVec 64)
  | valueChanged
deriving DecidableEq, Repr

def validateStablePair (first second : FastCounterValue) : Except StableReadError FastCounterValue :=
  if first.abiVersion ≠ fastCounterAbiVersion ∨ second.abiVersion ≠ fastCounterAbiVersion then
    .error (.abiMismatch first.abiVersion second.abiVersion)
  else if first.resetGeneration ≠ second.resetGeneration then
    .error (.resetGenerationMismatch first.resetGeneration second.resetGeneration)
  else if first.seq ≠ second.seq ∨ first.seq &&& 1 ≠ 0 then .error (.sequenceUnstable first.seq second.seq)
  else if first.bytes ≠ second.bytes ∨ first.packets ≠ second.packets ∨ first.lastSeenNs ≠ second.lastSeenNs then
    .error .valueChanged
  else .ok second

/-- What a pair that was accepted has in common. -/
theorem validateStablePair_ok {first second value : FastCounterValue}
    (h : validateStablePair first second = .ok value) : value = second ∧ first = second ∧ first.seq &&& 1 = 0 := by
  unfold validateStablePair at h
  split_ifs at h with habi hreset hseq hvalue
  rw [not_or, not_not, not_not] at habi
  rw [not_not] at hreset
  rw [not_or, not_not, not_not] at hseq
  simp only [not_or, not_not] at hvalue
  obtain ⟨hbytes, hpackets, hlast⟩ := hvalue
  obtain ⟨hfirst, hsecond⟩ := habi
  cases h
  exact ⟨rfl, FastCounterValue.ext (hfirst.trans hsecond.symm) hreset hseq.1 hbytes hpackets hlast, hseq.2⟩

/-! ### `read_stable` -/

section ReadStable

variable {σ ε : Type*}

inductive FastCounterReadError (ε : Type*) where
  | source (e : ε)
  | unstable (attempts : Nat) (last : Option StableReadError)

/-- The loop of `read_stable`, with the attempts left and the last error. `read` is a lookup. -/
def readStableLoop (read : σ → Except ε FastCounterValue × σ) (attempts : Nat) :
    Nat → Option StableReadError → σ → Except (FastCounterReadError ε) FastCounterValue × σ
  | 0, last, s => (.error (.unstable attempts last), s)
  | n + 1, _, s =>
    match read s with
    | (.error e, s) => (.error (.source e), s)
    | (.ok first, s) =>
      match read s with
      | (.error e, s) => (.error (.source e), s)
      | (.ok second, s) =>
        match validateStablePair first second with
        | .ok value => (.ok value, s)
        | .error e => readStableLoop read attempts n (some e) s

def readStable (attempts : Nat) (read : σ → Except ε FastCounterValue × σ) (s : σ) :
    Except (FastCounterReadError ε) FastCounterValue × σ :=
  readStableLoop read (max attempts 1) (max attempts 1) none s

/-- The state after `n` lookups. -/
def afterReads (read : σ → Except ε FastCounterValue × σ) (n : Nat) (s : σ) : σ := (fun s => (read s).2)^[n] s

theorem readStableLoop_reads (read : σ → Except ε FastCounterValue × σ) (attempts n : Nat)
    (last : Option StableReadError) (s : σ) :
    ∃ k ≤ 2 * n, (readStableLoop read attempts n last s).2 = afterReads read k s := by
  induction n generalizing last s with
  | zero => exact ⟨0, le_rfl, rfl⟩
  | succ n ih =>
    have h1 : (read s).2 = afterReads read 1 s := rfl
    have h2 : (read (read s).2).2 = afterReads read 2 s := rfl
    unfold readStableLoop
    rcases hfirst : read s with ⟨_ | first, s₁⟩
    · rw [hfirst] at h1
      exact ⟨1, by omega, h1⟩
    rcases hsecond : read s₁ with ⟨_ | second, s₂⟩
    · rw [hfirst, hsecond] at h2
      exact ⟨2, by omega, by simpa [hsecond] using h2⟩
    rw [hfirst, hsecond] at h2
    dsimp only at h2 ⊢
    rw [hsecond]
    dsimp only
    split
    · exact ⟨2, by omega, h2⟩
    · next e _ =>
      obtain ⟨k, hk, hstate⟩ := ih (some e) s₂
      refine ⟨k + 2, by omega, ?_⟩
      rw [hstate, h2, afterReads, afterReads, afterReads, Function.iterate_add_apply]

end ReadStable
/-! ### The readers -/

structure FastCounterAggregate where
  abiVersion : BitVec 32
  resetGeneration : BitVec 32
  bytes : BitVec 64
  packets : BitVec 64
  lastSeenNs : BitVec 64
deriving DecidableEq, Repr

def FastCounterValue.aggregate (v : FastCounterValue) : FastCounterAggregate :=
  ⟨v.abiVersion, v.resetGeneration, v.bytes, v.packets, v.lastSeenNs⟩

inductive FastSReadError where
  | noCpuValues
  | cpuCountChanged (first second : Nat)
  | cpuValueUnstable (cpu : Nat) (error : StableReadError)
  | cpuGenerationMismatch (expected actual : BitVec 32)
  | resetGenerationChanged (previous current : BitVec 32)
deriving DecidableEq, Repr

inductive FastNReadError where
  | unstable (error : StableReadError)
  | resetGenerationChanged (previous current : BitVec 32)
deriving DecidableEq, Repr

def saturatingAdd64 (a b : BitVec 64) : BitVec 64 := if a.toNat + b.toNat < 2 ^ 64 then a + b else BitVec.allOnes 64

/-- The aggregate with the value of one more CPU. -/
def FastCounterAggregate.add (a : FastCounterAggregate) (v : FastCounterValue) : FastCounterAggregate :=
  { a with
    bytes := saturatingAdd64 a.bytes v.bytes
    packets := saturatingAdd64 a.packets v.packets
    lastSeenNs := if a.lastSeenNs ≤ v.lastSeenNs then v.lastSeenNs else a.lastSeenNs }

/-- The loop of `aggregate_per_cpu`; there is no aggregate before the first initialized CPU. -/
def aggregateCpus : Nat → List (FastCounterValue × FastCounterValue) → Option FastCounterAggregate →
    Except FastSReadError (Option FastCounterAggregate)
  | _, [], aggregate => .ok aggregate
  | cpu, (before, after) :: rest, aggregate =>
    if before = .default ∧ after = .default then aggregateCpus (cpu + 1) rest aggregate
    else match validateStablePair before after with
      | .error error => .error (.cpuValueUnstable cpu error)
      | .ok value =>
        match aggregate with
        | none => aggregateCpus (cpu + 1) rest (some value.aggregate)
        | some a =>
          if value.resetGeneration ≠ a.resetGeneration then
            .error (.cpuGenerationMismatch a.resetGeneration value.resetGeneration)
          else aggregateCpus (cpu + 1) rest (some (a.add value))

def aggregatePerCpu (first second : List FastCounterValue) : Except FastSReadError FastCounterAggregate :=
  if first = [] then .error .noCpuValues
  else if first.length ≠ second.length then .error (.cpuCountChanged first.length second.length)
  else match aggregateCpus 0 (first.zip second) none with
    | .error error => .error error
    | .ok none => .error .noCpuValues
    | .ok (some aggregate) => .ok aggregate

/-- What both readers do with the reset generation of a stable read: the change to report, and the generation they
keep. -/
def trackGeneration (last : Option (BitVec 32)) (current : BitVec 32) :
    Option (BitVec 32 × BitVec 32) × Option (BitVec 32) :=
  match last with
  | some previous => if previous ≠ current then (some (previous, current), some current) else (none, last)
  | none => (none, some current)

structure FastSReader where
  lastResetGeneration : Option (BitVec 32)

structure FastNReader where
  lastResetGeneration : Option (BitVec 32)

def FastSReader.read (r : FastSReader) (input : List FastCounterValue × List FastCounterValue) :
    Except FastSReadError FastCounterAggregate × FastSReader :=
  match aggregatePerCpu input.1 input.2 with
  | .error error => (.error error, r)
  | .ok aggregate =>
    match trackGeneration r.lastResetGeneration aggregate.resetGeneration with
    | (some (previous, current), last) => (.error (.resetGenerationChanged previous current), ⟨last⟩)
    | (none, last) => (.ok aggregate, ⟨last⟩)

def FastNReader.read (r : FastNReader) (input : FastCounterValue × FastCounterValue) :
    Except FastNReadError FastCounterAggregate × FastNReader :=
  match validateStablePair input.1 input.2 with
  | .error error => (.error (.unstable error), r)
  | .ok value =>
    match trackGeneration r.lastResetGeneration value.resetGeneration with
    | (some (previous, current), last) => (.error (.resetGenerationChanged previous current), ⟨last⟩)
    | (none, last) => (.ok value.aggregate, ⟨last⟩)

/-- What a reader tells of the generation: a value of it, or a change. -/
inductive GenerationReport where
  | value (generation : BitVec 32)
  | changed (previous current : BitVec 32)
deriving DecidableEq, Repr

namespace GenerationReport

def generation : GenerationReport → BitVec 32
  | value generation => generation
  | changed _ current => current

def asChange : GenerationReport → Option (BitVec 32 × BitVec 32)
  | value _ => none
  | changed previous current => some (previous, current)

/-- An unstable read tells nothing. -/
def ofFastN : Except FastNReadError FastCounterAggregate → Option GenerationReport
  | .ok aggregate => some (.value aggregate.resetGeneration)
  | .error (.resetGenerationChanged previous current) => some (.changed previous current)
  | .error (.unstable _) => none

def ofFastS : Except FastSReadError FastCounterAggregate → Option GenerationReport
  | .ok aggregate => some (.value aggregate.resetGeneration)
  | .error (.resetGenerationChanged previous current) => some (.changed previous current)
  | .error _ => none

end GenerationReport

/-- The results of one call after the other. -/
def readAll {ρ ι α : Type} (read : ρ → ι → α × ρ) : ρ → List ι → List α
  | _, [] => []
  | r, input :: inputs => (read r input).1 :: readAll read (read r input).2 inputs

/-- The changes from one generation to the next. -/
def generationChanges (generations : List (BitVec 32)) : List (BitVec 32 × BitVec 32) :=
  (generations.zip generations.tail).filter fun g => g.1 ≠ g.2

section Reports

open GenerationReport

def reportGeneration (last : Option (BitVec 32)) (current : BitVec 32) : GenerationReport :=
  match (trackGeneration last current).1 with
  | some (previous, current) => .changed previous current
  | none => .value current

theorem trackGeneration_last (last : Option (BitVec 32)) (current : BitVec 32) :
    (trackGeneration last current).2 = some current := by
  unfold trackGeneration
  cases last with
  | none => rfl
  | some previous =>
    dsimp only
    split
    · rfl
    · next h => rw [not_not.1 h]

/-- The reports on stable reads of the given generations. -/
def reports : Option (BitVec 32) → List (BitVec 32) → List GenerationReport
  | _, [] => []
  | last, g :: gs => reportGeneration last g :: reports (some g) gs

/-- A reader that reports on every stable read, and keeps its generation. -/
structure Tracks {ρ ι α : Type} (read : ρ → ι → α × ρ) (last : ρ → Option (BitVec 32))
    (stable : ι → Option (BitVec 32)) (report? : α → Option GenerationReport) : Prop where
  report : ∀ r input, report? (read r input).1 = (stable input).map (reportGeneration (last r))
  last : ∀ r input, last (read r input).2 = (stable input).or (last r)

theorem Tracks.readAll {ρ ι α : Type} {read : ρ → ι → α × ρ} {last : ρ → Option (BitVec 32)}
    {stable : ι → Option (BitVec 32)} {report? : α → Option GenerationReport} (h : Tracks read last stable report?)
    (r : ρ) (inputs : List ι) :
    (readAll read r inputs).filterMap report? = reports (last r) (inputs.filterMap stable) := by
  induction inputs generalizing r with
  | nil => rfl
  | cons input inputs ih =>
    have hreport := h.report r input
    have hlast := h.last r input
    rw [Lanspeedd.readAll]
    cases hs : stable input with
    | none =>
      rw [hs] at hreport hlast
      rw [List.filterMap_cons_none hreport, List.filterMap_cons_none hs, ih, hlast, Option.none_or]
    | some g =>
      rw [hs] at hreport hlast
      rw [List.filterMap_cons_some hreport, List.filterMap_cons_some hs, ih, hlast, Option.some_or, reports]

theorem fastN_tracks : Tracks FastNReader.read (·.lastResetGeneration)
    (fun input => (validateStablePair input.1 input.2).toOption.map (·.resetGeneration)) ofFastN where
  report r input := by
    unfold FastNReader.read reportGeneration
    cases validateStablePair input.1 input.2 with
    | error e => rfl
    | ok value =>
      dsimp only [Except.toOption, Option.map_some]
      rcases trackGeneration r.lastResetGeneration value.resetGeneration with ⟨_ | _, _⟩ <;> rfl
  last r input := by
    unfold FastNReader.read
    cases validateStablePair input.1 input.2 with
    | error e => rfl
    | ok value =>
      have hlast := trackGeneration_last r.lastResetGeneration value.resetGeneration
      dsimp only [Except.toOption, Option.map_some, Option.some_or]
      split
      · next heq => rw [← hlast, heq]
      · next heq => rw [← hlast, heq]

theorem aggregateCpus_ne_changed (cpu : Nat) (pairs : List (FastCounterValue × FastCounterValue))
    (aggregate : Option FastCounterAggregate) (previous current : BitVec 32) :
    aggregateCpus cpu pairs aggregate ≠ .error (.resetGenerationChanged previous current) := by
  induction pairs generalizing cpu aggregate with
  | nil => simp [aggregateCpus]
  | cons pair pairs ih =>
    unfold aggregateCpus
    split_ifs
    · exact ih _ _
    · cases validateStablePair pair.1 pair.2 with
      | error e => simp
      | ok value =>
        cases aggregate with
        | none => exact ih _ _
        | some a =>
          dsimp only
          split_ifs
          · simp
          · exact ih _ _

/-- An error of the aggregation is no change of the generation. -/
theorem ofFastS_aggregatePerCpu {first second : List FastCounterValue} {e : FastSReadError}
    (h : aggregatePerCpu first second = .error e) : ofFastS (.error e) = none := by
  unfold aggregatePerCpu at h
  split_ifs at h
  · cases h
    rfl
  · cases h
    rfl
  · split at h
    · next hcpus =>
      cases h
      cases e with
      | resetGenerationChanged previous current => exact absurd hcpus (aggregateCpus_ne_changed _ _ _ _ _)
      | _ => rfl
    · cases h
      rfl
    · cases h

theorem fastS_tracks : Tracks FastSReader.read (·.lastResetGeneration)
    (fun input => (aggregatePerCpu input.1 input.2).toOption.map (·.resetGeneration)) ofFastS where
  report r input := by
    unfold FastSReader.read reportGeneration
    cases h : aggregatePerCpu input.1 input.2 with
    | error e => exact ofFastS_aggregatePerCpu h
    | ok aggregate =>
      dsimp only [Except.toOption, Option.map_some]
      rcases trackGeneration r.lastResetGeneration aggregate.resetGeneration with ⟨_ | _, _⟩ <;> rfl
  last r input := by
    unfold FastSReader.read
    cases aggregatePerCpu input.1 input.2 with
    | error e => rfl
    | ok aggregate =>
      have hlast := trackGeneration_last r.lastResetGeneration aggregate.resetGeneration
      dsimp only [Except.toOption, Option.map_some, Option.some_or]
      split
      · next heq => rw [← hlast, heq]
      · next heq => rw [← hlast, heq]

theorem reports_changes (last : BitVec 32) (gs : List (BitVec 32)) :
    (reports (some last) gs).filterMap asChange = generationChanges (last :: gs) := by
  induction gs generalizing last with
  | nil => rfl
  | cons g gs ih =>
    have hcons : generationChanges (last :: g :: gs) =
        (if last ≠ g then [(last, g)] else []) ++ generationChanges (g :: gs) := by
      unfold generationChanges
      rw [List.tail_cons, List.zip_cons_cons, List.filter_cons]
      by_cases h : last = g <;> simp [h]
    rw [reports, hcons, ← ih]
    by_cases h : last = g
    · have hreport : reportGeneration (some last) g = .value g := by simp [reportGeneration, trackGeneration, h]
      rw [hreport, List.filterMap_cons_none rfl, if_neg (not_not.2 h), List.nil_append]
    · have hreport : reportGeneration (some last) g = .changed last g := by
        simp [reportGeneration, trackGeneration, h]
      have hchange : asChange (.changed last g) = some (last, g) := rfl
      rw [hreport, List.filterMap_cons_some hchange, if_pos h, List.singleton_append]

/-- A value is of the generation that the report before it named. -/
theorem reports_value {last : Option (BitVec 32)} {gs : List (BitVec 32)} {pre post : List GenerationReport}
    {g : BitVec 32} (h : reports last gs = pre ++ .value g :: post) :
    ∀ previous ∈ (pre.getLast?.map GenerationReport.generation).or last, previous = g := by
  induction pre generalizing last gs with
  | nil =>
    cases gs with
    | nil => cases h
    | cons g' gs =>
      obtain ⟨hhead, -⟩ := List.cons.inj h
      intro previous hprevious
      obtain rfl : last = some previous := hprevious
      unfold reportGeneration trackGeneration at hhead
      by_cases heq : previous = g'
      · simp [heq] at hhead
        rw [heq, hhead]
      · simp [heq] at hhead
  | cons x pre ih =>
    cases gs with
    | nil => cases h
    | cons g' gs =>
      obtain ⟨hhead, htail⟩ := List.cons.inj h
      have hgen : x.generation = g' := by
        rw [← hhead]
        unfold reportGeneration trackGeneration
        cases last with
        | none => rfl
        | some previous => by_cases heq : previous = g' <;> simp [heq, generation]
      have := ih htail
      intro previous hprevious
      refine this previous ?_
      cases pre with
      | nil =>
        simp only [List.getLast?_singleton, Option.map_some, Option.some_or, Option.mem_def, Option.some.injEq] at hprevious
        rw [← hprevious, hgen]
        rfl
      | cons y pre =>
        rw [List.getLast?_cons_cons, List.getLast?_eq_some_getLast (List.cons_ne_nil y pre)] at hprevious
        rw [List.getLast?_eq_some_getLast (List.cons_ne_nil y pre)]
        exact hprevious

/-- Every change of the generation is one error, and before that no value of the new generation is returned. -/
def ReportsResets {ρ ι α : Type} (read : ρ → ι → α × ρ) (start : ρ) (stable : ι → Option (BitVec 32))
    (report? : α → Option GenerationReport) : Prop :=
  ∀ inputs, (((readAll read start inputs).filterMap report?).filterMap asChange =
      generationChanges (inputs.filterMap stable)) ∧
    ∀ pre g post, (readAll read start inputs).filterMap report? = pre ++ .value g :: post →
      ∀ previous ∈ pre.getLast?, previous.generation = g

theorem Tracks.reportsResets {ρ ι α : Type} {read : ρ → ι → α × ρ} {last : ρ → Option (BitVec 32)}
    {stable : ι → Option (BitVec 32)} {report? : α → Option GenerationReport} (h : Tracks read last stable report?)
    {start : ρ} (hstart : last start = none) : ReportsResets read start stable report? := by
  intro inputs
  have hreports := h.readAll start inputs
  rw [hstart] at hreports
  refine ⟨?_, fun pre g post hpre previous hprevious => ?_⟩
  · rw [hreports]
    cases inputs.filterMap stable with
    | nil => rfl
    | cons g gs => exact reports_changes g gs
  · rw [hreports] at hpre
    refine reports_value hpre previous.generation ?_
    rw [hprevious]
    rfl

end Reports

end Lanspeedd
