import DOpenWrt.Lanspeedd.FastCounter

/-!
# Fast counters under a running producer

A producer that makes the sequence number odd, writes the fields and makes it even again, and a reader whose two
lookups copy one field after the other. The steps of both come in any order. `ticks` counts the changes of the sequence
number, and `copyTicks` has its value at each copy.
-/

namespace Lanspeedd

inductive CounterField where
  | abiVersion | resetGeneration | seq | bytes | packets | lastSeenNs
deriving DecidableEq, Repr

/-- `dest` with one field of `source`. -/
def CounterField.copy (source dest : FastCounterValue) : CounterField → FastCounterValue
  | abiVersion => { dest with abiVersion := source.abiVersion }
  | resetGeneration => { dest with resetGeneration := source.resetGeneration }
  | seq => { dest with seq := source.seq }
  | bytes => { dest with bytes := source.bytes }
  | packets => { dest with packets := source.packets }
  | lastSeenNs => { dest with lastSeenNs := source.lastSeenNs }

/-- Two values agree on a field. -/
def CounterField.Same (a b : FastCounterValue) : CounterField → Prop
  | abiVersion => a.abiVersion = b.abiVersion
  | resetGeneration => a.resetGeneration = b.resetGeneration
  | seq => a.seq = b.seq
  | bytes => a.bytes = b.bytes
  | packets => a.packets = b.packets
  | lastSeenNs => a.lastSeenNs = b.lastSeenNs

/-- What a producer publishes. -/
structure CounterVersion where
  resetGeneration : BitVec 32
  bytes : BitVec 64
  packets : BitVec 64
  lastSeenNs : BitVec 64
deriving DecidableEq, Repr

def FastCounterValue.version (v : FastCounterValue) : CounterVersion :=
  ⟨v.resetGeneration, v.bytes, v.packets, v.lastSeenNs⟩

/-- The version with a sequence number. -/
def CounterVersion.value (v : CounterVersion) (seq : BitVec 64) : FastCounterValue :=
  ⟨fastCounterAbiVersion, v.resetGeneration, seq, v.bytes, v.packets, v.lastSeenNs⟩

structure Seqlock where
  mem : FastCounterValue
  /-- The version being written. -/
  writing : Option CounterVersion
  /-- The versions published so far, the oldest first. -/
  published : List CounterVersion
  first : FastCounterValue
  second : FastCounterValue
  ticks : Nat
  copyTicks : List Nat

inductive SeqlockStep where
  | beginWrite (v : CounterVersion)
  | writeField (f : CounterField)
  | endWrite
  /-- The reader copies its next field. -/
  | copyField
deriving DecidableEq, Repr

namespace Seqlock

variable (order₁ order₂ : List CounterField)

def start (seq : BitVec 64) (v : CounterVersion) : Seqlock where
  mem := v.value seq
  writing := none
  published := [v]
  first := .default
  second := .default
  ticks := 0
  copyTicks := []

/-- The next copy of the reader, none after both lookups. -/
def copyNext (s : Seqlock) : Seqlock :=
  let k := s.copyTicks.length
  match (order₁ ++ order₂)[k]? with
  | none => s
  | some f =>
    let s := { s with copyTicks := s.copyTicks ++ [s.ticks] }
    if k < order₁.length then { s with first := f.copy s.mem s.first } else { s with second := f.copy s.mem s.second }

/-- A step that is not enabled changes nothing. The fields of the sequence number and of the ABI version are not the
producer's to write. -/
def step (s : Seqlock) : SeqlockStep → Seqlock
  | .beginWrite v =>
    match s.writing with
    | some _ => s
    | none => { s with mem := { s.mem with seq := s.mem.seq + 1 }, writing := some v, ticks := s.ticks + 1 }
  | .writeField f =>
    match s.writing with
    | none => s
    | some v => { s with mem := f.copy { v.value s.mem.seq with abiVersion := s.mem.abiVersion } s.mem }
  | .endWrite =>
    match s.writing with
    | none => s
    | some v =>
      if s.mem.version = v then
        { s with
          mem := { s.mem with seq := s.mem.seq + 1 }
          writing := none
          published := s.published ++ [v]
          ticks := s.ticks + 1 }
      else s
  | .copyField => copyNext order₁ order₂ s

/-- Both lookups are complete. -/
def BothRead (s : Seqlock) : Prop := s.copyTicks.length = order₁.length + order₂.length

def run (seq : BitVec 64) (v : CounterVersion) (steps : List SeqlockStep) : Seqlock :=
  steps.foldl (step order₁ order₂) (start seq v)

/-- The sequence number does not come back to a value during the lookups. -/
def NoWrap (s : Seqlock) : Prop := ∀ a ∈ s.copyTicks, ∀ b ∈ s.copyTicks, b < a + 2 ^ 64

instance decidableNoWrap (s : Seqlock) : Decidable s.NoWrap := inferInstanceAs (Decidable (∀ _ ∈ _, _))

instance decidableBothRead (s : Seqlock) : Decidable (s.BothRead order₁ order₂) := inferInstanceAs (Decidable (_ = _))

end Seqlock

/-- A lookup copies every field once. -/
structure LookupOrder (order : List CounterField) : Prop where
  nodup : order.Nodup
  mem : ∀ f : CounterField, f ∈ order

/-- Every other field is copied after the sequence number by the first lookup or before it by the second. -/
def Enclosed (order₁ order₂ : List CounterField) : Prop :=
  ∀ f : CounterField, f ≠ .seq → order₁.idxOf .seq < order₁.idxOf f ∨ order₂.idxOf f < order₂.idxOf .seq

/-- So it is if both lookups copy in one order. -/
theorem LookupOrder.enclosed {order : List CounterField} (h : LookupOrder order) : Enclosed order order := by
  intro f hf
  rcases Nat.lt_trichotomy (order.idxOf .seq) (order.idxOf f) with hlt | heq | hlt
  · exact .inl hlt
  · exact absurd ((List.idxOf_inj (h.mem f)).1 heq.symm) hf
  · exact .inr hlt

/-! ### Fields -/

namespace CounterField

variable {a b c : FastCounterValue} {f g : CounterField}

theorem same_copy (source dest : FastCounterValue) (f : CounterField) : f.Same (f.copy source dest) source := by
  cases f <;> rfl

theorem same_copy_of_ne (source dest : FastCounterValue) (h : f ≠ g) : f.Same (g.copy source dest) dest := by
  cases f <;> cases g <;> first | exact absurd rfl h | rfl

theorem Same.trans (h : f.Same a b) (h' : f.Same b c) : f.Same a c := by
  cases f <;> exact Eq.trans h h'

theorem Same.refl (f : CounterField) (a : FastCounterValue) : f.Same a a := by cases f <;> rfl

theorem eq_of_same (h : ∀ f : CounterField, f.Same a b) : a = b :=
  FastCounterValue.ext (h abiVersion) (h resetGeneration) (h seq) (h bytes) (h packets) (h lastSeenNs)

end CounterField

/-! ### Invariant -/

variable {order₁ order₂ : List CounterField} {seq₀ : BitVec 64}

/-- The number after so many changes. -/
def seqAt (seq₀ : BitVec 64) (t : Nat) : BitVec 64 := seq₀ + BitVec.ofNat 64 t

theorem seqAt_succ (seq₀ : BitVec 64) (t : Nat) : seqAt seq₀ (t + 1) = seqAt seq₀ t + 1 := by
  unfold seqAt
  rw [BitVec.ofNat_add, BitVec.add_assoc]
  rfl

theorem seqAt_inj {a b : Nat} (h : seqAt seq₀ a = seqAt seq₀ b) (hab : a ≤ b) (hlt : b < a + 2 ^ 64) : a = b := by
  unfold seqAt at h
  rw [BitVec.add_right_inj, ← BitVec.toNat_inj, BitVec.toNat_ofNat, BitVec.toNat_ofNat] at h
  omega

theorem even_of_seqAt {t : Nat} (h₀ : seq₀ &&& 1 = 0) (h : seqAt seq₀ t &&& 1 = 0) : Even t := by
  have h₀' := congrArg BitVec.toNat h₀
  have h' := congrArg BitVec.toNat h
  rw [seqAt] at h'
  simp only [BitVec.toNat_and, BitVec.toNat_add, BitVec.toNat_ofNat, BitVec.ofNat_eq_ofNat] at h₀' h'
  rw [Nat.mod_eq_of_lt (by decide : 1 < 2 ^ 64), Nat.zero_mod, Nat.and_one_is_mod] at h₀' h'
  rw [Nat.even_iff]
  omega

/-- A copy of field `f` made after `t` changes. Between two writes it is that of the version published last. -/
def CopiedAt (seq₀ : BitVec 64) (published : List CounterVersion) (t : Nat) (f : CounterField) (copy : FastCounterValue) :
    Prop :=
  ∃ v, published[t / 2]? = some v ∧ (f = .seq ∨ Even t → f.Same copy (v.value (seqAt seq₀ t)))

structure SeqlockInv (seq₀ : BitVec 64) (order₁ order₂ : List CounterField) (s : Seqlock) : Prop where
  seq : s.mem.seq = seqAt seq₀ s.ticks
  abi : s.mem.abiVersion = fastCounterAbiVersion
  length : s.published.length = s.ticks / 2 + 1
  even_iff : Even s.ticks ↔ s.writing = none
  current : s.writing = none → s.published.getLast? = some s.mem.version
  ordered : s.copyTicks.Pairwise (· ≤ ·)
  bounded : ∀ t ∈ s.copyTicks, t ≤ s.ticks
  complete : s.copyTicks.length ≤ order₁.length + order₂.length
  first : ∀ (k : Nat) (f : CounterField) (t : Nat), order₁[k]? = some f → s.copyTicks[k]? = some t → CopiedAt seq₀ s.published t f s.first
  second : ∀ (k : Nat) (f : CounterField) (t : Nat), order₂[k]? = some f → s.copyTicks[order₁.length + k]? = some t →
    CopiedAt seq₀ s.published t f s.second

theorem CopiedAt.append {published : List CounterVersion} {t : Nat} {f : CounterField} {copy : FastCounterValue}
    (h : CopiedAt seq₀ published t f copy) (v : CounterVersion) : CopiedAt seq₀ (published ++ [v]) t f copy := by
  obtain ⟨v', hv', hsame⟩ := h
  exact ⟨v', by rw [List.getElem?_append_left (List.getElem?_eq_some_iff.1 hv').1, hv'], hsame⟩

namespace SeqlockInv

variable {s : Seqlock}

theorem start (seq₀ : BitVec 64) (v : CounterVersion) : SeqlockInv seq₀ order₁ order₂ (.start seq₀ v) where
  seq := by simp [Seqlock.start, CounterVersion.value, seqAt]
  abi := rfl
  length := by simp [Seqlock.start]
  even_iff := by simp [Seqlock.start]
  current _ := rfl
  ordered := .nil
  bounded _ ht := by cases ht
  complete := Nat.zero_le _
  first _ _ _ _ ht := by simp [Seqlock.start] at ht
  second _ _ _ _ ht := by simp [Seqlock.start] at ht

/-- What a copy finds in memory. -/
theorem copied (h : SeqlockInv seq₀ order₁ order₂ s) (f : CounterField) (dest : FastCounterValue) :
    CopiedAt seq₀ s.published s.ticks f (f.copy s.mem dest) := by
  have hlt : s.ticks / 2 < s.published.length := by
    rw [h.length]
    omega
  refine ⟨s.published[s.ticks / 2], List.getElem?_eq_getElem hlt, fun hf => ?_⟩
  refine (CounterField.same_copy s.mem dest f).trans ?_
  rcases hf with rfl | heven
  · exact h.seq
  · have hcurrent := h.current (h.even_iff.1 heven)
    rw [List.getLast?_eq_getElem?, h.length, Nat.add_sub_cancel, List.getElem?_eq_getElem hlt,
      Option.some.injEq] at hcurrent
    have hmem : s.mem = (s.published[s.ticks / 2]).value (seqAt seq₀ s.ticks) := by
      rw [hcurrent, ← h.seq]
      exact FastCounterValue.ext h.abi rfl rfl rfl rfl rfl
    rw [← hmem]
    exact .refl f s.mem

theorem copyNext (h : SeqlockInv seq₀ order₁ order₂ s) (h₁ : order₁.Nodup) (h₂ : order₂.Nodup) :
    SeqlockInv seq₀ order₁ order₂ (s.copyNext order₁ order₂) := by
  unfold Seqlock.copyNext
  dsimp only
  cases hf : (order₁ ++ order₂)[s.copyTicks.length]? with
  | none => exact h
  | some f =>
    dsimp only
    have hlt : s.copyTicks.length < order₁.length + order₂.length := by
      have := (List.getElem?_eq_some_iff.1 hf).1
      rwa [List.length_append] at this
    have hordered : (s.copyTicks ++ [s.ticks]).Pairwise (· ≤ ·) := by
      refine List.pairwise_append.2 ⟨h.ordered, List.pairwise_singleton .., fun a ha b hb => ?_⟩
      rw [List.mem_singleton.1 hb]
      exact h.bounded a ha
    have hbounded : ∀ t ∈ s.copyTicks ++ [s.ticks], t ≤ s.ticks := by
      intro t ht
      rcases List.mem_append.1 ht with ht | ht
      · exact h.bounded t ht
      · rw [List.mem_singleton.1 ht]
    have hcomplete : (s.copyTicks ++ [s.ticks]).length ≤ order₁.length + order₂.length := by
      rw [List.length_append, List.length_singleton]
      exact hlt
    -- a copy other than the new one
    have hold : ∀ {k t}, (s.copyTicks ++ [s.ticks])[k]? = some t → k ≠ s.copyTicks.length →
        s.copyTicks[k]? = some t := by
      intro k t ht hne
      have hk := (List.getElem?_eq_some_iff.1 ht).1
      rw [List.length_append, List.length_singleton] at hk
      rwa [List.getElem?_append_left (by omega)] at ht
    have hnew : ∀ {k t}, (s.copyTicks ++ [s.ticks])[k]? = some t → k = s.copyTicks.length → t = s.ticks := by
      rintro k t ht rfl
      simpa using ht.symm
    by_cases hfirst : s.copyTicks.length < order₁.length
    · rw [if_pos hfirst]
      rw [List.getElem?_append_left hfirst] at hf
      refine ⟨h.seq, h.abi, h.length, h.even_iff, h.current, hordered, hbounded, hcomplete, ?_, ?_⟩
      · intro k g t hg ht
        by_cases hk : k = s.copyTicks.length
        · obtain rfl : g = f := by rw [hk, hf] at hg; exact (Option.some.inj hg).symm
          rw [hnew ht hk]
          exact h.copied g s.first
        · obtain ⟨v, hv, hsame⟩ := h.first k g t hg (hold ht hk)
          have hne : g ≠ f := by
            rintro rfl
            exact hk ((List.getElem?_inj (List.getElem?_eq_some_iff.1 hg).1 h₁).1 (hg.trans hf.symm))
          exact ⟨v, hv, fun hst => (CounterField.same_copy_of_ne s.mem s.first hne).trans (hsame hst)⟩
      · intro k g t hg ht
        have hk := (List.getElem?_eq_some_iff.1 ht).1
        rw [List.length_append, List.length_singleton] at hk
        omega
    · rw [if_neg hfirst]
      rw [List.getElem?_append_right (Nat.le_of_not_lt hfirst)] at hf
      refine ⟨h.seq, h.abi, h.length, h.even_iff, h.current, hordered, hbounded, hcomplete, ?_, ?_⟩
      · intro k g t hg ht
        have hk := (List.getElem?_eq_some_iff.1 hg).1
        exact h.first k g t hg (hold ht (by omega))
      · intro k g t hg ht
        by_cases hk : order₁.length + k = s.copyTicks.length
        · obtain rfl : g = f := by
            rw [← hk, Nat.add_sub_cancel_left, hg] at hf
            exact Option.some.inj hf
          rw [hnew ht hk]
          exact h.copied g s.second
        · obtain ⟨v, hv, hsame⟩ := h.second k g t hg (hold ht hk)
          have hne : g ≠ f := by
            rintro rfl
            have := (List.getElem?_inj (List.getElem?_eq_some_iff.1 hg).1 h₂).1 (hg.trans hf.symm)
            omega
          exact ⟨v, hv, fun hst => (CounterField.same_copy_of_ne s.mem s.second hne).trans (hsame hst)⟩

theorem step (h : SeqlockInv seq₀ order₁ order₂ s) (h₁ : order₁.Nodup) (h₂ : order₂.Nodup) (a : SeqlockStep) :
    SeqlockInv seq₀ order₁ order₂ (s.step order₁ order₂ a) := by
  cases a with
  | beginWrite v =>
    unfold Seqlock.step
    dsimp only
    cases hw : s.writing with
    | some _ => exact h
    | none =>
      have heven := h.even_iff.2 hw
      obtain ⟨n, hn⟩ := heven
      have hlen := h.length
      refine ⟨?_, h.abi, ?_, ?_, nofun, h.ordered, fun t ht => (h.bounded t ht).trans (Nat.le_succ _), h.complete,
        h.first, h.second⟩
      · show s.mem.seq + 1 = _
        rw [h.seq, seqAt_succ]
      · show s.published.length = (s.ticks + 1) / 2 + 1
        omega
      · refine iff_of_false ?_ (Option.some_ne_none v)
        rw [Nat.even_add_one, not_not]
        exact ⟨n, hn⟩
  | writeField f =>
    unfold Seqlock.step
    dsimp only
    cases hw : s.writing with
    | none => exact h
    | some v =>
      dsimp only
      refine ⟨?_, ?_, h.length, ?_, fun hn => ?_, h.ordered, h.bounded, h.complete, h.first, h.second⟩
      · rw [← h.seq]
        cases f <;> rfl
      · rw [← h.abi]
        cases f <;> rfl
      · rw [h.even_iff, hw]
      · cases hn
  | endWrite =>
    unfold Seqlock.step
    dsimp only
    cases hw : s.writing with
    | none => exact h
    | some v =>
      dsimp only
      split
      · next hversion =>
        have hodd : ¬ Even s.ticks := by
          rw [h.even_iff, hw]
          exact Option.some_ne_none v
        rw [Nat.not_even_iff] at hodd
        refine ⟨?_, h.abi, ?_, ?_, fun _ => ?_, h.ordered, fun t ht => (h.bounded t ht).trans (Nat.le_succ _), h.complete,
          fun k f t hf ht => (h.first k f t hf ht).append v, fun k f t hf ht => (h.second k f t hf ht).append v⟩
        · show s.mem.seq + 1 = _
          rw [h.seq, seqAt_succ]
        · rw [List.length_append, List.length_singleton, h.length]
          show s.ticks / 2 + 1 + 1 = (s.ticks + 1) / 2 + 1
          omega
        · refine iff_of_true ?_ rfl
          rw [Nat.even_iff]
          show (s.ticks + 1) % 2 = 0
          omega
        · rw [List.getLast?_concat, ← hversion]
          rfl
      · exact h
  | copyField => exact h.copyNext h₁ h₂

theorem run (h₁ : LookupOrder order₁) (h₂ : LookupOrder order₂) (seq₀ : BitVec 64) (v : CounterVersion)
    (steps : List SeqlockStep) : SeqlockInv seq₀ order₁ order₂ (Seqlock.run order₁ order₂ seq₀ v steps) :=
  @Run.invariant _ _ _ _ (fun _ s => SeqlockInv seq₀ order₁ order₂ s)
    (fun _ _ a hs => hs.step h₁.nodup h₂.nodup a) [] (start seq₀ v) steps

/-- Between two copies with one count every copy has that count. -/
theorem tick_eq (h : SeqlockInv seq₀ order₁ order₂ s) {i j k t : Nat} (hij : i ≤ j) (hjk : j ≤ k)
    (hi : s.copyTicks[i]? = some t) (hk : s.copyTicks[k]? = some t) : s.copyTicks[j]? = some t := by
  obtain ⟨hilt, hi⟩ := List.getElem?_eq_some_iff.1 hi
  obtain ⟨hklt, hk⟩ := List.getElem?_eq_some_iff.1 hk
  have hsorted := List.pairwise_iff_getElem.1 h.ordered
  have hle : ∀ {a b : Nat} (hb : b < s.copyTicks.length) (hab : a ≤ b),
      s.copyTicks.get ⟨a, hab.trans_lt hb⟩ ≤ s.copyTicks.get ⟨b, hb⟩ := by
    intro a b hb hab
    rcases hab.eq_or_lt with rfl | hlt
    · exact le_rfl
    · exact hsorted a b _ hb hlt
  have h1 := hle (hjk.trans_lt hklt) hij
  have h2 := hle hklt hjk
  rw [List.get_eq_getElem, List.get_eq_getElem, hi] at h1
  rw [List.get_eq_getElem, List.get_eq_getElem, hk] at h2
  exact List.getElem?_eq_some_iff.2 ⟨hjk.trans_lt hklt, le_antisymm h2 h1⟩

/-- Two equal copies with an even number are one published version, if every field was copied between the two copies
of the number. -/
theorem published_of_stable (h : SeqlockInv seq₀ order₁ order₂ s) (h₁ : LookupOrder order₁) (h₂ : LookupOrder order₂)
    (henclosed : Enclosed order₁ order₂) (heven : seq₀ &&& 1 = 0) (hread : s.BothRead order₁ order₂)
    (hwrap : s.NoWrap) (hsame : s.first = s.second) (hseq : s.first.seq &&& 1 = 0) : s.second.version ∈ s.published := by
  have hidx : ∀ {order : List CounterField} (_ : LookupOrder order) (f : CounterField),
      order.idxOf f < order.length ∧ order[order.idxOf f]? = some f := fun ho f =>
    ⟨List.idxOf_lt_length_iff.2 (ho.mem f), List.getElem?_idxOf (ho.mem f)⟩
  have htick : ∀ k, k < order₁.length + order₂.length → ∃ t, s.copyTicks[k]? = some t := fun k hk =>
    ⟨_, List.getElem?_eq_getElem (hread.symm ▸ hk)⟩
  obtain ⟨hlt₁, hget₁⟩ := hidx h₁ .seq
  obtain ⟨hlt₂, hget₂⟩ := hidx h₂ .seq
  obtain ⟨t, ht⟩ := htick (order₁.idxOf .seq) (by omega)
  obtain ⟨t', ht'⟩ := htick (order₁.length + order₂.idxOf .seq) (by omega)
  obtain ⟨version, hversion, hfirst⟩ := h.first _ _ _ hget₁ ht
  obtain ⟨_, -, hsecond⟩ := h.second _ _ _ hget₂ ht'
  have hseq₁ : s.first.seq = seqAt seq₀ t := hfirst (.inl rfl)
  have hseq₂ : s.second.seq = seqAt seq₀ t' := hsecond (.inl rfl)
  -- the number has not changed between its two copies
  have hle : t ≤ t' := by
    obtain ⟨hi, hti⟩ := List.getElem?_eq_some_iff.1 ht
    obtain ⟨hj, htj⟩ := List.getElem?_eq_some_iff.1 ht'
    rw [← hti, ← htj]
    exact List.pairwise_iff_getElem.1 h.ordered _ _ hi hj (by omega)
  obtain rfl : t = t' := by
    refine @seqAt_inj seq₀ t t' ?_ hle (hwrap _ (List.mem_of_getElem? ht) _ (List.mem_of_getElem? ht'))
    rw [← hseq₁, ← hseq₂, hsame]
  have heven' : Even t := even_of_seqAt heven (hseq₁ ▸ hseq)
  have hcopied : ∀ {f : CounterField} {copy : FastCounterValue}, CopiedAt seq₀ s.published t f copy →
      f.Same copy (version.value (seqAt seq₀ t)) := by
    rintro f copy ⟨version', hversion', hsame'⟩
    rw [hversion] at hversion'
    rw [Option.some.inj hversion']
    exact hsame' (.inr heven')
  have hvalue : s.second = version.value (seqAt seq₀ t) := by
    refine CounterField.eq_of_same fun f => ?_
    by_cases hf : f = .seq
    · rw [hf]
      exact hseq₂
    obtain ⟨hf₁, hgetf₁⟩ := hidx h₁ f
    obtain ⟨hf₂, hgetf₂⟩ := hidx h₂ f
    rcases henclosed f hf with hafter | hbefore
    · rw [← hsame]
      exact hcopied (h.first _ _ _ hgetf₁ (h.tick_eq hafter.le (by omega) ht ht'))
    · exact hcopied (h.second _ _ _ hgetf₂ (h.tick_eq (by omega) (by omega) ht ht'))
  rw [hvalue]
  exact List.mem_of_getElem? hversion

end SeqlockInv

/-- Whatever the order of the steps, a pair that is accepted is one published version; a stable read takes at most
two lookups for each attempt; and both readers report every new generation once and before its values. -/
theorem fastCounter_stable (h₁ : LookupOrder order₁) (h₂ : LookupOrder order₂) (henclosed : Enclosed order₁ order₂)
    (heven : seq₀ &&& 1 = 0) (v : CounterVersion) (steps : List SeqlockStep)
    (hread : (Seqlock.run order₁ order₂ seq₀ v steps).BothRead order₁ order₂)
    (hwrap : (Seqlock.run order₁ order₂ seq₀ v steps).NoWrap) :
    (∀ value, let s := Seqlock.run order₁ order₂ seq₀ v steps
        validateStablePair s.first s.second = .ok value → value.version ∈ s.published) ∧
      (∀ (σ ε : Type) (read : σ → Except ε FastCounterValue × σ) (attempts : Nat) (s : σ),
        ∃ k ≤ 2 * max attempts 1, (readStable attempts read s).2 = afterReads read k s) ∧
      ReportsResets FastNReader.read ⟨none⟩
        (fun input => (validateStablePair input.1 input.2).toOption.map (·.resetGeneration))
        GenerationReport.ofFastN ∧
      ReportsResets FastSReader.read ⟨none⟩
        (fun input => (aggregatePerCpu input.1 input.2).toOption.map (·.resetGeneration)) GenerationReport.ofFastS := by
  refine ⟨fun value => ?_, fun _ _ read attempts s => ?_, fastN_tracks.reportsResets rfl, fastS_tracks.reportsResets rfl⟩
  · intro s hok
    obtain ⟨rfl, hsame, hseq⟩ := validateStablePair_ok hok
    exact (SeqlockInv.run h₁ h₂ seq₀ v steps).published_of_stable h₁ h₂ henclosed heven hread hwrap hsame hseq
  · exact readStableLoop_reads read (max attempts 1) (max attempts 1) none s

/-- The fields as they lie in the structure. -/
def fieldOrder : List CounterField := [.abiVersion, .resetGeneration, .seq, .bytes, .packets, .lastSeenNs]

theorem fieldOrder_lookupOrder : LookupOrder fieldOrder := ⟨by decide, fun f => by cases f <;> decide⟩

/-- Both lookups between two writes. -/
def undisturbed : List SeqlockStep :=
  [.beginWrite ⟨0, 20, 2, 8⟩, .writeField .bytes, .writeField .packets, .writeField .lastSeenNs, .endWrite] ++
    .replicate 12 .copyField

theorem fastCounter_stable_undisturbed :
    let s := Seqlock.run fieldOrder fieldOrder 0 ⟨0, 10, 1, 7⟩ undisturbed
    validateStablePair s.first s.second = .ok ⟨1, 0, 2, 20, 2, 8⟩ ∧ (⟨0, 20, 2, 8⟩ : CounterVersion) ∈ s.published :=
  ⟨by decide, (@fastCounter_stable fieldOrder fieldOrder 0 fieldOrder_lookupOrder fieldOrder_lookupOrder
    fieldOrder_lookupOrder.enclosed (by decide) ⟨0, 10, 1, 7⟩ undisturbed (by decide) (by decide)).1
      ⟨1, 0, 2, 20, 2, 8⟩ (by decide)⟩

/-- The lookups of `fastCounter_torn`: the bytes before the sequence number, and after it. -/
def bytesFirst : List CounterField := [.abiVersion, .resetGeneration, .bytes, .seq, .packets, .lastSeenNs]

def bytesLast : List CounterField := [.abiVersion, .resetGeneration, .seq, .packets, .lastSeenNs, .bytes]

/-- The write of a version, field by field. -/
def writeVersion (v : CounterVersion) : List SeqlockStep :=
  [.beginWrite v, .writeField .resetGeneration, .writeField .bytes, .writeField .packets, .writeField .lastSeenNs,
    .endWrite]

/-- One write between the bytes and the number of the first lookup, and one that restores the bytes before those of the
second are copied. -/
def tornTwice : List SeqlockStep :=
  .replicate 3 .copyField ++ writeVersion ⟨0, 20, 2, 8⟩ ++ .replicate 8 .copyField ++ writeVersion ⟨0, 10, 3, 9⟩ ++
    [.copyField]

/-- Lookups that copy in different orders let a torn value pass. -/
theorem fastCounter_torn :
    ¬ ∀ (order₁ order₂ : List CounterField), LookupOrder order₁ → LookupOrder order₂ →
      ∀ (seq₀ : BitVec 64), seq₀ &&& 1 = 0 → ∀ (v : CounterVersion) (steps : List SeqlockStep),
      let s := Seqlock.run order₁ order₂ seq₀ v steps
      s.BothRead order₁ order₂ → s.NoWrap → ∀ value, validateStablePair s.first s.second = .ok value →
        value.version ∈ s.published := by
  intro h
  have htorn := h bytesFirst bytesLast ⟨by decide, fun f => by cases f <;> decide⟩
    ⟨by decide, fun f => by cases f <;> decide⟩ 0 (by decide) ⟨0, 10, 1, 7⟩ tornTwice (by decide) (by decide)
    ⟨1, 0, 2, 10, 2, 8⟩ (by decide)
  exact absurd htorn (by decide)

end Lanspeedd
