import DOpenWrt.Lib.Run
import DOpenWrt.Lanspeedd.RateMux

/-!
# Runs of the source selector

What one call of `update` can do (`update_outcome`), and the invariant that ties the owner, the held candidate, the
challenger and the failure counter to the calls so far (`MuxOk`).
-/

namespace Lanspeedd

inductive MuxOp
  | update (nowMs attachmentGeneration : ℕ) (candidates : List RateCandidate) (failure : Option MuxFailure)
  | invalidateEdge (attachmentGeneration : ℕ)
  deriving DecidableEq

def MuxOp.candidates : MuxOp → List RateCandidate
  | update _ _ candidates _ => candidates
  | invalidateEdge _ => []

namespace RateCandidate

variable {c : RateCandidate} {gen now : ℕ}

theorem le_of_usable (h : c.isUsableFor gen now) : c.sampleMs ≤ now := by
  simp only [isUsableFor, Bool.and_eq_true, decide_eq_true_eq] at h
  exact h.1.1.1.2

theorem generation_of_usable (h : c.isUsableFor gen now) : c.attachmentGeneration = gen := by
  simp only [isUsableFor, Bool.and_eq_true, decide_eq_true_eq] at h
  exact h.1.1.1.1.1.1.2

theorem two_mul_freshnessMs_le (c : RateCandidate) : 2 * c.freshnessMs ≤ 5 * c.cadenceMs := by
  have h : min (c.cadenceMs * 5) u64Max ≤ c.cadenceMs * 5 := min_le_left _ _
  rw [freshnessMs]
  omega

theorem age_of_usable (h : c.isUsableFor gen now) : 2 * (now - c.sampleMs) ≤ 5 * c.cadenceMs := by
  simp only [isUsableFor, Bool.and_eq_true, decide_eq_true_eq] at h
  have := two_mul_freshnessMs_le c
  omega

theorem le_of_not_expired (h : c.expiredAt now = false) :
    c.sampleMs ≤ now ∧ 2 * (now - c.sampleMs) ≤ 5 * c.cadenceMs := by
  simp only [expiredAt, Bool.or_eq_false_iff, decide_eq_false_iff_not] at h
  have := two_mul_freshnessMs_le c
  omega

end RateCandidate

namespace DirectionRateMux

variable {mux e : DirectionRateMux} {now gen : ℕ} {cands : List RateCandidate} {failure : Option MuxFailure}
  {b : RateCandidate} {ch : Option Challenger}

/-! ### One call -/

def step (mux : DirectionRateMux) : MuxOp → DirectionRateMux
  | .update now gen cands failure => (mux.update now gen cands failure).1
  | .invalidateEdge gen => mux.invalidateEdge gen

def run (ops : List MuxOp) : DirectionRateMux := ops.foldl step new

theorem run_concat (ops : List MuxOp) (op : MuxOp) : run (ops ++ [op]) = (run ops).step op := by
  simp only [run, List.foldl_append, List.foldl_cons, List.foldl_nil]

theorem mem_of_best (h : DirectionRateMux.best cands gen now = some b) : b ∈ cands ∧ b.isUsableFor gen now :=
  List.mem_filter.1 (List.argmin_mem h)

theorem ownerCandidate_eq_some {c : RateCandidate} (h : mux.ownerCandidate cands gen now = some c) :
    c ∈ cands ∧ mux.owner = some c.source ∧ c.isUsableFor gen now := by
  obtain ⟨o, ho, hc⟩ := Option.bind_eq_some_iff.1 h
  have hp := List.find?_some hc
  simp only [Bool.and_eq_true, decide_eq_true_eq] at hp
  exact ⟨List.mem_of_find?_eq_some hc, by rw [ho, hp.1], hp.2⟩

/-- A usable candidate of the owner is found, so a best candidate is another source's where none is. -/
theorem owner_ne_of_ownerCandidate (h : mux.ownerCandidate cands gen now = none)
    (hb : DirectionRateMux.best cands gen now = some b) : mux.owner ≠ some b.source := by
  intro ho
  obtain ⟨hmem, huse⟩ := mem_of_best hb
  rw [ownerCandidate, ho, Option.bind_some, List.find?_eq_none] at h
  exact h b hmem (by simp [huse])

/-- What is stored as the challenger after a call that does not promote. -/
def Recorded (e : DirectionRateMux) (found : Option RateCandidate) (ch : Option Challenger) : Prop :=
  ch = none ∨ ∃ b, found = some b ∧ ch = some (e.nextChallenger b) ∧ (e.nextChallenger b).count < promotionWindows

/-- What `update` can do after the generation check has led to `e`. -/
inductive Outcome (e : DirectionRateMux) (now gen : ℕ) (cands : List RateCandidate) (failure : Option MuxFailure) :
    DirectionRateMux × MuxResult → Prop
  | demote : Outcome e now gen cands failure (e.hardDemote, e.hardDemote.result .unavailable none)
  | keep (c : RateCandidate) (ch : Option Challenger) (hf : failure = none)
      (hc : e.ownerCandidate cands gen now = some c) (hch : Recorded e (best cands gen now) ch) :
      Outcome e now gen cands failure
        (⟨e.owner, e.attachmentGeneration, ch, 0, e.transitionSeq, some c⟩,
          ⟨.available, some ⟨c, false, e.transitionSeq⟩, e.owner, e.transitionSeq, 0⟩)
  | promote (b : RateCandidate) (hf : failure = none) (hb : best cands gen now = some b)
      (hcount : promotionWindows ≤ (e.nextChallenger b).count) (howner : e.owner ≠ some b.source) :
      Outcome e now gen cands failure
        (⟨some b.source, some gen, none, 0, saturatingAdd e.transitionSeq 1, some b⟩,
          ⟨.available, some ⟨b, false, saturatingAdd e.transitionSeq 1⟩, some b.source,
            saturatingAdd e.transitionSeq 1, 0⟩)
  | hold (ch : Option Challenger) (hf : failure = none) (howner : e.owner.isSome) (hfail : e.consecutiveFailures = 0)
      (hexp : ∀ c, e.lastSelected = some c → c.expiredAt now = false) (hch : Recorded e (best cands gen now) ch) :
      Outcome e now gen cands failure
        (⟨e.owner, e.attachmentGeneration, ch, 1, e.transitionSeq, e.lastSelected⟩,
          ⟨.stale, e.lastSelected.map fun c => ⟨c, true, e.transitionSeq⟩, e.owner, e.transitionSeq, 1⟩)
  | idle (ch : Option Challenger) (hf : failure = none) (howner : e.owner = none)
      (hch : Recorded e (best cands gen now) ch) (st : MuxState) (hst : st = .unavailable → ch = none) :
      Outcome e now gen cands failure ({ e with challenger := ch }, { e with challenger := ch }.result st none)

theorem recordChallenger_of_lt (h : ¬ (e.nextChallenger b).count ≥ promotionWindows) :
    Recorded e (some b) (some (e.nextChallenger b)) :=
  Or.inr ⟨b, rfl, rfl, not_le.1 h⟩

/-- A promotion from a state that differs from `e` in nothing it keeps. -/
theorem promote_outcome (howner : mux.owner = e.owner) (hseq : mux.transitionSeq = e.transitionSeq)
    (hb : best cands gen now = some b) (hcount : promotionWindows ≤ (e.nextChallenger b).count)
    (hne : e.owner ≠ some b.source) : Outcome e now gen cands none (mux.promote b) := by
  have heq : mux.promote b =
      (⟨some b.source, some gen, none, 0, saturatingAdd e.transitionSeq 1, some b⟩,
        ⟨.available, some ⟨b, false, saturatingAdd e.transitionSeq 1⟩, some b.source,
          saturatingAdd e.transitionSeq 1, 0⟩) := by
    simp only [promote, howner, if_pos hne, hseq, RateCandidate.generation_of_usable (mem_of_best hb).2, result]
  rw [heq]
  exact Outcome.promote b rfl hb hcount hne

theorem updateOwned_outcome {c : RateCandidate} (hc : e.ownerCandidate cands gen now = some c) :
    Outcome e now gen cands none (e.updateOwned c (best cands gen now)) := by
  obtain ⟨hmem, howner, -⟩ := ownerCandidate_eq_some hc
  cases hb : best cands gen now with
  | none => exact Outcome.keep c none rfl hc (Or.inl rfl)
  | some b =>
    simp only [updateOwned]
    split
    next hlt =>
      split
      next hcount =>
        have hne : e.owner ≠ some b.source := by
          rw [howner]
          intro h
          rw [Option.some.inj h] at hlt
          exact lt_irrefl _ hlt
        exact promote_outcome rfl rfl hb (of_decide_eq_true hcount) hne
      next hcount =>
        refine Outcome.keep c _ rfl hc ?_
        rw [hb]
        exact recordChallenger_of_lt fun h => hcount (decide_eq_true h)
    next => exact Outcome.keep c none rfl hc (Or.inl rfl)

theorem updateFailing_outcome (howner : e.owner.isSome) (hc : e.ownerCandidate cands gen now = none) :
    Outcome e now gen cands none (e.updateFailing now (best cands gen now)) := by
  simp only [updateFailing]
  split
  next => exact Outcome.demote
  next hexp =>
    have hexp' : ∀ c, e.lastSelected = some c → c.expiredAt now = false := by
      intro c h
      rw [h] at hexp
      exact eq_false_of_ne_true hexp
    -- a first failure holds the selection, any other demotes
    have hhold : ∀ ch, Recorded e (best cands gen now) ch →
        Outcome e now gen cands none
          (if saturatingAddU8 e.consecutiveFailures 1 < softFailureWindows then
            (⟨e.owner, e.attachmentGeneration, ch, saturatingAddU8 e.consecutiveFailures 1, e.transitionSeq,
                e.lastSelected⟩,
              ⟨.stale, e.lastSelected.map fun c => ⟨c, true, e.transitionSeq⟩, e.owner, e.transitionSeq,
                saturatingAddU8 e.consecutiveFailures 1⟩)
          else (e.hardDemote, e.hardDemote.result .unavailable none)) := by
      intro ch hch
      split
      next hlt =>
        have h0 : e.consecutiveFailures = 0 := by
          simp only [saturatingAddU8, softFailureWindows] at hlt
          omega
        rw [h0]
        exact Outcome.hold ch rfl howner h0 hexp' hch
      next => exact Outcome.demote
    cases hb : best cands gen now with
    | none => exact hhold none (Or.inl rfl)
    | some b =>
      simp only
      split
      next hcount =>
        exact promote_outcome rfl rfl hb (of_decide_eq_true hcount) (owner_ne_of_ownerCandidate hc hb)
      next hcount =>
        refine hhold _ ?_
        rw [hb]
        exact recordChallenger_of_lt fun h => hcount (decide_eq_true h)

theorem updateUnowned_outcome (howner : e.owner = none) :
    Outcome e now gen cands none (e.updateUnowned (best cands gen now)) := by
  cases hb : best cands gen now with
  | none => exact Outcome.idle none rfl howner (Or.inl rfl) .unavailable fun _ => rfl
  | some b =>
    simp only [updateUnowned]
    split
    next hcount =>
      exact promote_outcome rfl rfl hb (of_decide_eq_true hcount) (by rw [howner]; nofun)
    next hcount =>
      refine Outcome.idle _ rfl howner ?_ .warmup nofun
      rw [hb]
      exact recordChallenger_of_lt fun h => hcount (decide_eq_true h)

theorem update_outcome (mux : DirectionRateMux) (now gen : ℕ) (cands : List RateCandidate)
    (failure : Option MuxFailure) :
    Outcome (mux.enter gen) now gen cands failure (mux.update now gen cands failure) := by
  cases failure with
  | some f => exact Outcome.demote
  | none =>
    simp only [update, Option.isSome_none, Bool.false_eq_true, if_false]
    cases hc : (mux.enter gen).ownerCandidate cands gen now with
    | some c => exact updateOwned_outcome hc
    | none =>
      simp only
      split
      next howner => exact updateFailing_outcome howner hc
      next howner => exact updateUnowned_outcome (Option.not_isSome_iff_eq_none.1 howner)

/-! ### The history of a challenger -/

/-- `ch` stays the challenger over the call. -/
def Waits (ch : Challenger) (mux : DirectionRateMux) : MuxOp → Prop
  | .update now gen cands failure =>
    gen = ch.generation ∧ failure = none ∧ (∃ b, best cands gen now = some b ∧ b.source = ch.source) ∧
      (mux.update now gen cands failure).1.challenger = some ch ∧
      (mux.update now gen cands failure).1.owner = mux.owner
  | .invalidateEdge gen =>
    gen = ch.generation ∧ ch.source.isEdge = false ∧ (mux.invalidateEdge gen).challenger = some ch

/-- `ch` was recorded as the best usable candidate of an update, and has waited since. -/
def ChallengerSince (pre : List MuxOp) (ch : Challenger) : Prop :=
  ∃ early now cands mid b, pre = early ++ MuxOp.update now ch.generation cands none :: mid ∧
    best cands ch.generation now = some b ∧ b.source = ch.source ∧ b.sampleMs = ch.sampleMs ∧
    (run (early ++ [MuxOp.update now ch.generation cands none])).challenger = some ch ∧
    Run.Meets step (Waits ch) (run (early ++ [MuxOp.update now ch.generation cands none])) mid

/-- The last update of `pre` had the usable candidate `c`. -/
def LastUpdateHas (pre : List MuxOp) (c : RateCandidate) : Prop :=
  ∃ early now gen cands mid, pre = early ++ MuxOp.update now gen cands none :: mid ∧
    (∀ op ∈ mid, ∃ g, op = MuxOp.invalidateEdge g) ∧ c ∈ cands ∧ c.isUsableFor gen now

theorem run_append (as bs : List MuxOp) : run (as ++ bs) = bs.foldl step (run as) := List.foldl_append

theorem ChallengerSince.wait {pre : List MuxOp} {ch : Challenger} {op : MuxOp} (h : ChallengerSince pre ch)
    (hw : Waits ch (run pre) op) : ChallengerSince (pre ++ [op]) ch := by
  obtain ⟨early, now, cands, mid, b, rfl, hb, hs, hm, hch, hmeets⟩ := h
  refine ⟨early, now, cands, mid ++ [op], b, by simp, hb, hs, hm, hch, Run.meets_concat.2 ⟨hmeets, ?_⟩⟩
  rwa [← run_append, List.append_assoc]

theorem LastUpdateHas.invalidate {pre : List MuxOp} {c : RateCandidate} (h : LastUpdateHas pre c) (gen : ℕ) :
    LastUpdateHas (pre ++ [.invalidateEdge gen]) c := by
  obtain ⟨early, now, g, cands, mid, rfl, hmid, hmem, huse⟩ := h
  refine ⟨early, now, g, cands, mid ++ [.invalidateEdge gen], by simp, fun op hop => ?_, hmem, huse⟩
  rcases List.mem_append.1 hop with hop | hop
  · exact hmid op hop
  · exact ⟨gen, List.mem_singleton.1 hop⟩

/-! ### The invariant -/

structure MuxOk (pre : List MuxOp) (mux : DirectionRateMux) : Prop where
  owner_eq : mux.owner = mux.lastSelected.map (·.source)
  generation_eq : ∀ c, mux.lastSelected = some c → mux.attachmentGeneration = some c.attachmentGeneration
  seen : ∀ c, mux.lastSelected = some c → ∃ op ∈ pre, c ∈ op.candidates
  held : ∀ c, mux.lastSelected = some c → mux.consecutiveFailures = 0 → LastUpdateHas pre c
  waiting : ∀ ch, mux.challenger = some ch →
    mux.attachmentGeneration = some ch.generation ∧ ch.count = 1 ∧ ChallengerSince pre ch

/-- Without an owner and a challenger there is nothing to keep. -/
theorem MuxOk.of_cleared {pre : List MuxOp} (ho : mux.owner = none) (hl : mux.lastSelected = none)
    (hc : mux.challenger = none) : MuxOk pre mux where
  owner_eq := by rw [ho, hl, Option.map_none]
  generation_eq := by simp [hl]
  seen := by simp [hl]
  held := by simp [hl]
  waiting := by simp [hc]

/-- The generation check does nothing or clears everything. -/
theorem enter_cases {pre : List MuxOp} (h : MuxOk pre mux) (gen : ℕ) :
    mux.attachmentGeneration = some gen ∧ mux.enter gen = mux ∨
      (mux.enter gen).attachmentGeneration = some gen ∧ (mux.enter gen).owner = none ∧
        (mux.enter gen).lastSelected = none ∧ (mux.enter gen).challenger = none := by
  rcases hg : mux.attachmentGeneration with - | g
  · have hl : mux.lastSelected = none := by
      cases hl : mux.lastSelected with
      | none => rfl
      | some c => simpa [hg] using h.generation_eq c hl
    have hc : mux.challenger = none := by
      cases hc : mux.challenger with
      | none => rfl
      | some ch => simpa [hg] using (h.waiting ch hc).1
    have ho := h.owner_eq
    rw [hl, Option.map_none] at ho
    exact Or.inr (by simp [enter, hg, ho, hl, hc])
  · rcases eq_or_ne g gen with rfl | hne
    · refine Or.inl ⟨rfl, ?_⟩
      simp only [enter, hg, Option.any_some, ne_eq, not_true_eq_false, decide_false, Bool.false_eq_true, if_false]
      rw [← hg]
    · exact Or.inr (by simp [enter, hg, hne, hardDemote])

theorem nextChallenger_cases (h : ∀ old, e.challenger = some old → old.count = 1) (b : RateCandidate) :
    (∃ old, e.challenger = some old ∧ old.source = b.source ∧ old.generation = b.attachmentGeneration ∧
        (e.nextChallenger b = old ∨ old.sampleMs < b.sampleMs ∧ (e.nextChallenger b).count = promotionWindows)) ∨
      e.nextChallenger b = ⟨b.source, b.attachmentGeneration, b.sampleMs, 1⟩ := by
  unfold nextChallenger
  cases hc : e.challenger with
  | none => exact Or.inr rfl
  | some old =>
    simp only
    split
    next hsame =>
      left
      refine ⟨old, rfl, hsame.1, hsame.2, ?_⟩
      split
      next hlt => exact Or.inr ⟨hlt, by simp only [h old hc]; rfl⟩
      next => exact Or.inl (by rw [← hsame.1, ← hsame.2])
    next => exact Or.inr rfl

/-- A challenger that is stored without a promotion is new, or the old one that waits. -/
theorem since_of_recorded {pre : List MuxOp} (h : MuxOk pre (run pre))
    (hr : Recorded ((run pre).enter gen) (best cands gen now) ch)
    (hch : ((run pre).update now gen cands none).1.challenger = ch)
    (ho : ((run pre).update now gen cands none).1.owner = ((run pre).enter gen).owner) :
    ∀ c, ch = some c → gen = c.generation ∧ c.count = 1 ∧ ChallengerSince (pre ++ [.update now gen cands none]) c := by
  rintro c rfl
  rcases hr with hr | ⟨b, hb, hr, hlt⟩
  · cases hr
  · have hgen := RateCandidate.generation_of_usable (mem_of_best hb).2
    have hcount : ∀ old, ((run pre).enter gen).challenger = some old →
        (run pre).attachmentGeneration = some gen ∧ (run pre).enter gen = run pre ∧ old.count = 1 := by
      intro old hold
      rcases enter_cases h gen with ⟨hg, he⟩ | ⟨-, -, -, hnone⟩
      · rw [he] at hold
        exact ⟨hg, he, (h.waiting old hold).2.1⟩
      · rw [hnone] at hold
        cases hold
    rw [← Option.some.inj hr] at hlt
    rcases nextChallenger_cases (fun old ho => (hcount old ho).2.2) b with ⟨old, hold, hs, hg, heq | ⟨-, heq⟩⟩ | heq
    · obtain ⟨-, he, h1⟩ := hcount old hold
      have hc : c = old := (Option.some.inj hr).trans heq
      subst hc
      rw [he] at hold ho
      refine ⟨by rw [hg, hgen], h1, (h.waiting c hold).2.2.wait ⟨by rw [hg, hgen], rfl, ⟨b, hb, hs.symm⟩, hch, ho⟩⟩
    · rw [← Option.some.inj hr] at heq
      rw [heq] at hlt
      exact absurd hlt (lt_irrefl _)
    · have hc : c = ⟨b.source, b.attachmentGeneration, b.sampleMs, 1⟩ := (Option.some.inj hr).trans heq
      subst hc
      rw [hgen] at hch ⊢
      refine ⟨rfl, rfl, pre, now, cands, [], b, rfl, hb, rfl, rfl, ?_, trivial⟩
      rw [run_concat]
      exact hch

theorem LastUpdateHas.concat {pre : List MuxOp} {c : RateCandidate} (hc : c ∈ cands) (huse : c.isUsableFor gen now) :
    LastUpdateHas (pre ++ [.update now gen cands none]) c :=
  ⟨pre, now, gen, cands, [], rfl, nofun, hc, huse⟩

theorem MuxOk.update {pre : List MuxOp} (h : MuxOk pre (run pre)) (now gen : ℕ) (cands : List RateCandidate)
    (failure : Option MuxFailure) :
    MuxOk (pre ++ [.update now gen cands failure]) ((run pre).update now gen cands failure).1 := by
  have hgen : ((run pre).enter gen).attachmentGeneration = some gen := rfl
  have hout := update_outcome (run pre) now gen cands failure
  generalize hr : (run pre).update now gen cands failure = r at hout
  have hseen : ∀ c ∈ cands, ∃ op ∈ pre ++ [MuxOp.update now gen cands failure], c ∈ op.candidates :=
    fun c hc => ⟨_, List.mem_concat_self, hc⟩
  cases hout with
  | demote => exact MuxOk.of_cleared rfl rfl rfl
  | keep c ch hf hc hch =>
    subst hf
    obtain ⟨hmem, howner, huse⟩ := ownerCandidate_eq_some hc
    refine ⟨howner, ?_, ?_, ?_, fun c' hc' => ?_⟩
    · rintro c' ⟨⟩
      rw [RateCandidate.generation_of_usable huse]
      exact hgen
    · rintro c' ⟨⟩
      exact hseen c hmem
    · rintro c' ⟨⟩ -
      exact LastUpdateHas.concat hmem huse
    · obtain ⟨hg, h1, hs⟩ := since_of_recorded h hch (by rw [hr]) (by rw [hr]) c' hc'
      exact ⟨by rw [← hg]; exact hgen, h1, hs⟩
  | promote b hf hb hcount hne =>
    subst hf
    obtain ⟨hmem, huse⟩ := mem_of_best hb
    refine ⟨rfl, ?_, ?_, ?_, nofun⟩
    · rintro c' ⟨⟩
      rw [RateCandidate.generation_of_usable huse]
    · rintro c' ⟨⟩
      exact hseen b hmem
    · rintro c' ⟨⟩ -
      exact LastUpdateHas.concat hmem huse
  | hold ch hf howner hfail hexp hch =>
    subst hf
    rcases enter_cases h gen with ⟨hg, he⟩ | ⟨-, hnone, -⟩
    · refine ⟨?_, ?_, ?_, fun _ _ hzero => absurd hzero Nat.one_ne_zero, fun c' hc' => ?_⟩
      · rw [he]
        exact h.owner_eq
      · rw [he]
        exact h.generation_eq
      · intro c hc
        rw [he] at hc
        obtain ⟨op, hop, hmem⟩ := h.seen c hc
        exact ⟨op, List.mem_append_left _ hop, hmem⟩
      · obtain ⟨hg, h1, hs⟩ := since_of_recorded h hch (by rw [hr]) (by rw [hr]) c' hc'
        exact ⟨by rw [← hg]; exact hgen, h1, hs⟩
    · rw [hnone] at howner
      cases howner
  | idle ch hf howner hch st hst =>
    subst hf
    have hl : ((run pre).enter gen).lastSelected = none := by
      rcases enter_cases h gen with ⟨-, he⟩ | ⟨-, -, hl, -⟩
      · rw [he] at howner ⊢
        rw [h.owner_eq, Option.map_eq_none_iff] at howner
        exact howner
      · exact hl
    refine ⟨?_, ?_, ?_, ?_, fun c' hc' => ?_⟩
    · rw [howner, hl, Option.map_none]
    · simp [hl]
    · simp [hl]
    · simp [hl]
    · obtain ⟨hg, h1, hs⟩ := since_of_recorded h hch (by rw [hr]) (by rw [hr]) c' hc'
      exact ⟨by rw [← hg]; exact hgen, h1, hs⟩

/-! ### Invalidation -/

theorem invalidateEdge_eq (mux : DirectionRateMux) (gen : ℕ) :
    mux.invalidateEdge gen =
      { owner := (mux.enter gen).owner.filter fun s => !s.isEdge
        attachmentGeneration := some gen
        challenger := (mux.enter gen).challenger.filter fun ch => !ch.source.isEdge
        consecutiveFailures := if (mux.enter gen).owner.any (·.isEdge) then 0 else (mux.enter gen).consecutiveFailures
        transitionSeq := if (mux.enter gen).owner.any (·.isEdge) then saturatingAdd (mux.enter gen).transitionSeq 1
          else (mux.enter gen).transitionSeq
        lastSelected := if (mux.enter gen).owner.any (·.isEdge) then none else (mux.enter gen).lastSelected } := by
  rcases mux with ⟨o, g, ch, n, seq, l⟩
  simp only [invalidateEdge, enter]
  split
  · simp [hardDemote]
  · rcases o with - | o <;> rcases ch with - | ch
    · rfl
    · cases hch : ch.source.isEdge <;> simp [hch, Option.filter_some]
    · cases ho : o.isEdge <;> simp [ho, Option.filter_some]
    · cases ho : o.isEdge <;> cases hch : ch.source.isEdge <;> simp [ho, hch, Option.filter_some]

theorem MuxOk.invalidateEdge {pre : List MuxOp} (h : MuxOk pre (run pre)) (gen : ℕ) :
    MuxOk (pre ++ [.invalidateEdge gen]) ((run pre).invalidateEdge gen) := by
  rw [invalidateEdge_eq]
  rcases enter_cases h gen with ⟨hg, he⟩ | ⟨-, ho, hl, hc⟩
  · rw [he]
    refine ⟨?_, ?_, ?_, ?_, ?_⟩
    · rw [h.owner_eq]
      cases (run pre).lastSelected with
      | none => rfl
      | some c => cases hc : c.source.isEdge <;> simp [hc, Option.filter_some]
    · intro c hc
      rw [← hg]
      exact h.generation_eq c (Option.mem_ite_none_left.1 hc).2
    · intro c hc
      obtain ⟨op, hop, hmem⟩ := h.seen c (Option.mem_ite_none_left.1 hc).2
      exact ⟨op, List.mem_append_left _ hop, hmem⟩
    · intro c hc hfail
      obtain ⟨hedge, hc⟩ := Option.mem_ite_none_left.1 hc
      refine (h.held c hc ?_).invalidate gen
      rwa [if_neg hedge] at hfail
    · intro ch hch
      obtain ⟨hch, hedge⟩ := Option.filter_eq_some_iff.1 hch
      obtain ⟨hgen, h1, hs⟩ := h.waiting ch hch
      have hgen' : gen = ch.generation := Option.some.inj (hg.symm.trans hgen)
      refine ⟨by rw [hgen'], h1, hs.wait ⟨hgen', by simpa using hedge, ?_⟩⟩
      rw [invalidateEdge_eq, he]
      exact Option.filter_eq_some_iff.2 ⟨hch, hedge⟩
  · exact MuxOk.of_cleared (by simp [ho]) (by simp [hl]) (by simp [hc])

theorem muxOk_run (ops : List MuxOp) : MuxOk ops (run ops) := by
  induction ops using List.reverseRecOn with
  | nil => exact MuxOk.of_cleared rfl rfl rfl
  | append_singleton pre op ih =>
    rw [run_concat]
    cases op with
    | update now gen cands failure => exact ih.update now gen cands failure
    | invalidateEdge gen => exact ih.invalidateEdge gen

end DirectionRateMux

end Lanspeedd
