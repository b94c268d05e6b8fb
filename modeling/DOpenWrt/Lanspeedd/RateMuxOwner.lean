import DOpenWrt.Lanspeedd.RateMuxRun

/-!
# The owner of a published rate

What a selection, a new owner, a held selection and a failure say about the calls before (`rate_mux_owner`).
-/

namespace Lanspeedd

namespace DirectionRateMux

variable {now gen : ℕ} {cands : List RateCandidate} {failure : Option MuxFailure} {pre : List MuxOp}
  {mux : DirectionRateMux}

/-- The result carries the owner and the sequence number that the call leaves. -/
theorem update_result (mux : DirectionRateMux) (now gen : ℕ) (cands : List RateCandidate)
    (failure : Option MuxFailure) :
    (mux.update now gen cands failure).2.owner = (mux.update now gen cands failure).1.owner ∧
      (mux.update now gen cands failure).2.transitionSeq = (mux.update now gen cands failure).1.transitionSeq := by
  have hout := update_outcome mux now gen cands failure
  generalize mux.update now gen cands failure = r at hout ⊢
  cases hout <;> exact ⟨rfl, rfl⟩

/-- A selection is a candidate of this call, or the held one that has not expired. -/
theorem selected_cases {sel : SelectedRate} (h : MuxOk pre (run pre))
    (hsel : ((run pre).update now gen cands failure).2.selected = some sel) :
    ((run pre).update now gen cands failure).1.owner = some sel.candidate.source ∧
      ((sel.stale = false ∧ sel.candidate ∈ cands ∧ sel.candidate.isUsableFor gen now) ∨
        (sel.stale = true ∧ sel.candidate.expiredAt now = false ∧ (run pre).attachmentGeneration = some gen ∧
          (run pre).lastSelected = some sel.candidate ∧ (run pre).consecutiveFailures = 0)) := by
  have hout := update_outcome (run pre) now gen cands failure
  generalize (run pre).update now gen cands failure = r at hout hsel ⊢
  cases hout with
  | demote => cases hsel
  | keep c ch hf hc hch =>
    obtain ⟨hmem, howner, huse⟩ := ownerCandidate_eq_some hc
    cases hsel
    exact ⟨howner, Or.inl ⟨rfl, hmem, huse⟩⟩
  | promote b hf hb hcount hne =>
    cases hsel
    exact ⟨rfl, Or.inl ⟨rfl, mem_of_best hb⟩⟩
  | hold ch hf howner hfail hexp hch =>
    obtain ⟨c, hc, rfl⟩ := Option.map_eq_some_iff.1 hsel
    rcases enter_cases h gen with ⟨hg, he⟩ | ⟨-, hnone, -⟩
    · rw [he] at hc hfail hexp
      refine ⟨?_, Or.inr ⟨rfl, hexp c hc, hg, hc, hfail⟩⟩
      rw [he, h.owner_eq, hc, Option.map_some]
    · rw [hnone] at howner
      cases howner
  | idle ch hf howner hch st hst => cases hsel

/-- Whoever becomes the owner has waited since an older sample. -/
theorem owner_of_update {s : RateSource} (h : MuxOk pre (run pre)) (hbefore : (run pre).owner ≠ some s)
    (hafter : ((run pre).update now gen cands failure).1.owner = some s) :
    failure = none ∧ ∃ ch b, ChallengerSince pre ch ∧ ch.source = s ∧ ch.generation = gen ∧
      best cands gen now = some b ∧ b.source = s ∧ ch.sampleMs < b.sampleMs := by
  have hout := update_outcome (run pre) now gen cands failure
  have hkeep : ((run pre).enter gen).owner ≠ some s := by
    rcases enter_cases h gen with ⟨-, he⟩ | ⟨-, hnone, -⟩
    · rwa [he]
    · rw [hnone]
      nofun
  generalize (run pre).update now gen cands failure = r at hout hafter
  cases hout with
  | demote => cases hafter
  | keep c ch hf hc hch => exact absurd hafter hkeep
  | hold ch hf howner hfail hexp hch => exact absurd hafter hkeep
  | idle ch hf howner hch st hst => exact absurd hafter hkeep
  | promote b hf hb hcount hne =>
    have hgen := RateCandidate.generation_of_usable (mem_of_best hb).2
    have hold : ∀ old, ((run pre).enter gen).challenger = some old → (run pre).challenger = some old := by
      intro old hold
      rcases enter_cases h gen with ⟨-, he⟩ | ⟨-, -, -, hnone⟩
      · rwa [he] at hold
      · rw [hnone] at hold
        cases hold
    have hone : ∀ old, ((run pre).enter gen).challenger = some old → old.count = 1 :=
      fun old ho => (h.waiting old (hold old ho)).2.1
    rcases nextChallenger_cases hone b with ⟨old, ho, hs, hg, heq | ⟨hlt, -⟩⟩ | heq
    · rw [heq, hone old ho] at hcount
      exact absurd hcount (by decide)
    · exact ⟨hf, old, b, (h.waiting old (hold old ho)).2.2, hs.trans (Option.some.inj hafter), hg.trans hgen, hb,
        Option.some.inj hafter, hlt⟩
    · rw [heq] at hcount
      exact absurd hcount (by simp [promotionWindows])

theorem update_of_failure (hf : failure.isSome) :
    mux.update now gen cands failure =
      ((mux.enter gen).hardDemote, (mux.enter gen).hardDemote.result .unavailable none) := by
  simp only [DirectionRateMux.update, if_pos hf]

/-! ### The sequence number -/

/-- The sequence number counts the changes of the owner. -/
def Counts (mux mux' : DirectionRateMux) : Prop :=
  mux'.transitionSeq = mux.transitionSeq + if mux'.owner = mux.owner then 0 else 1

theorem hardDemote_counts (h : mux.transitionSeq < u64Max) : Counts mux mux.hardDemote := by
  cases ho : mux.owner with
  | none => simp [Counts, hardDemote, ho]
  | some o => simp [Counts, hardDemote, ho, saturatingAdd_one h]

theorem enter_counts (h : mux.transitionSeq < u64Max) (gen : ℕ) : Counts mux (mux.enter gen) := by
  rw [enter]
  split
  · exact hardDemote_counts h
  · simp [Counts]

theorem outcome_counts {e : DirectionRateMux} {r : DirectionRateMux × MuxResult}
    (hout : Outcome e now gen cands failure r) (h : e.transitionSeq < u64Max) : Counts e r.1 := by
  cases hout with
  | demote => exact hardDemote_counts h
  | keep c ch hf hc hch => simp [Counts]
  | promote b hf hb hcount hne => simp [Counts, hne.symm, saturatingAdd_one h]
  | hold ch hf howner hfail hexp hch => simp [Counts]
  | idle ch hf howner hch st hst => simp [Counts]

/-- Nobody is promoted at the call that clears the selector. -/
theorem outcome_of_cleared {e : DirectionRateMux} {r : DirectionRateMux × MuxResult}
    (hout : Outcome e now gen cands failure r) (ho : e.owner = none) (hc : e.challenger = none) :
    r.1.owner = none ∧ r.1.transitionSeq = e.transitionSeq := by
  cases hout with
  | demote => simp [hardDemote, ho]
  | keep c ch hf hc hch => exact ⟨ho, rfl⟩
  | promote b hf hb hcount hne =>
    rw [nextChallenger, hc] at hcount
    exact absurd hcount (by simp [promotionWindows])
  | hold ch hf howner hfail hexp hch => exact ⟨ho, rfl⟩
  | idle ch hf howner hch st hst => exact ⟨ho, rfl⟩

theorem update_counts (hok : MuxOk pre (run pre)) (h : (run pre).transitionSeq < u64Max) :
    Counts (run pre) ((run pre).update now gen cands failure).1 := by
  have hout := update_outcome (run pre) now gen cands failure
  rcases enter_cases hok gen with ⟨-, he⟩ | ⟨-, ho, -, hc⟩
  · rw [he] at hout
    exact outcome_counts hout h
  · obtain ⟨howner, hseq⟩ := outcome_of_cleared hout ho hc
    have := enter_counts h gen
    rw [Counts, hseq, howner, ← ho]
    exact this

theorem invalidateEdge_counts (hok : MuxOk pre (run pre)) (h : (run pre).transitionSeq < u64Max) :
    Counts (run pre) ((run pre).invalidateEdge gen) := by
  rw [invalidateEdge_eq]
  rcases enter_cases hok gen with ⟨-, he⟩ | ⟨-, ho, -, -⟩
  · rw [he, Counts]
    cases ho : (run pre).owner with
    | none => simp
    | some o => cases hedge : o.isEdge <;> simp [hedge, Option.filter_some, saturatingAdd_one h]
  · have := enter_counts h gen
    rw [Counts, ho] at this
    simp only [Counts, ho, Option.filter_none, Option.any_none, Bool.false_eq_true, if_false]
    exact this

theorem invalidateEdge_owner (hok : MuxOk pre (run pre)) (gen : ℕ) :
    ((run pre).invalidateEdge gen).owner = none ∨ ((run pre).invalidateEdge gen).owner = (run pre).owner := by
  rw [invalidateEdge_eq]
  rcases enter_cases hok gen with ⟨-, he⟩ | ⟨-, ho, -, -⟩
  · rw [he]
    cases (run pre).owner with
    | none => exact Or.inl rfl
    | some o => cases hedge : o.isEdge <;> simp [hedge, Option.filter_some]
  · simp [ho]

/-! ### The owner over every run -/

/-- For any calls `pre` on a new selector: what is published by the next call, who becomes the owner, what is held,
and what a failure leaves. -/
theorem rate_mux_owner (pre : List MuxOp) (now gen : ℕ) (cands : List RateCandidate) (failure : Option MuxFailure) :
    -- a selection is one candidate of this or an earlier call, of the owner, of this generation, and fresh
    (∀ sel, ((run pre).update now gen cands failure).2.selected = some sel →
      (∃ op ∈ pre ++ [.update now gen cands failure], sel.candidate ∈ op.candidates) ∧
      ((run pre).update now gen cands failure).2.owner = some sel.candidate.source ∧
      sel.candidate.attachmentGeneration = gen ∧ sel.candidate.sampleMs ≤ now ∧
      2 * (now - sel.candidate.sampleMs) ≤ 5 * sel.candidate.cadenceMs) ∧
    -- a new owner was recorded with an older sample and has been the challenger since
    (∀ s, (run pre).owner ≠ some s → ((run pre).update now gen cands failure).1.owner = some s →
      failure = none ∧ ∃ ch b, ChallengerSince pre ch ∧ ch.source = s ∧ ch.generation = gen ∧
        best cands gen now = some b ∧ b.source = s ∧ ch.sampleMs < b.sampleMs) ∧
    (((run pre).invalidateEdge gen).owner = none ∨ ((run pre).invalidateEdge gen).owner = (run pre).owner) ∧
    -- a selection that is not of this call was usable in the update before
    (∀ sel, ((run pre).update now gen cands failure).2.selected = some sel → sel.candidate ∉ cands →
      (run pre).owner = some sel.candidate.source ∧ LastUpdateHas pre sel.candidate) ∧
    -- a failure leaves no owner, no challenger and no selection
    (failure.isSome → ((run pre).update now gen cands failure).1.owner = none ∧
      ((run pre).update now gen cands failure).1.challenger = none ∧
      ((run pre).update now gen cands failure).1.lastSelected = none ∧
      ((run pre).update now gen cands failure).2.state = .unavailable ∧
      ((run pre).update now gen cands failure).2.selected = none) ∧
    -- the sequence number grows by one at each change of the owner
    ((run pre).transitionSeq < u64Max → Counts (run pre) ((run pre).update now gen cands failure).1 ∧
      Counts (run pre) ((run pre).invalidateEdge gen)) := by
  have hok := muxOk_run pre
  refine ⟨fun sel hsel => ?_, fun s => owner_of_update hok, invalidateEdge_owner hok gen, fun sel hsel hnew => ?_,
    fun hf => ?_, fun h => ⟨update_counts hok h, invalidateEdge_counts hok h⟩⟩
  · rw [(update_result (run pre) now gen cands failure).1]
    rcases selected_cases hok hsel with ⟨howner, ⟨-, hmem, huse⟩ | ⟨-, hexp, hg, hlast, -⟩⟩
    · exact ⟨⟨_, List.mem_concat_self, hmem⟩, howner, RateCandidate.generation_of_usable huse,
        RateCandidate.le_of_usable huse, RateCandidate.age_of_usable huse⟩
    · obtain ⟨op, hop, hmem⟩ := hok.seen _ hlast
      have hgen := hok.generation_eq _ hlast
      rw [hg] at hgen
      exact ⟨⟨op, List.mem_append_left _ hop, hmem⟩, howner, (Option.some.inj hgen).symm,
        RateCandidate.le_of_not_expired hexp⟩
  · rcases selected_cases hok hsel with ⟨-, ⟨-, hmem, -⟩ | ⟨-, -, -, hlast, hfail⟩⟩
    · exact absurd hmem hnew
    · refine ⟨?_, hok.held _ hlast hfail⟩
      rw [hok.owner_eq, hlast, Option.map_some]
  · rw [update_of_failure hf]
    exact ⟨rfl, rfl, rfl, rfl, rfl⟩

end DirectionRateMux

end Lanspeedd
