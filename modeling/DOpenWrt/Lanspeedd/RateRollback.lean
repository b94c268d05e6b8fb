import DOpenWrt.Lanspeedd.RateBookInv

/-!
# Rates across a rollback of the clock

A run of updates in which every pushed point is marked with the number of rollbacks up to its snapshot. The rollback of a
snapshot is forgotten with the next one, but the points of a client stay until their retention is over.
-/

namespace Lanspeedd

variable {nowMs : Nat} {timeRollback : Bool} {sample : ClientCounters} {update : RateUpdate} {state : ClientState}
  {points : List CounterPoint}

/-- A run with the rollbacks so far, that of the update under way among them. -/
structure RollbackRun where
  run : RateRun
  rollbacks : Nat
  marks : String → List Nat

namespace RollbackRun

variable {r : RollbackRun}

def marksOf (r : RollbackRun) (key : String) : List Nat := if r.run.book.contains key then r.marks key else []

/-- The point of a client that was pushed `i` points before its newest is from after the last rollback. -/
def Fresh (r : RollbackRun) (key : String) (i : Nat) : Prop := (r.marksOf key)[i]? = some r.rollbacks

instance decidableFresh (r : RollbackRun) (key : String) (i : Nat) : Decidable (r.Fresh key i) :=
  inferInstanceAs (Decidable (_ = _))

def step (nowMs : Nat) (timeRollback : Bool) (r : RollbackRun) (sample : ClientCounters) : RollbackRun :=
  let run := r.run.step nowMs timeRollback sample
  { r with
    run := run
    marks :=
      if run.book.contains sample.identityKey then
        Function.update r.marks sample.identityKey (r.rollbacks :: r.marksOf sample.identityKey)
      else r.marks }

def beginUpdate (nowMs : Nat) (r : RollbackRun) : RollbackRun where
  run := r.run.afterSamples nowMs []
  rollbacks := if r.run.book.timeRollback nowMs then r.rollbacks + 1 else r.rollbacks
  marks := r.marks

def afterSamples (nowMs : Nat) (r : RollbackRun) (samples : List ClientCounters) : RollbackRun :=
  samples.foldl (step nowMs (r.run.book.timeRollback nowMs)) (r.beginUpdate nowMs)

def call (r : RollbackRun) (c : Nat × List ClientCounters) : RollbackRun :=
  let r := r.afterSamples c.1 c.2
  { r with run := { r.run with book := { r.run.book with lastSnapshotMs := some c.1 } } }

def start (maxClients staleClientMs : Nat) : RollbackRun := ⟨.start maxClients staleClientMs, 0, fun _ => []⟩

theorem afterSamples_run (r : RollbackRun) (nowMs : Nat) (samples : List ClientCounters) :
    (r.afterSamples nowMs samples).run = r.run.afterSamples nowMs samples := by
  have hfold : ∀ (b : Bool) (r : RollbackRun),
      (samples.foldl (step nowMs b) r).run = samples.foldl (RateRun.step nowMs b) r.run := by
    intro b
    induction samples with
    | nil => exact fun _ => rfl
    | cons sample samples ih => exact fun r => ih _
  exact hfold _ _

theorem call_run (r : RollbackRun) (c : Nat × List ClientCounters) : (r.call c).run = r.run.call c := by
  have := r.afterSamples_run c.1 c.2
  unfold call RateRun.call
  dsimp only
  rw [this]

/-- A client's latest point that lies before the snapshot is from after the last rollback, and the one before it too where
the received bytes grow from it on. In the snapshot of a rollback nothing is needed. -/
def BaselinesFresh (nowMs : Nat) (timeRollback : Bool) (r : RollbackRun) (sample : ClientCounters) : Prop :=
  timeRollback = false → ∀ p ∈ (r.run.pointsOf sample.identityKey)[0]?, p.sampleMs ≤ nowMs →
    (p.sampleMs < nowMs → r.Fresh sample.identityKey 0) ∧
    ∀ q ∈ (r.run.pointsOf sample.identityKey)[1]?,
      q.sampleMs < p.sampleMs ∧ q.rxBytes < p.rxBytes ∧ p.rxBytes < sample.rxBytes → r.Fresh sample.identityKey 1

instance decidableBaselinesFresh (nowMs : Nat) (timeRollback : Bool) (r : RollbackRun) (sample : ClientCounters) :
    Decidable (BaselinesFresh nowMs timeRollback r sample) :=
  inferInstanceAs (Decidable (_ → _))

/-- A rate is zero, or it goes back to a point from after the last rollback. -/
structure RateFresh (nowMs : Nat) (r : RollbackRun) (sample : ClientCounters) (rate : ClientRate) : Prop where
  tx : rate.txBps = 0 ∨ ∃ i p, (r.run.pointsOf sample.identityKey)[i]? = some p ∧ r.Fresh sample.identityKey i ∧
    p.sampleMs < nowMs ∧ p.txBytes ≤ sample.txBytes ∧
    rate.txBps = min (8000 * (sample.txBytes - p.txBytes) / (nowMs - p.sampleMs)) u64Max
  rx : rate.rxBps = 0 ∨ ∃ i p, (r.run.pointsOf sample.identityKey)[i]? = some p ∧ r.Fresh sample.identityKey i ∧
    p.sampleMs < nowMs ∧ p.rxBytes ≤ sample.rxBytes ∧ p.rxPackets ≤ sample.rxPackets ∧
    rate.rxBps = min (8000 * (sample.rxBytes - p.rxBytes -
      min ((sample.rxPackets - p.rxPackets) * x86RxDisplayHeaderBytes) u64Max) / (nowMs - p.sampleMs)) u64Max

/-- What a sample publishes goes back to points from after the last rollback. -/
def PublishesFresh (nowMs : Nat) (timeRollback : Bool) (r : RollbackRun) (sample : ClientCounters) : Prop :=
  ∀ rate, (r.step nowMs timeRollback sample).run.update.clients = r.run.update.clients ++ [rate] →
    r.RateFresh nowMs sample rate

end RollbackRun

namespace RateBook

/-- After a rollback, of the book or of the client alone, the rates are zero. -/
theorem clientRate_rollback (h : timeRollback = true ∨ ∃ p, state.latest = some p ∧ nowMs < p.sampleMs)
    (sample : ClientCounters) : (clientRate nowMs timeRollback state sample).1.txBps = 0 ∧
      (clientRate nowMs timeRollback state sample).1.rxBps = 0 := by
  have hrollback : (timeRollback || state.latest.any fun point => nowMs < point.sampleMs) = true := by
    rcases h with h | ⟨p, hp, hlt⟩
    · rw [h, Bool.true_or]
    · rw [hp, Option.any_some, decide_eq_true hlt, Bool.or_true]
  unfold clientRate rates
  rw [hrollback]
  cases state.latest with
  | none => exact ⟨rfl, rfl⟩
  | some previous =>
    constructor
    · rcases rateFromDelta_bps sample.txBytes previous.txBytes 0 with hzero | ⟨-, hpos, -⟩
      · exact hzero
      · exact absurd hpos (Nat.lt_irrefl 0)
    · rcases rxDisplayRate_bps sample.rxBytes (rxBaseline state previous sample).rxBytes sample.rxPackets
        (rxBaseline state previous sample).rxPackets 0 with hzero | ⟨-, -, hpos, -⟩
      · exact hzero
      · exact absurd hpos (Nat.lt_irrefl 0)

/-- What a sample publishes is computed from the last points of its client. -/
theorem published_eq {r : RateRun} (h : r.Inv) {rate : ClientRate}
    (hrate : (r.step nowMs timeRollback sample).update.clients = r.update.clients ++ [rate]) :
    ∃ state : ClientState, state.Holds (r.pointsOf sample.identityKey) ∧
      rate = (clientRate nowMs timeRollback state sample).1 := by
  have hnone : ∀ update : RateUpdate, update.clients = r.update.clients →
      update.clients ≠ r.update.clients ++ [rate] := by
    intro update heq hne
    rw [heq] at hne
    exact List.cons_ne_nil rate [] (List.self_eq_append_right.1 hne)
  have hrecorded : ∀ {index : Nat} {state : ClientState} {b : RateBook},
      state.Holds (r.pointsOf sample.identityKey) →
      updateSample nowMs timeRollback (r.book, r.update) sample =
        record nowMs timeRollback index state b r.update sample →
      ∃ state : ClientState, state.Holds (r.pointsOf sample.identityKey) ∧
        rate = (clientRate nowMs timeRollback state sample).1 := by
    intro index state b hholds hstep
    have hupdate : (r.step nowMs timeRollback sample).update =
      (record nowMs timeRollback index state b r.update sample).2 := congrArg Prod.snd hstep
    rw [hupdate] at hrate
    by_cases hstale : isStale nowMs sample.lastSeenMs b.staleClientMs
    · rw [record_stale hstale] at hrate
      exact absurd hrate (hnone _ rfl)
    · rw [(record_live hstale).1] at hrate
      exact ⟨state, hholds, (List.singleton_inj.1 (List.append_cancel_left hrate)).symm⟩
  rcases updateSample_cases nowMs timeRollback h.length_le r.update sample with
    ⟨index, state, hget, hkey, hstep⟩ | ⟨hnew, ⟨-, -, hstep⟩ | ⟨-, -, -, hstep⟩ | ⟨clients, -, -, hstep⟩⟩
  · refine hrecorded ?_ hstep
    have hmem := List.mem_of_getElem? hget
    have hcontains : r.book.contains sample.identityKey := by
      rw [contains_iff, ← hkey]
      exact List.mem_map_of_mem hmem
    rw [RateRun.pointsOf, if_pos hcontains, ← hkey]
    exact h.holds state hmem
  · exact absurd hrate (hnone _ (congrArg (·.2.clients) hstep))
  · exact absurd hrate (hnone _ (congrArg (·.2.clients) hstep))
  · refine hrecorded ?_ hstep
    rw [RateRun.pointsOf, if_neg hnew]
    exact HistoryRing.holds_empty (by decide)

end RateBook

namespace RollbackRun

variable {r : RollbackRun}

/-- One sample. -/
theorem BaselinesFresh.publishesFresh (hr : r.run.Inv) (h : BaselinesFresh nowMs timeRollback r sample) :
    PublishesFresh nowMs timeRollback r sample := by
  intro rate hrate
  obtain ⟨state, hholds, rfl⟩ := RateBook.published_eq hr hrate
  have hsound : RateSound nowMs _ sample (RateBook.clientRate nowMs timeRollback state sample).1 :=
    RateBook.clientRate_sound hholds timeRollback sample
  have hlatest := RateBook.point_zero hholds
  by_cases hrollback : timeRollback = true ∨ ∃ p, state.latest = some p ∧ nowMs < p.sampleMs
  · obtain ⟨htx, hrx⟩ := RateBook.clientRate_rollback hrollback sample
    exact ⟨.inl htx, .inl hrx⟩
  obtain ⟨hbook, hclient⟩ := not_or.1 hrollback
  have hle : ∀ {p}, (r.run.pointsOf sample.identityKey)[0]? = some p → p.sampleMs ≤ nowMs := fun hp =>
    Nat.le_of_not_lt fun hlt => hclient ⟨_, hlatest.trans hp, hlt⟩
  have hfresh := h (Bool.eq_false_of_not_eq_true hbook)
  refine ⟨hsound.tx.imp_right ?_, hsound.rx.imp_right ?_⟩
  · rintro ⟨p, hp, hlt, hbytes, hbps⟩
    exact ⟨0, p, hp, (hfresh p hp hlt.le).1 hlt, hlt, hbytes, hbps⟩
  · rintro ⟨p, hp | ⟨hone, q, hq, hgrows⟩, hlt, hbytes, hpackets, hbps⟩
    · exact ⟨0, p, hp, (hfresh p hp hlt.le).1 hlt, hlt, hbytes, hpackets, hbps⟩
    · exact ⟨1, p, hone, (hfresh q hq (hle hq)).2 p hone hgrows, hlt, hbytes, hpackets, hbps⟩

theorem step_inv (hr : r.run.Inv) (nowMs : Nat) (timeRollback : Bool) (sample : ClientCounters) :
    (r.step nowMs timeRollback sample).run.Inv := (hr.step nowMs timeRollback sample).1

theorem beginUpdate_inv (hr : r.run.Inv) (nowMs : Nat) : (r.beginUpdate nowMs).run.Inv := hr.beginUpdate nowMs

theorem call_inv (hr : r.run.Inv) (c : Nat × List ClientCounters) : (r.call c).run.Inv := by
  rw [call_run]
  exact hr.call c

/-- The samples of an update, one after the other. -/
def EachSample (C : Nat → Bool → RollbackRun → ClientCounters → Prop) (r : RollbackRun)
    (c : Nat × List ClientCounters) : Prop :=
  let b := r.run.book.timeRollback c.1
  Run.Meets (step c.1 b) (C c.1 b) (r.beginUpdate c.1) c.2

instance decidableEachSample (r : RollbackRun) (c : Nat × List ClientCounters) :
    Decidable (EachSample BaselinesFresh r c) :=
  Run.decidableMeets _ _

theorem EachSample.publishesFresh (hr : r.run.Inv) {c : Nat × List ClientCounters}
    (h : EachSample BaselinesFresh r c) : EachSample PublishesFresh r c :=
  Run.Meets.imp (I := fun r => r.run.Inv) (fun _ sample hr => step_inv hr _ _ sample)
    (fun _ _ hr => BaselinesFresh.publishesFresh hr) (beginUpdate_inv hr c.1) h

end RollbackRun

/-- In every run in which no client comes back to a point from before a rollback, no published rate goes back to one. -/
theorem rateBook_rollback (maxClients staleClientMs : Nat) (calls : List (Nat × List ClientCounters))
    (h : Run.Meets RollbackRun.call (RollbackRun.EachSample RollbackRun.BaselinesFresh)
      (.start maxClients staleClientMs) calls) :
    (calls.foldl RollbackRun.call (.start maxClients staleClientMs)).run.book =
        calls.foldl (fun book c => (book.update c.1 c.2).1) (.new maxClients staleClientMs) ∧
      Run.Meets RollbackRun.call (RollbackRun.EachSample RollbackRun.PublishesFresh)
        (.start maxClients staleClientMs) calls := by
  refine ⟨?_, ?_⟩
  · refine (List.foldl_hom (fun r : RollbackRun => r.run.book) fun r c => ?_).symm
    rw [RollbackRun.call_run]
    exact congrArg Prod.fst (r.run.call_book c).symm
  · exact Run.Meets.imp (I := fun r => r.run.Inv) (fun _ c hr => RollbackRun.call_inv hr c)
      (fun _ _ hr => RollbackRun.EachSample.publishesFresh hr) (RateRun.start_inv maxClients staleClientMs) h

/-- The clock goes from 1000 back to 500 and on to 1500, and the client is in every snapshot. -/
theorem rateBook_rollback_example : Run.Meets RollbackRun.call (RollbackRun.EachSample RollbackRun.PublishesFresh)
    (.start 8 5000) [(1000, [⟨"a", 0, 0, 0, 1000⟩]), (500, [⟨"a", 500, 500, 1, 500⟩]),
      (1500, [⟨"a", 1000, 1000, 2, 1500⟩])] :=
  (rateBook_rollback 8 5000 _ (by decide +kernel)).2

/-- A client that is not in the snapshot of the rollback has a rate from its point before. -/
theorem rateBook_rollback_absent : ¬ ∀ (maxClients staleClientMs : Nat) (calls : List (Nat × List ClientCounters)),
    Run.Meets RollbackRun.call (RollbackRun.EachSample RollbackRun.PublishesFresh) (.start maxClients staleClientMs)
      calls := by
  intro h
  have hpublishes := (h 8 5000 [(1000, [⟨"a", 0, 0, 0, 1000⟩]), (500, []), (1500, [⟨"a", 1000, 0, 0, 1500⟩])]).2.2.1.1
  have hrate := hpublishes ⟨"a", 16000, 0, 1000, 0, 1500, 1500, []⟩ (by decide +kernel)
  rcases hrate.tx with hzero | ⟨i, p, hp, hfresh, -⟩
  · exact absurd hzero (by decide)
  · have hpoint : i = 0 := by
      cases i with
      | zero => rfl
      | succ i =>
        rw [List.getElem?_eq_none (Nat.le_trans (by decide +kernel) (Nat.succ_le_succ (Nat.zero_le i)))] at hp
        cases hp
    rw [hpoint] at hfresh
    exact absurd hfresh (by decide +kernel)

end Lanspeedd
