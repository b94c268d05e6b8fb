import DOpenWrt.Lanspeedd.RateBook

/-!
# What the rate book keeps and publishes

A run of updates, with a record of the points pushed for each client since it was added. Every sample is a step.
-/

namespace Lanspeedd

variable {nowMs : Nat} {timeRollback : Bool} {sample : ClientCounters} {book book' : RateBook} {update : RateUpdate}
  {state : ClientState} {points : List CounterPoint}

/-! ### Rates -/

/-- The second point counts as long as the received bytes grow from it to the first and from that to the sample. -/
def RxGrows (points : List CounterPoint) (sample : ClientCounters) (p : CounterPoint) : Prop :=
  points[1]? = some p ∧ ∃ previous, points[0]? = some previous ∧ p.sampleMs < previous.sampleMs ∧
    p.rxBytes < previous.rxBytes ∧ previous.rxBytes < sample.rxBytes

/-- A rate against the points of its client, the newest first. -/
structure RateSound (nowMs : Nat) (points : List CounterPoint) (sample : ClientCounters) (rate : ClientRate) : Prop where
  identityKey : rate.identityKey = sample.identityKey
  tx : rate.txBps = 0 ∨ ∃ p, points[0]? = some p ∧ p.sampleMs < nowMs ∧ p.txBytes ≤ sample.txBytes ∧
    rate.txBps = min (8000 * (sample.txBytes - p.txBytes) / (nowMs - p.sampleMs)) u64Max
  rx : rate.rxBps = 0 ∨ ∃ p, (points[0]? = some p ∨ RxGrows points sample p) ∧ p.sampleMs < nowMs ∧
    p.rxBytes ≤ sample.rxBytes ∧ p.rxPackets ≤ sample.rxPackets ∧
    rate.rxBps = min (8000 * (sample.rxBytes - p.rxBytes -
      min ((sample.rxPackets - p.rxPackets) * x86RxDisplayHeaderBytes) u64Max) / (nowMs - p.sampleMs)) u64Max

namespace RateBook

theorem rateFromDelta_bps (current previous deltaMs : Nat) : (rateFromDelta current previous deltaMs).bps = 0 ∨
    previous ≤ current ∧ 0 < deltaMs ∧
      (rateFromDelta current previous deltaMs).bps = min (8000 * (current - previous) / deltaMs) u64Max := by
  unfold rateFromDelta
  split_ifs with hlt hzero
  · exact .inl rfl
  · exact .inl rfl
  · refine .inr ⟨Nat.le_of_not_lt hlt, Nat.pos_of_ne_zero hzero, ?_⟩
    rw [Nat.mul_assoc, Nat.mul_comm]

theorem rxDisplayRate_bps (currentBytes previousBytes currentPackets previousPackets deltaMs : Nat) :
    (rxDisplayRate currentBytes previousBytes currentPackets previousPackets deltaMs).bps = 0 ∨
      previousBytes ≤ currentBytes ∧ previousPackets ≤ currentPackets ∧ 0 < deltaMs ∧
        (rxDisplayRate currentBytes previousBytes currentPackets previousPackets deltaMs).bps =
          min (8000 * (currentBytes - previousBytes -
            min ((currentPackets - previousPackets) * x86RxDisplayHeaderBytes) u64Max) / deltaMs) u64Max := by
  unfold rxDisplayRate
  split_ifs with hbytes hpackets
  · exact .inl rfl
  · exact .inl rfl
  · rcases rateFromDelta_bps (currentBytes - previousBytes -
      min ((currentPackets - previousPackets) * x86RxDisplayHeaderBytes) u64Max) 0 deltaMs with hzero | ⟨-, hms, hbps⟩
    · exact .inl hzero
    · exact .inr ⟨Nat.le_of_not_lt hbytes, Nat.le_of_not_lt hpackets, hms, hbps⟩

/-- The time to a point, which is none after a rollback. -/
theorem pos_of_deltaMs {rateTimeRollback : Bool} {sampleMs : Nat}
    (h : 0 < if rateTimeRollback then 0 else nowMs - sampleMs) :
    sampleMs < nowMs ∧ (if rateTimeRollback then 0 else nowMs - sampleMs) = nowMs - sampleMs := by
  cases rateTimeRollback with
  | true => exact absurd h (Nat.lt_irrefl 0)
  | false => exact ⟨Nat.lt_of_sub_pos h, rfl⟩

theorem point_zero (h : state.Holds points) : state.latest = points[0]? := h.fromLatest 0

theorem point_one (h : state.Holds points) : state.pointFromLatest 1 = points[1]? := h.fromLatest 1

theorem rxBaseline_eq (h : state.Holds points) {previous : CounterPoint} (hprevious : points[0]? = some previous)
    (sample : ClientCounters) :
    points[0]? = some (rxBaseline state previous sample) ∨
      RxGrows points sample (rxBaseline state previous sample) := by
  unfold rxBaseline
  rw [point_one h]
  cases hone : points[1]? with
  | none => exact .inl hprevious
  | some earlier =>
    rw [Option.filter_some]
    split_ifs with hgrows
    · obtain ⟨hms, hnew, hold⟩ := of_decide_eq_true hgrows
      exact .inr ⟨hone, previous, hprevious, hms, hold, hnew⟩
    · exact .inl hprevious

theorem clientRate_sound (h : state.Holds points) (timeRollback : Bool) (sample : ClientCounters) :
    RateSound nowMs points sample (clientRate nowMs timeRollback state sample).1 := by
  have hlatest := point_zero h
  unfold clientRate rates
  cases hprevious : points[0]? with
  | none =>
    rw [hlatest, hprevious]
    exact ⟨rfl, .inl rfl, .inl rfl⟩
  | some previous =>
    have hbaseline := rxBaseline_eq h hprevious sample
    rw [hlatest, hprevious]
    dsimp only
    refine ⟨rfl, (rateFromDelta_bps ..).imp_right ?_, (rxDisplayRate_bps ..).imp_right ?_⟩
    · rintro ⟨hle, hms, hbps⟩
      obtain ⟨hms, hdelta⟩ := pos_of_deltaMs hms
      exact ⟨previous, hprevious, hms, hle, by rw [hbps, hdelta]⟩
    · rintro ⟨hbytes, hpackets, hms, hbps⟩
      obtain ⟨hms, hdelta⟩ := pos_of_deltaMs hms
      exact ⟨_, hbaseline, hms, hbytes, hpackets, by rw [hbps, hdelta]⟩

end RateBook

/-! ### One sample -/

/-- A client whose latest point is stale. -/
def ClientState.StaleAt (c : ClientState) (nowMs staleClientMs : Nat) : Prop :=
  ∃ point, c.latest = some point ∧ isStale nowMs point.lastSeenMs staleClientMs

/-- `c` is the stale client that was seen least recently. -/
def EvictedFrom (book : RateBook) (nowMs : Nat) (c : ClientState) : Prop :=
  ∃ point, c.latest = some point ∧ isStale nowMs point.lastSeenMs book.staleClientMs ∧
    ∀ c' ∈ book.clients, ∀ point', c'.latest = some point' →
      isStale nowMs point'.lastSeenMs book.staleClientMs → point.lastSeenMs ≤ point'.lastSeenMs

namespace RateBook

theorem contains_iff {key : String} : book.contains key ↔ key ∈ book.clients.map (·.identityKey) := by
  simp [contains, List.mem_map]

theorem mem_evictable {index lastSeenMs : Nat} : (index, lastSeenMs) ∈ book.evictable nowMs ↔
    ∃ c point, book.clients[index]? = some c ∧ c.latest = some point ∧
      isStale nowMs point.lastSeenMs book.staleClientMs ∧ point.lastSeenMs = lastSeenMs := by
  unfold evictable
  rw [List.mem_filterMap]
  constructor
  · rintro ⟨⟨c, i⟩, hmem, hbind⟩
    obtain ⟨point, hpoint, hstale⟩ := Option.bind_eq_some_iff.1 hbind
    split_ifs at hstale with h
    obtain ⟨rfl, rfl⟩ := Prod.mk.inj (Option.some.inj hstale)
    exact ⟨c, point, List.mem_zipIdx_iff_getElem?.1 hmem, hpoint, h, rfl⟩
  · rintro ⟨c, point, hget, hpoint, hstale, rfl⟩
    refine ⟨(c, index), List.mem_zipIdx_iff_getElem?.2 hget, ?_⟩
    dsimp only
    rw [hpoint, Option.bind_some, if_pos hstale]

theorem evict_cases (book : RateBook) (nowMs : Nat) :
    (book.evict nowMs = book ∧ ∀ c ∈ book.clients, ¬ c.StaleAt nowMs book.staleClientMs) ∨
      ∃ index c, book.clients[index]? = some c ∧ EvictedFrom book nowMs c ∧
        book.evict nowMs = { book with clients := book.clients.eraseIdx index } := by
  unfold evict
  cases hmin : (book.evictable nowMs).argmin (·.2) with
  | none =>
    refine .inl ⟨rfl, fun c hc ⟨point, hpoint, hstale⟩ => ?_⟩
    obtain ⟨index, hget⟩ := List.mem_iff_getElem?.1 hc
    have := mem_evictable.2 ⟨c, point, hget, hpoint, hstale, rfl⟩
    rw [List.argmin_eq_none.1 hmin] at this
    cases this
  | some least =>
    obtain ⟨c, point, hget, hpoint, hstale, hlast⟩ := mem_evictable.1 (List.argmin_mem hmin)
    refine .inr ⟨least.1, c, hget, ⟨point, hpoint, hstale, fun c' hc' point' hpoint' hstale' => ?_⟩, rfl⟩
    obtain ⟨index', hget'⟩ := List.mem_iff_getElem?.1 hc'
    rw [hlast]
    exact List.le_of_mem_argmin (mem_evictable.2 ⟨c', point', hget', hpoint', hstale', rfl⟩) hmin

/-- What the loop of `update` does with a sample: it records it for its client, ignores it, rejects it, or records it for a
new client, for which another may have to go. -/
theorem updateSample_cases (nowMs : Nat) (timeRollback : Bool) (hle : book.clients.length ≤ book.maxClients)
    (update : RateUpdate) (sample : ClientCounters) :
    (∃ index state, book.clients[index]? = some state ∧ state.identityKey = sample.identityKey ∧
        updateSample nowMs timeRollback (book, update) sample =
          record nowMs timeRollback index state book update sample) ∨
      ¬ book.contains sample.identityKey ∧
        ((isStale nowMs sample.lastSeenMs book.staleClientMs ∧ book.clients.length = book.maxClients ∧
            updateSample nowMs timeRollback (book, update) sample = (book, update)) ∨
          (¬ isStale nowMs sample.lastSeenMs book.staleClientMs ∧ book.clients.length = book.maxClients ∧
            (∀ c ∈ book.clients, ¬ c.StaleAt nowMs book.staleClientMs) ∧
            updateSample nowMs timeRollback (book, update) sample = (book, { update with
              rejectedClients := update.rejectedClients ++ [sample.identityKey]
              warnings := pushUnique update.warnings .clientLimitExceeded })) ∨
          ∃ clients, (clients = book.clients ∨ book.clients.length = book.maxClients ∧
              ∃ index c, book.clients[index]? = some c ∧ EvictedFrom book nowMs c ∧
                clients = book.clients.eraseIdx index) ∧
            clients.length < book.maxClients ∧
            updateSample nowMs timeRollback (book, update) sample =
              record nowMs timeRollback clients.length (.new sample.identityKey)
                { book with clients := clients ++ [.new sample.identityKey] } update sample) := by
  unfold updateSample
  dsimp only
  cases hindex : book.clients.findIdx? fun client => client.identityKey == sample.identityKey with
  | some index =>
    obtain ⟨hlt, hkey, -⟩ := List.findIdx?_eq_some_iff_getElem.1 hindex
    refine .inl ⟨index, book.clients[index], List.getElem?_eq_getElem hlt, beq_iff_eq.1 hkey, ?_⟩
    dsimp only
    rw [List.getElem?_eq_getElem hlt]
  | none =>
    have hnew : ¬ book.contains sample.identityKey := by
      rw [contains, ← List.findIdx?_isSome, hindex]
      exact Bool.false_ne_true
    refine .inr ⟨hnew, ?_⟩
    dsimp only
    by_cases hfull : book.clients.length = book.maxClients
    · by_cases hstale : isStale nowMs sample.lastSeenMs book.staleClientMs
      · exact .inl ⟨hstale, hfull, if_pos ⟨hstale, hfull⟩⟩
      · rw [if_neg fun h => hstale h.1, if_pos hfull]
        rcases evict_cases book nowMs with ⟨heq, hlive⟩ | ⟨index, c, hget, hevicted, heq⟩
        · rw [heq, if_pos hfull]
          exact .inr (.inl ⟨hstale, hfull, hlive, rfl⟩)
        · have hlt := (List.getElem?_eq_some_iff.1 hget).1
          have hlength : (book.clients.eraseIdx index).length < book.maxClients := by
            rw [List.length_eraseIdx_of_lt hlt]
            omega
          rw [heq, if_neg hlength.ne]
          exact .inr (.inr ⟨_, .inr ⟨hfull, index, c, hget, hevicted, rfl⟩, hlength, rfl⟩)
    · rw [if_neg fun h => hfull h.2, if_neg hfull, if_neg hfull]
      exact .inr (.inr ⟨_, .inl rfl, lt_of_le_of_ne hle hfull, rfl⟩)

end RateBook

/-! ### Runs -/

/-- An update under way, with the points pushed for every client since it was added. -/
structure RateRun where
  book : RateBook
  update : RateUpdate
  pushed : String → List CounterPoint

namespace RateRun

variable {r : RateRun}

def pointsOf (r : RateRun) (key : String) : List CounterPoint := if r.book.contains key then r.pushed key else []

def keys (r : RateRun) : List String := r.book.clients.map (·.identityKey)

def step (nowMs : Nat) (timeRollback : Bool) (r : RateRun) (sample : ClientCounters) : RateRun :=
  let s := RateBook.updateSample nowMs timeRollback (r.book, r.update) sample
  let points := r.pointsOf sample.identityKey
  { book := s.1
    update := s.2
    pushed :=
      if s.1.contains sample.identityKey then
        Function.update r.pushed sample.identityKey (RateBook.counterPoint nowMs points.head? sample :: points)
      else r.pushed }

/-- An update after some of its samples. -/
def afterSamples (nowMs : Nat) (r : RateRun) (samples : List ClientCounters) : RateRun :=
  samples.foldl (step nowMs (r.book.timeRollback nowMs))
    { r with book := (r.book.beginUpdate nowMs).1, update := (r.book.beginUpdate nowMs).2 }

def call (r : RateRun) (c : Nat × List ClientCounters) : RateRun :=
  let r := r.afterSamples c.1 c.2
  { r with book := { r.book with lastSnapshotMs := some c.1 } }

def start (maxClients staleClientMs : Nat) : RateRun := ⟨.new maxClients staleClientMs, ⟨[], [], []⟩, fun _ => []⟩

theorem call_book (r : RateRun) (c : Nat × List ClientCounters) :
    ((r.call c).book, (r.call c).update) = r.book.update c.1 c.2 := by
  have hfold : ∀ (samples : List ClientCounters) (b : Bool) (r : RateRun),
      ((samples.foldl (step c.1 b) r).book, (samples.foldl (step c.1 b) r).update) =
        samples.foldl (RateBook.updateSample c.1 b) (r.book, r.update) := by
    intro samples b
    induction samples with
    | nil => exact fun _ => rfl
    | cons s samples ih => exact fun r => ih _
  unfold call afterSamples RateBook.update
  have := hfold c.2 (r.book.timeRollback c.1)
    { r with book := (r.book.beginUpdate c.1).1, update := (r.book.beginUpdate c.1).2 }
  rw [← this]

theorem afterSamples_concat (r : RateRun) (nowMs : Nat) (samples : List ClientCounters) (sample : ClientCounters) :
    r.afterSamples nowMs (samples ++ [sample]) =
      (r.afterSamples nowMs samples).step nowMs (r.book.timeRollback nowMs) sample :=
  List.foldl_append

structure Inv (r : RateRun) : Prop where
  nodup : r.keys.Nodup
  length_le : r.book.clients.length ≤ r.book.maxClients
  holds : ∀ c ∈ r.book.clients, c.Holds (r.pushed c.identityKey)
  pushed : ∀ c ∈ r.book.clients, r.pushed c.identityKey ≠ []

/-- What one sample does to the clients and to the update. -/
structure SampleSound (nowMs : Nat) (r : RateRun) (sample : ClientCounters) (r' : RateRun) : Prop where
  keys : r'.keys = r.keys ∨ sample.identityKey ∉ r.keys ∧ (r'.keys = r.keys ++ [sample.identityKey] ∨
    r.book.clients.length = r.book.maxClients ∧ ∃ index c, r.book.clients[index]? = some c ∧
      EvictedFrom r.book nowMs c ∧ r'.keys = r.keys.eraseIdx index ++ [sample.identityKey])
  stale : isStale nowMs sample.lastSeenMs r.book.staleClientMs → r'.update = r.update
  live : ¬ isStale nowMs sample.lastSeenMs r.book.staleClientMs →
    (∃ rate, r'.update.clients = r.update.clients ++ [rate] ∧
        r'.update.rejectedClients = r.update.rejectedClients ∧
        RateSound nowMs (r.pointsOf sample.identityKey) sample rate) ∨
      r'.update.clients = r.update.clients ∧
        r'.update.rejectedClients = r.update.rejectedClients ++ [sample.identityKey] ∧
        sample.identityKey ∉ r.keys ∧ r.book.clients.length = r.book.maxClients ∧
        ∀ c ∈ r.book.clients, ∃ point, c.latest = some point ∧
          ¬ isStale nowMs point.lastSeenMs r.book.staleClientMs

end RateRun

namespace RateBook

variable {index : Nat}

theorem record_book (nowMs : Nat) (timeRollback : Bool) (index : Nat) (state : ClientState) (book : RateBook)
    (update : RateUpdate) (sample : ClientCounters) :
    (record nowMs timeRollback index state book update sample).1 = { book with
      clients := book.clients.set index (state.push (counterPoint nowMs state.latest sample)) } := by
  unfold record
  dsimp only
  split_ifs <;> rfl

theorem record_stale (h : isStale nowMs sample.lastSeenMs book.staleClientMs) :
    (record nowMs timeRollback index state book update sample).2 = update := by
  unfold record
  dsimp only
  rw [if_pos h]

theorem record_live (h : ¬ isStale nowMs sample.lastSeenMs book.staleClientMs) :
    (record nowMs timeRollback index state book update sample).2.clients =
        update.clients ++ [(clientRate nowMs timeRollback state sample).1] ∧
      (record nowMs timeRollback index state book update sample).2.rejectedClients = update.rejectedClients := by
  unfold record
  dsimp only
  rw [if_neg h]
  exact ⟨rfl, rfl⟩

theorem keys_set {clients : List ClientState} (hget : clients[index]? = some state) (point : CounterPoint) :
    (clients.set index (state.push point)).map (·.identityKey) = clients.map (·.identityKey) := by
  obtain ⟨hlt, hget⟩ := List.getElem?_eq_some_iff.1 hget
  have hmap : index < (clients.map (·.identityKey)).length := by rwa [List.length_map]
  have hkey : (state.push point).identityKey = (clients.map (·.identityKey))[index] := by
    rw [List.getElem_map, hget]
    rfl
  rw [List.map_set, hkey, List.set_getElem_self]

/-- A push for one of several clients with different keys. -/
theorem holds_set {clients : List ClientState} {pushed : String → List CounterPoint}
    (hnodup : (clients.map (·.identityKey)).Nodup) (hholds : ∀ c ∈ clients, c.Holds (pushed c.identityKey))
    (hget : clients[index]? = some state) (point : CounterPoint) {c : ClientState}
    (hc : c ∈ clients.set index (state.push point)) :
    c.Holds (Function.update pushed state.identityKey (point :: pushed state.identityKey) c.identityKey) ∧
      (c.identityKey = state.identityKey ∨ c ∈ clients) := by
  obtain ⟨j, hj⟩ := List.mem_iff_getElem?.1 hc
  by_cases heq : index = j
  · obtain rfl : state.push point = c := by
      rw [← heq, List.getElem?_set_self (List.getElem?_eq_some_iff.1 hget).1] at hj
      exact Option.some.inj hj
    refine ⟨?_, .inl rfl⟩
    show (state.toHistoryRing.push point).Holds (Function.update pushed _ _ state.identityKey)
    rw [Function.update_self]
    exact (hholds state (List.mem_of_getElem? hget)).push point
  · rw [List.getElem?_set_ne heq] at hj
    have hmem := List.mem_of_getElem? hj
    have hne : c.identityKey ≠ state.identityKey := by
      intro hkey
      refine heq ((List.getElem?_inj ?_ hnodup).1 ?_)
      · rw [List.length_map]
        exact (List.getElem?_eq_some_iff.1 hget).1
      · rw [List.getElem?_map, List.getElem?_map, hget, hj, Option.map_some, Option.map_some, hkey]
    rw [Function.update_of_ne hne]
    exact ⟨hholds c hmem, .inr hmem⟩

end RateBook

namespace RateRun

variable {r : RateRun} {b : RateBook} {q : String → List CounterPoint} {index : Nat}

theorem head?_eq_latest (h : state.Holds points) : points.head? = state.latest := by
  rw [RateBook.point_zero h, List.head?_eq_getElem?]

/-- The run after a sample is recorded for a client of the book. -/
def recorded (nowMs : Nat) (timeRollback : Bool) (index : Nat) (state : ClientState) (b : RateBook) (update : RateUpdate)
    (q : String → List CounterPoint) (sample : ClientCounters) : RateRun :=
  let s := RateBook.record nowMs timeRollback index state b update sample
  ⟨s.1, s.2, Function.update q state.identityKey
    (RateBook.counterPoint nowMs state.latest sample :: q state.identityKey)⟩

theorem recorded_keys (hget : b.clients[index]? = some state) :
    (recorded nowMs timeRollback index state b update q sample).keys = b.clients.map (·.identityKey) := by
  unfold keys recorded
  dsimp only
  rw [RateBook.record_book]
  exact RateBook.keys_set hget _

theorem recorded_inv (hnodup : (b.clients.map (·.identityKey)).Nodup) (hle : b.clients.length ≤ b.maxClients)
    (hholds : ∀ c ∈ b.clients, c.Holds (q c.identityKey))
    (hne : ∀ c ∈ b.clients, c.identityKey ≠ state.identityKey → q c.identityKey ≠ [])
    (hget : b.clients[index]? = some state) :
    (recorded nowMs timeRollback index state b update q sample).Inv := by
  have hset := fun c => @RateBook.holds_set _ _ _ q hnodup hholds hget (RateBook.counterPoint nowMs state.latest sample) c
  have hbook := RateBook.record_book nowMs timeRollback index state b update sample
  refine ⟨?_, ?_, fun c hc => ?_, fun c hc => ?_⟩
  · rw [recorded_keys hget]
    exact hnodup
  · unfold recorded
    dsimp only
    rw [hbook, List.length_set]
    exact hle
  · unfold recorded at hc ⊢
    dsimp only at hc ⊢
    rw [hbook] at hc
    exact (hset c hc).1
  · unfold recorded at hc ⊢
    dsimp only at hc ⊢
    rw [hbook] at hc
    rw [Function.update_apply]
    split_ifs with hkey
    · exact List.cons_ne_nil _ _
    · exact hne c ((hset c hc).2.resolve_left hkey) hkey

theorem contains_iff_mem_keys {key : String} : r.book.contains key ↔ key ∈ r.keys := RateBook.contains_iff

theorem step_of_recorded (hget : b.clients[index]? = some state) (hkey : state.identityKey = sample.identityKey)
    (hstep : RateBook.updateSample nowMs timeRollback (r.book, r.update) sample =
      RateBook.record nowMs timeRollback index state b r.update sample)
    (hholds : state.Holds (r.pointsOf sample.identityKey)) (hq : q sample.identityKey = r.pointsOf sample.identityKey)
    (hpushed : ∀ key, key ≠ sample.identityKey → q key = r.pushed key) :
    r.step nowMs timeRollback sample = recorded nowMs timeRollback index state b r.update q sample := by
  have hcontains : (recorded nowMs timeRollback index state b r.update q sample).book.contains sample.identityKey := by
    rw [contains_iff_mem_keys, recorded_keys hget, ← hkey]
    exact List.mem_map_of_mem (List.mem_of_getElem? hget)
  unfold recorded at hcontains
  unfold step recorded
  dsimp only at hcontains ⊢
  rw [hstep, if_pos hcontains, head?_eq_latest hholds, hkey, hq]
  congr 1
  funext key
  rw [Function.update_apply, Function.update_apply]
  split_ifs with h
  · rfl
  · exact (hpushed key h).symm

/-- A sample that is recorded is published if it is live. -/
theorem recorded_sound (hholds : state.Holds points) :
    (isStale nowMs sample.lastSeenMs b.staleClientMs →
      (recorded nowMs timeRollback index state b update q sample).update = update) ∧
    (¬ isStale nowMs sample.lastSeenMs b.staleClientMs →
      ∃ rate, (recorded nowMs timeRollback index state b update q sample).update.clients = update.clients ++ [rate] ∧
        (recorded nowMs timeRollback index state b update q sample).update.rejectedClients = update.rejectedClients ∧
        RateSound nowMs points sample rate) :=
  ⟨fun h => RateBook.record_stale h, fun h =>
    ⟨_, (RateBook.record_live h).1, (RateBook.record_live h).2, RateBook.clientRate_sound hholds _ _⟩⟩

theorem Inv.step (h : r.Inv) (nowMs : Nat) (timeRollback : Bool) (sample : ClientCounters) :
    (r.step nowMs timeRollback sample).Inv ∧ SampleSound nowMs r sample (r.step nowMs timeRollback sample) := by
  rcases RateBook.updateSample_cases nowMs timeRollback h.length_le r.update sample with
    ⟨index, state, hget, hkey, hstep⟩ | ⟨hnew, ⟨hstale, hfull, hstep⟩ | ⟨hlive, hfull, hnone, hstep⟩ |
      ⟨clients, hclients, hlt, hstep⟩⟩
  · -- a client of the book
    have hmem := List.mem_of_getElem? hget
    have hcontains : r.book.contains sample.identityKey := by
      rw [RateBook.contains_iff, ← hkey]
      exact List.mem_map_of_mem hmem
    have hpoints : r.pointsOf sample.identityKey = r.pushed sample.identityKey := if_pos hcontains
    have hholds : state.Holds (r.pointsOf sample.identityKey) := by
      rw [hpoints, ← hkey]
      exact h.holds state hmem
    rw [step_of_recorded hget hkey hstep hholds hpoints.symm fun _ _ => rfl]
    refine ⟨recorded_inv h.nodup h.length_le h.holds (fun c hc _ => h.pushed c hc) hget, .inl (recorded_keys hget),
      (recorded_sound hholds).1, fun hlive => .inl ((recorded_sound hholds).2 hlive)⟩
  · -- a stale sample of a client for which there is no room
    have hr : r.step nowMs timeRollback sample = r := by
      unfold RateRun.step
      dsimp only
      rw [hstep, if_neg hnew]
    rw [hr]
    exact ⟨h, .inl rfl, fun _ => rfl, fun hlive => absurd hstale hlive⟩
  · -- a live one for which none can go
    have hr : r.step nowMs timeRollback sample = { r with update := { r.update with
        rejectedClients := r.update.rejectedClients ++ [sample.identityKey]
        warnings := pushUnique r.update.warnings .clientLimitExceeded } } := by
      unfold RateRun.step
      dsimp only
      rw [hstep, if_neg hnew]
    rw [hr]
    refine ⟨⟨h.nodup, h.length_le, h.holds, h.pushed⟩, .inl rfl, fun hstale => absurd hstale hlive, fun _ => .inr ⟨rfl, rfl,
      fun hmem => hnew (contains_iff_mem_keys.2 hmem), hfull, fun c hc => ?_⟩⟩
    have hlatest := RateBook.point_zero (h.holds c hc)
    cases hpoints : r.pushed c.identityKey with
    | nil => exact absurd hpoints (h.pushed c hc)
    | cons point points =>
      rw [hpoints, List.getElem?_cons_zero] at hlatest
      exact ⟨point, hlatest, fun hstale => hnone c hc ⟨point, hlatest, hstale⟩⟩
  · -- a new client, with the clients that stay
    have hnotin : sample.identityKey ∉ r.keys := fun hmem => hnew (contains_iff_mem_keys.2 hmem)
    have hsub : clients.Sublist r.book.clients := by
      rcases hclients with rfl | ⟨-, index, c, -, -, rfl⟩
      · exact .refl _
      · exact List.eraseIdx_sublist ..
    have hstay : ∀ c ∈ clients, c.identityKey ≠ sample.identityKey := by
      intro c hc heq
      exact hnotin (heq ▸ List.mem_map_of_mem (hsub.subset hc))
    have hpoints : r.pointsOf sample.identityKey = [] := if_neg hnew
    have hholds : (ClientState.new sample.identityKey).Holds (r.pointsOf sample.identityKey) := by
      rw [hpoints]
      exact HistoryRing.holds_empty (by decide)
    have hget : (clients ++ [ClientState.new sample.identityKey])[clients.length]? =
        some (ClientState.new sample.identityKey) := List.getElem?_concat_length
    have hupdate : ∀ key, key ≠ sample.identityKey →
        Function.update r.pushed sample.identityKey [] key = r.pushed key := fun key hne => Function.update_of_ne hne ..
    have hkeys : (clients ++ [ClientState.new sample.identityKey]).map (·.identityKey) =
        clients.map (·.identityKey) ++ [sample.identityKey] := List.map_append
    rw [step_of_recorded hget rfl hstep hholds (by rw [hpoints, Function.update_self]) hupdate]
    refine ⟨recorded_inv ?_ ?_ ?_ ?_ hget, ?_, fun hstale => (recorded_sound hholds).1 hstale, fun hlive =>
      .inl ((recorded_sound hholds).2 hlive)⟩
    · rw [hkeys]
      refine List.nodup_append.2 ⟨(hsub.map _).nodup h.nodup, List.nodup_singleton _, fun key hkey key' hkey' => ?_⟩
      rw [List.mem_singleton.1 hkey']
      rintro rfl
      exact hnotin ((hsub.map _).subset hkey)
    · rw [List.length_append, List.length_singleton]
      exact hlt
    · intro c hc
      rcases List.mem_append.1 hc with hc | hc
      · rw [hupdate _ (hstay c hc)]
        exact h.holds c (hsub.subset hc)
      · rw [List.mem_singleton.1 hc]
        show (ClientState.new sample.identityKey).Holds (Function.update r.pushed sample.identityKey [] sample.identityKey)
        rw [Function.update_self]
        exact HistoryRing.holds_empty (by decide)
    · intro c hc hne
      rcases List.mem_append.1 hc with hc | hc
      · rw [hupdate _ hne]
        exact h.pushed c (hsub.subset hc)
      · rw [List.mem_singleton.1 hc] at hne
        exact absurd rfl hne
    · right
      refine ⟨hnotin, ?_⟩
      rw [recorded_keys hget, hkeys]
      rcases hclients with rfl | ⟨hfull, index, c, hgetc, hevicted, rfl⟩
      · exact .inl rfl
      · refine .inr ⟨hfull, index, c, hgetc, hevicted, ?_⟩
        rw [keys, List.eraseIdx_map]

theorem Inv.beginUpdate (h : r.Inv) (nowMs : Nat) : Inv { r with
    book := (r.book.beginUpdate nowMs).1, update := (r.book.beginUpdate nowMs).2 } where
  nodup := (List.filter_sublist.map _).nodup h.nodup
  length_le := (List.length_filter_le ..).trans h.length_le
  holds c hc := h.holds c (List.mem_filter.1 hc).1
  pushed c hc := h.pushed c (List.mem_filter.1 hc).1

theorem Inv.afterSamples (h : r.Inv) (nowMs : Nat) (samples : List ClientCounters) : (r.afterSamples nowMs samples).Inv :=
  @Run.invariant _ _ _ _ (fun _ (r : RateRun) => r.Inv) (fun _ _ sample hr => (hr.step nowMs _ sample).1) []
    (h.beginUpdate nowMs) samples

theorem Inv.call (h : r.Inv) (c : Nat × List ClientCounters) : (r.call c).Inv :=
  have h' := h.afterSamples c.1 c.2
  ⟨h'.nodup, h'.length_le, h'.holds, h'.pushed⟩

theorem start_inv (maxClients staleClientMs : Nat) : (start maxClients staleClientMs).Inv where
  nodup := .nil
  length_le := Nat.zero_le _
  holds _ hc := by cases hc
  pushed _ hc := by cases hc

theorem runs_inv (maxClients staleClientMs : Nat) (calls : List (Nat × List ClientCounters)) :
    (calls.foldl call (start maxClients staleClientMs)).Inv :=
  @Run.invariant _ _ _ _ (fun _ (r : RateRun) => r.Inv) (fun _ _ c hr => hr.call c) [] (start_inv maxClients staleClientMs) calls

/-- The book against the points that were pushed. -/
structure BookSound (r : RateRun) : Prop where
  length_le : r.book.clients.length ≤ r.book.maxClients
  nodup : r.keys.Nodup
  count : ∀ c ∈ r.book.clients, c.count = min (r.pushed c.identityKey).length rateWindowCount
  points : ∀ c ∈ r.book.clients, ∀ i < c.count, c.pointFromLatest i = (r.pushed c.identityKey)[i]?

theorem Inv.bookSound (h : r.Inv) : r.BookSound where
  length_le := h.length_le
  nodup := h.nodup
  count c hc := (h.holds c hc).count
  points c hc i hi := by
    rw [ClientState.pointFromLatest, (h.holds c hc).fromLatest, if_pos (hi.trans_le (h.holds c hc).count_le)]

end RateRun

/-- In every state, also inside an update, the book is small, has a client once and knows the last points of each; and
every sample is published with rates from earlier points, stored, ignored or rejected, the last only if no client is
stale. -/
theorem rateBook_sound (maxClients staleClientMs : Nat) (calls : List (Nat × List ClientCounters)) :
    let r := calls.foldl RateRun.call (.start maxClients staleClientMs)
    r.book = calls.foldl (fun book c => (book.update c.1 c.2).1) (.new maxClients staleClientMs) ∧ r.BookSound ∧
      ∀ nowMs samples, (r.afterSamples nowMs samples).BookSound ∧ ∀ sample,
        RateRun.SampleSound nowMs (r.afterSamples nowMs samples) sample
          (r.afterSamples nowMs (samples ++ [sample])) := by
  intro r
  have hr : r.Inv := RateRun.runs_inv maxClients staleClientMs calls
  refine ⟨?_, hr.bookSound, fun nowMs samples => ⟨(hr.afterSamples nowMs samples).bookSound, fun sample => ?_⟩⟩
  · refine (List.foldl_hom (fun r : RateRun => r.book) fun r c => ?_).symm
    exact congrArg Prod.fst (r.call_book c).symm
  · have := ((hr.afterSamples nowMs samples).step nowMs (r.book.timeRollback nowMs) sample).2
    rwa [RateRun.afterSamples_concat]

/-- The received rate leaves the headers out. -/
theorem rateBook_displayRate :
    ¬ ∀ (calls : List (Nat × List ClientCounters)) (nowMs : Nat) (sample : ClientCounters) (rate : ClientRate),
      let r := calls.foldl RateRun.call (.start 0 5000)
      (r.afterSamples nowMs [sample]).update.clients = [rate] →
        rate.rxBps = 0 ∨ ∃ p ∈ r.pointsOf sample.identityKey, p.sampleMs < nowMs ∧ p.rxBytes ≤ sample.rxBytes ∧
          rate.rxBps = 8000 * (sample.rxBytes - p.rxBytes) / (nowMs - p.sampleMs) := by
  intro h
  have := h [(1000, [⟨"a", 0, 0, 0, 1000⟩])] 2000 ⟨"a", 0, 1000, 1, 2000⟩ ⟨"a", 0, 7472, 0, 1000, 2000, 2000, []⟩
    (by decide +kernel)
  exact absurd this (by decide +kernel)

end Lanspeedd
