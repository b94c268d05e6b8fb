import DOpenWrt.Lib.Except
import DOpenWrt.Oaf.GatewayHook

/-!
# When the mark is fresh

The handler sets the drop bit and the ignore bit when it writes an application id, and clears neither. So a bit left
by an earlier decision stays, and the mark says what the rules say exactly when no such bit was set before.
-/

namespace Oaf

/-! ### Bits -/

theorem getLsbD_or_nfDropBit (m : Mark) (i : ℕ) : (m ||| nfDropBit).getLsbD i = (m.getLsbD i || decide (i = 31)) := by
  have : nfDropBit = BitVec.twoPow 32 31 := by decide
  rw [this, BitVec.getLsbD_or, BitVec.getLsbD_twoPow]
  simp [eq_comm]

theorem getLsbD_or_nfIgnoreBit (m : Mark) (i : ℕ) :
    (m ||| nfIgnoreBit).getLsbD i = (m.getLsbD i || decide (i = 29)) := by
  have : nfIgnoreBit = BitVec.twoPow 32 29 := by decide
  rw [this, BitVec.getLsbD_or, BitVec.getLsbD_twoPow]
  simp [eq_comm]

theorem getLsbD_or_nfClientHelloBit (m : Mark) (i : ℕ) :
    (m ||| nfClientHelloBit).getLsbD i = (m.getLsbD i || decide (i = 30)) := by
  have : nfClientHelloBit = BitVec.twoPow 32 30 := by decide
  rw [this, BitVec.getLsbD_or, BitVec.getLsbD_twoPow]
  simp [eq_comm]

theorem getLsbD_and_not_twoPow (m : Mark) {i j : ℕ} (hi : i < 32) :
    (m &&& ~~~(BitVec.twoPow 32 j)).getLsbD i = (m.getLsbD i && decide (i ≠ j)) := by
  rw [BitVec.getLsbD_and, BitVec.getLsbD_not, BitVec.getLsbD_twoPow]
  rcases eq_or_ne i j with rfl | h
  · simp [hi]
  · simp [hi, h, h.symm]

theorem getLsbD_writeId (m id : Mark) {i : ℕ} (hi : i < 32) :
    ((m &&& 0xFFFF0000) ||| (id &&& 0xFFFF)).getLsbD i = if i < 16 then id.getLsbD i else m.getLsbD i := by
  have hhigh : (0xFFFF0000 : Mark).getLsbD i = decide (16 ≤ i) := by
    revert i
    decide
  have hlow : (0xFFFF : Mark).getLsbD i = decide (i < 16) := by
    revert i
    decide
  rw [BitVec.getLsbD_or, BitVec.getLsbD_and, BitVec.getLsbD_and, hhigh, hlow]
  by_cases h : i < 16
  · simp [h, Nat.not_le.2 h]
  · simp [h, Nat.not_lt.1 h]

/-- The client hello bit is set or cleared after the inspection of the payload. -/
def setClientHello (b : Bool) (m : Mark) : Mark := if b then m ||| nfClientHelloBit else m &&& ~~~nfClientHelloBit

theorem getLsbD_setClientHello (b : Bool) (m : Mark) {i : ℕ} (hi : i < 32) (h : i ≠ 30) :
    (setClientHello b m).getLsbD i = m.getLsbD i := by
  have hbit : nfClientHelloBit = BitVec.twoPow 32 30 := by decide
  cases b
  · rw [setClientHello, if_neg (by decide), hbit, getLsbD_and_not_twoPow m hi]
    simp [h]
  · rw [setClientHello, if_pos rfl, getLsbD_or_nfClientHelloBit]
    simp [h]

/-! ### What a step is to do -/

section

variable (cfg : Settings) (p : Packet) (client : Mac) (mark : Mark)

/-- The QUIC switch applies to the packet. -/
def quicBlocked : Bool := cfg.enabled && cfg.gDisableQuic ≠ 0 && p.quic && cfg.matchAppFilterUser client

/-- The decision for an application of the packet: the QUIC switch or the rules. -/
def ruleDecision (appId : BitVec 32) : Except Fault Bool :=
  if quicBlocked cfg p client then .ok true else cfg.matchAppFilterRule client appId

/-- No feature is matched against a packet that the QUIC switch blocks. -/
def matchedFeature : Option FeatureNode := if quicBlocked cfg p client then none else p.feature

def matchedApp : BitVec 32 :=
  if quicBlocked cfg p client then appidQuic else flowAppId p.feature

def matchedIgnore : Bool := (matchedFeature cfg p client).any (·.ignore ≠ 0)

/-- The mark says what has just been decided: the id that was written, the rules' decision in the drop bit and the
feature's in the ignore bit. Bits 16 to 28 are as they were, and nothing is dropped while the filter is off. -/
structure Fresh (r : HookResult) : Prop where
  id : ∀ client ∈ p.client, ∀ appId ∈ r.written, cfg.enabled → ∀ i < 16, r.mark.getLsbD i = appId.getLsbD i
  drop : ∀ client ∈ p.client, ∀ appId ∈ r.written, cfg.enabled →
    ruleDecision cfg p client appId = .ok (r.mark.getLsbD 31)
  ignore : ∀ client ∈ p.client, ∀ appId ∈ r.written, cfg.enabled → r.mark.getLsbD 29 = matchedIgnore cfg p client
  kept : ∀ i, 16 ≤ i → i ≤ 28 → r.mark.getLsbD i = mark.getLsbD i
  verdict : r.verdict = .drop → cfg.enabled

/-- The mark alone decides the packet. -/
def decidedByMark : Bool :=
  mark ≠ 0 &&
    (cfg.enabled && cfg.gDisableQuic ≠ 0 && mark &&& 0xffff = appidQuic && mark &&& nfDropBit = nfDropBit ||
      cfg.enabled && cfg.gAppFilterMode ≠ 0 && mark &&& nfDropBit = nfDropBit ||
      1000 < mark &&& 0xffff && mark &&& 0xffff < 32000)

/-- The packet of the client gets as far as the QUIC switch. -/
structure Inspected : Prop where
  lan : p.lan
  parsed : p.parsed
  tracked : p.tracked
  confirmed : ¬ (p.l4Protocol = ipprotoTcp ∧ p.confirmed = false)
  client : p.client = some client
  undecided : decidedByMark cfg mark = false
  packets : ∃ n ∈ p.totalPackets, n ≤ maxDpiPktNum

/-- The packet is classified: by the QUIC switch, by a feature or by the mode for all applications. -/
def classified : Bool := quicBlocked cfg p client || p.readable && (p.feature.isSome || cfg.gAppFilterMode ≠ 0)

/-- No bit of an earlier decision is set that the decision for this packet would not set. -/
def NoStaleBit : Prop :=
  ∀ client, Inspected cfg p client mark → classified cfg p client → cfg.enabled →
    ∀ d, ruleDecision cfg p client (matchedApp cfg p client) = .ok d →
      (mark.getLsbD 31 → d) ∧ (mark.getLsbD 29 → matchedIgnore cfg p client)

end

/-! ### One step -/

section

variable {cfg : Settings} {p : Packet} {client : Mac} {mark : Mark} {r : HookResult}

/-- The three early returns of a mark, as the handler tests them. -/
theorem decidedByMark_eq_false : decidedByMark cfg mark = false ↔ mark = 0 ∨
    (cfg.enabled && cfg.gDisableQuic ≠ 0 && mark &&& 0xffff = appidQuic && mark &&& nfDropBit = nfDropBit) = false ∧
    (cfg.enabled && cfg.gAppFilterMode ≠ 0 && mark &&& nfDropBit = nfDropBit) = false ∧
    (1000 < mark &&& 0xffff && mark &&& 0xffff < 32000) = false := by
  rw [decidedByMark, Bool.and_eq_false_iff, Bool.or_eq_false_iff, Bool.or_eq_false_iff, and_assoc]
  simp

/-- An inspected packet goes through the second half of the handler. -/
theorem Inspected.handle_eq (h : Inspected cfg p client mark) :
    ∃ hello, appFilterHookGatewayHandle cfg p mark = inspect cfg p client mark hello := by
  simp only [appFilterHookGatewayHandle, h.lan, h.parsed, h.tracked, h.client, Bool.not_true, Bool.false_eq_true,
    if_false]
  rw [if_neg (by simpa using h.confirmed)]
  by_cases hm : mark = 0
  · exact ⟨false, by rw [if_neg (not_not.2 hm)]⟩
  · obtain ⟨hquic, hmode, hid⟩ := (decidedByMark_eq_false.1 h.undecided).resolve_left hm
    refine ⟨mark &&& nfClientHelloBit ≠ 0, ?_⟩
    simp only [if_pos hm, hquic, hmode, hid, Bool.false_eq_true, if_false]

/-- The step writes no id and leaves the low bits alone. -/
structure WritesNoId (cfg : Settings) (mark : Mark) (r : HookResult) : Prop where
  written : r.written = none
  verdict : r.verdict = .drop → cfg.enabled
  kept : ∀ i ≤ 28, r.mark.getLsbD i = mark.getLsbD i

theorem writesNoId_accept (h : (.ok ⟨mark, .accept, none⟩ : Except Fault HookResult) = .ok r) :
    WritesNoId cfg mark r := by
  cases h
  exact ⟨rfl, nofun, fun _ _ => rfl⟩

theorem writesNoId_drop (henabled : cfg.enabled) (h : (.ok ⟨mark, .drop, none⟩ : Except Fault HookResult) = .ok r) :
    WritesNoId cfg mark r := by
  cases h
  exact ⟨rfl, fun _ => henabled, fun _ _ => rfl⟩

theorem reevaluate_writesNoId (h : reevaluate cfg client mark = .ok r) : WritesNoId cfg mark r := by
  rw [reevaluate] at h
  obtain ⟨changed, -, h⟩ := Except.bind_eq_ok.1 h
  cases h
  refine ⟨rfl, fun hdrop => ?_, fun i hi => ?_⟩
  · by_contra hoff
    simp [hoff] at hdrop
  · have hbit : nfDropBit = BitVec.twoPow 32 31 := by decide
    cases changed
    · rfl
    · simp only [if_true]
      split
      · rw [hbit, getLsbD_and_not_twoPow mark (by omega)]
        simp [show i ≠ 31 by omega]
      · rw [getLsbD_or_nfDropBit]
        simp [show i ≠ 31 by omega]

theorem inspect_writesNoId (hello : Bool) (hp : ¬ ∃ n ∈ p.totalPackets, n ≤ maxDpiPktNum)
    (h : inspect cfg p client mark hello = .ok r) : WritesNoId cfg mark r := by
  rw [inspect] at h
  cases hn : p.totalPackets with
  | none =>
    rw [hn] at h
    exact writesNoId_accept h
  | some n =>
    have hlt : maxDpiPktNum < n := by
      by_contra hle
      exact hp ⟨n, hn, Nat.not_lt.1 hle⟩
    simp only [hn, gt_iff_lt, if_pos hlt] at h
    exact writesNoId_accept h

/-- A packet that is not inspected writes no id. -/
theorem writesNoId_or_inspected (h : appFilterHookGatewayHandle cfg p mark = .ok r) :
    WritesNoId cfg mark r ∨ ∃ client, Inspected cfg p client mark := by
  rw [or_iff_not_imp_right]
  intro hni
  simp only [appFilterHookGatewayHandle] at h
  split at h
  · exact writesNoId_accept h
  next hlan =>
  split at h
  · exact writesNoId_accept h
  next hparsed =>
  split at h
  · exact writesNoId_accept h
  next htracked =>
  split at h
  · exact writesNoId_accept h
  next hconfirmed =>
  split at h
  · exact writesNoId_accept h
  next client hclient =>
  have hpackets : decidedByMark cfg mark = false → ¬ ∃ n ∈ p.totalPackets, n ≤ maxDpiPktNum := fun hd hn =>
    hni ⟨client, by simpa using hlan, by simpa using hparsed, by simpa using htracked, by simpa using hconfirmed,
      hclient, hd, hn⟩
  split at h
  · split at h
    · next hquic =>
      simp only [Bool.and_eq_true] at hquic
      exact writesNoId_drop hquic.1.1.1 h
    next hquic =>
    split at h
    · next hmode =>
      simp only [Bool.and_eq_true] at hmode
      exact writesNoId_drop hmode.1.1 h
    next hmode =>
    split at h
    · exact reevaluate_writesNoId h
    next hid =>
    refine inspect_writesNoId _ (hpackets (decidedByMark_eq_false.2 (.inr ⟨?_, ?_, ?_⟩))) h
    · exact Bool.eq_false_of_not_eq_true hquic
    · exact Bool.eq_false_of_not_eq_true hmode
    · exact Bool.eq_false_of_not_eq_true hid
  · next hm => exact inspect_writesNoId _ (hpackets (decidedByMark_eq_false.2 (.inl (not_not.1 hm)))) h

/-- What the handler does with an inspected packet. -/
theorem Inspected.handle_inspect (hi : Inspected cfg p client mark) :
    ∃ hello, appFilterHookGatewayHandle cfg p mark =
      if quicBlocked cfg p client then
        .ok ⟨((mark &&& 0xFFFF0000) ||| (appidQuic &&& 0xFFFF)) ||| nfDropBit, .drop, some appidQuic⟩
      else if !p.readable then .ok ⟨mark, .accept, none⟩
      else if p.feature.isNone && cfg.gAppFilterMode = 0 then .ok ⟨setClientHello hello mark, .accept, none⟩
      else firstMatch cfg p client (setClientHello hello mark) := by
  obtain ⟨hello, heq⟩ := hi.handle_eq
  obtain ⟨n, hn, hle⟩ := hi.packets
  refine ⟨p.dpiMain hello, ?_⟩
  rw [heq, inspect, Option.mem_def.1 hn]
  simp only [gt_iff_lt, Nat.not_lt.2 hle, if_false]
  rfl

/-- An inspected packet that is not classified writes no id. -/
theorem Inspected.writesNoId (hi : Inspected cfg p client mark) (hc : classified cfg p client = false)
    (h : appFilterHookGatewayHandle cfg p mark = .ok r) : WritesNoId cfg mark r := by
  obtain ⟨hello, heq⟩ := hi.handle_inspect
  rw [classified, Bool.or_eq_false_iff] at hc
  obtain ⟨hquic, hread⟩ := hc
  rw [heq, hquic, if_neg Bool.false_ne_true] at h
  cases hr : p.readable with
  | false =>
    rw [hr] at h
    exact writesNoId_accept h
  | true =>
    have hnone : (p.feature.isNone && decide (cfg.gAppFilterMode = 0)) = true := by
      rw [hr, Bool.true_and, Bool.or_eq_false_iff] at hread
      cases hf : p.feature with
      | some f => simp [hf] at hread
      | none => simpa using hread.2
    rw [hr, Bool.not_true, if_neg Bool.false_ne_true, if_pos hnone] at h
    cases h
    exact ⟨rfl, nofun, fun i hi => getLsbD_setClientHello hello mark (by omega) (by omega)⟩

theorem Inspected.quic (hi : Inspected cfg p client mark) (hq : quicBlocked cfg p client = true) :
    appFilterHookGatewayHandle cfg p mark =
      .ok ⟨((mark &&& 0xFFFF0000) ||| (appidQuic &&& 0xFFFF)) ||| nfDropBit, .drop, some appidQuic⟩ := by
  obtain ⟨hello, heq⟩ := hi.handle_inspect
  rw [heq, hq, if_pos rfl]

theorem Inspected.firstMatch (hi : Inspected cfg p client mark) (hq : quicBlocked cfg p client = false)
    (hc : classified cfg p client = true) :
    ∃ hello, appFilterHookGatewayHandle cfg p mark = firstMatch cfg p client (setClientHello hello mark) := by
  obtain ⟨hello, heq⟩ := hi.handle_inspect
  rw [classified, hq, Bool.false_or, Bool.and_eq_true] at hc
  obtain ⟨hr, hmatch⟩ := hc
  refine ⟨hello, ?_⟩
  rw [heq, hq, if_neg Bool.false_ne_true, hr, Bool.not_true, if_neg Bool.false_ne_true, if_neg]
  cases hf : p.feature with
  | some f => simp
  | none => simpa [hf] using hmatch

/-! ### The bits of a written mark -/

theorem getLsbD_quicMark {i : ℕ} (hi : i < 32) :
    (((mark &&& 0xFFFF0000) ||| (appidQuic &&& 0xFFFF)) ||| nfDropBit).getLsbD i =
      if i < 16 then appidQuic.getLsbD i else mark.getLsbD i || decide (i = 31) := by
  rw [getLsbD_or_nfDropBit, getLsbD_writeId mark appidQuic hi]
  by_cases h : i < 16
  · simp [h, show i ≠ 31 by omega]
  · simp [h]

/-- The mark with the id and the ignore bit of the first match. -/
def matchMark (mark : Mark) (appId : BitVec 32) (ignore : Bool) : Mark :=
  let mark := (mark &&& 0xFFFF0000) ||| (appId &&& 0xFFFF)
  if ignore then mark ||| nfIgnoreBit else mark

theorem getLsbD_matchMark (appId : BitVec 32) (ignore : Bool) {i : ℕ} (hi : i < 32) :
    (matchMark mark appId ignore).getLsbD i =
      if i < 16 then appId.getLsbD i else mark.getLsbD i || decide (i = 29) && ignore := by
  rw [matchMark]
  cases ignore
  · rw [if_neg Bool.false_ne_true, getLsbD_writeId mark appId hi]
    simp
  · rw [if_pos rfl, getLsbD_or_nfIgnoreBit, getLsbD_writeId mark appId hi]
    by_cases h : i < 16
    · simp [h, show i ≠ 29 by omega]
    · simp [h]

/-- With the switch on, the first match asks the rules. -/
theorem firstMatch_eq (hq : quicBlocked cfg p client = false) (he : cfg.enabled) :
    firstMatch cfg p client mark = do
      let matched ← ruleDecision cfg p client (matchedApp cfg p client)
      let m := matchMark mark (matchedApp cfg p client) (matchedIgnore cfg p client)
      return if matched then ⟨m ||| nfDropBit, .drop, some (matchedApp cfg p client)⟩
        else ⟨m, .accept, some (matchedApp cfg p client)⟩ := by
  simp only [firstMatch, he, if_true, ruleDecision, matchedApp, matchedIgnore, matchedFeature, matchMark, hq,
    Bool.false_eq_true, if_false]

theorem firstMatch_spec (hq : quicBlocked cfg p client = false) (he : cfg.enabled)
    (h : firstMatch cfg p client mark = .ok r) :
    ∃ d, ruleDecision cfg p client (matchedApp cfg p client) = .ok d ∧
      r.written = some (matchedApp cfg p client) ∧
      ∀ i < 32, r.mark.getLsbD i = if i < 16 then (matchedApp cfg p client).getLsbD i else
        mark.getLsbD i || decide (i = 29) && matchedIgnore cfg p client || decide (i = 31) && d := by
  rw [firstMatch_eq hq he] at h
  obtain ⟨d, hd, h⟩ := Except.bind_eq_ok.1 h
  refine ⟨d, hd, ?_⟩
  cases d
  · cases h
    refine ⟨rfl, fun i hi => ?_⟩
    simpa using getLsbD_matchMark (matchedApp cfg p client) (matchedIgnore cfg p client) hi
  · cases h
    refine ⟨rfl, fun i hi => ?_⟩
    simp only [if_true, getLsbD_or_nfDropBit, getLsbD_matchMark _ _ hi]
    by_cases h16 : i < 16
    · simp [h16, show i ≠ 31 by omega]
    · simp [h16]

/-- With the switch off, the first match accepts and keeps bits 16 to 28. -/
theorem firstMatch_disabled (he : cfg.enabled = false) (h : firstMatch cfg p client mark = .ok r) :
    r.verdict = .accept ∧ ∀ i, 16 ≤ i → i ≤ 28 → r.mark.getLsbD i = mark.getLsbD i := by
  simp only [firstMatch, he, Bool.false_eq_true, if_false] at h
  cases h
  refine ⟨rfl, fun i h16 h28 => ?_⟩
  refine (getLsbD_matchMark _ _ (by omega)).trans ?_
  rw [if_neg (by omega)]
  simp [show i ≠ 29 by omega]

/-! ### Freshness -/

/-- Bits 16 to 28 are kept and packets are dropped only with the switch on, whatever the mark was. -/
theorem kept_and_verdict (h : appFilterHookGatewayHandle cfg p mark = .ok r) :
    (∀ i, 16 ≤ i → i ≤ 28 → r.mark.getLsbD i = mark.getLsbD i) ∧ (r.verdict = .drop → cfg.enabled) := by
  rcases writesNoId_or_inspected h with hno | ⟨client, hi⟩
  · exact ⟨fun i _ h28 => hno.kept i h28, hno.verdict⟩
  cases hc : classified cfg p client with
  | false =>
    have hno := hi.writesNoId hc h
    exact ⟨fun i _ h28 => hno.kept i h28, hno.verdict⟩
  | true =>
    cases hq : quicBlocked cfg p client with
    | true =>
      rw [hi.quic hq] at h
      cases h
      refine ⟨fun i h16 h28 => ?_, fun _ => ?_⟩
      · rw [getLsbD_quicMark (by omega), if_neg (by omega)]
        simp [show i ≠ 31 by omega]
      · simp only [quicBlocked, Bool.and_eq_true] at hq
        exact hq.1.1.1
    | false =>
      obtain ⟨hello, heq⟩ := hi.firstMatch hq hc
      rw [heq] at h
      have hhello : ∀ i, 16 ≤ i → i ≤ 28 → (setClientHello hello mark).getLsbD i = mark.getLsbD i := fun i _ h28 =>
        getLsbD_setClientHello hello mark (by omega) (by omega)
      cases he : cfg.enabled with
      | false =>
        obtain ⟨hv, hk⟩ := firstMatch_disabled he h
        exact ⟨fun i h16 h28 => (hk i h16 h28).trans (hhello i h16 h28), fun hd => by simp [hv] at hd⟩
      | true =>
        obtain ⟨d, -, -, hbits⟩ := firstMatch_spec hq he h
        refine ⟨fun i h16 h28 => ?_, fun _ => rfl⟩
        rw [hbits i (by omega), if_neg (by omega), hhello i h16 h28]
        simp [show i ≠ 29 by omega, show i ≠ 31 by omega]

/-- What a classified packet does to the mark with the switch on. -/
theorem Inspected.written (hi : Inspected cfg p client mark) (hc : classified cfg p client) (he : cfg.enabled)
    (h : appFilterHookGatewayHandle cfg p mark = .ok r) :
    ∃ d, ruleDecision cfg p client (matchedApp cfg p client) = .ok d ∧
      r.written = some (matchedApp cfg p client) ∧
      ∀ i < 32, i ≠ 30 → r.mark.getLsbD i = if i < 16 then (matchedApp cfg p client).getLsbD i else
        mark.getLsbD i || decide (i = 29) && matchedIgnore cfg p client || decide (i = 31) && d := by
  cases hq : quicBlocked cfg p client with
  | true =>
    rw [hi.quic hq] at h
    cases h
    have happ : matchedApp cfg p client = appidQuic := by rw [matchedApp, hq, if_pos rfl]
    have hign : matchedIgnore cfg p client = false := by rw [matchedIgnore, matchedFeature, hq, if_pos rfl]; rfl
    refine ⟨true, by rw [ruleDecision, hq, if_pos rfl], by rw [happ], fun i hi _ => ?_⟩
    rw [getLsbD_quicMark hi, happ, hign]
    simp
  | false =>
    obtain ⟨hello, heq⟩ := hi.firstMatch hq hc
    rw [heq] at h
    obtain ⟨d, hd, hw, hbits⟩ := firstMatch_spec hq he h
    refine ⟨d, hd, hw, fun i hi h30 => ?_⟩
    rw [hbits i hi, getLsbD_setClientHello hello mark hi h30]

theorem Inspected.handles (hi : Inspected cfg p client mark) (hc : classified cfg p client) (he : cfg.enabled) {d : Bool}
    (hd : ruleDecision cfg p client (matchedApp cfg p client) = .ok d) :
    ∃ r, appFilterHookGatewayHandle cfg p mark = .ok r := by
  cases hq : quicBlocked cfg p client with
  | true => exact ⟨_, hi.quic hq⟩
  | false =>
    obtain ⟨hello, heq⟩ := hi.firstMatch hq hc
    rw [heq, firstMatch_eq hq he, hd]
    exact ⟨_, rfl⟩

/-- A step is fresh exactly when the mark has no stale bit. -/
theorem fresh_iff : (∀ r, appFilterHookGatewayHandle cfg p mark = .ok r → Fresh cfg p mark r) ↔
    NoStaleBit cfg p mark := by
  constructor
  · intro hf client hi hc he d hd
    obtain ⟨r, h⟩ := hi.handles hc he hd
    obtain ⟨d', hd', hw, hbits⟩ := hi.written hc he h
    cases hd.symm.trans hd'
    have hdrop := (hf r h).drop client hi.client _ hw he
    have hignore := (hf r h).ignore client hi.client _ hw he
    rw [hd, Except.ok.injEq, hbits 31 (by decide) (by decide)] at hdrop
    rw [hbits 29 (by decide) (by decide)] at hignore
    refine ⟨fun h31 => ?_, fun h29 => ?_⟩
    · simpa [h31] using hdrop
    · simpa [h29] using hignore.symm
  · intro hs r h
    obtain ⟨hkept, hverdict⟩ := kept_and_verdict h
    -- a written id comes from a classified packet of the same client
    have hspec : ∀ client ∈ p.client, ∀ appId ∈ r.written, cfg.enabled →
        ∃ d, ruleDecision cfg p client appId = .ok d ∧ (mark.getLsbD 31 → d) ∧
          (mark.getLsbD 29 → matchedIgnore cfg p client) ∧
          ∀ i < 32, i ≠ 30 → r.mark.getLsbD i = if i < 16 then appId.getLsbD i else
            mark.getLsbD i || decide (i = 29) && matchedIgnore cfg p client || decide (i = 31) && d := by
      intro client hclient appId happ he
      rcases writesNoId_or_inspected h with hno | ⟨client', hi⟩
      · rw [hno.written] at happ
        cases happ
      obtain rfl : client = client' := Option.some.inj (hclient.symm.trans hi.client)
      have hc : classified cfg p client := by
        by_contra hc
        have hno := hi.writesNoId (Bool.eq_false_of_not_eq_true hc) h
        rw [hno.written] at happ
        cases happ
      obtain ⟨d, hd, hw, hbits⟩ := hi.written hc he h
      cases Option.some.inj (hw.symm.trans happ)
      obtain ⟨hdrop, hignore⟩ := hs client hi hc he d hd
      exact ⟨d, hd, hdrop, hignore, hbits⟩
    refine ⟨?_, ?_, ?_, hkept, hverdict⟩
    · intro client hclient appId happ he i h16
      obtain ⟨d, -, -, -, hbits⟩ := hspec client hclient appId happ he
      rw [hbits i (by omega) (by omega), if_pos h16]
    · intro client hclient appId happ he
      obtain ⟨d, hd, hdrop, -, hbits⟩ := hspec client hclient appId happ he
      rw [hd, hbits 31 (by decide) (by decide)]
      cases h31 : mark.getLsbD 31 with
      | false => simp
      | true => simp [hdrop h31]
    · intro client hclient appId happ he
      obtain ⟨d, -, -, hignore, hbits⟩ := hspec client hclient appId happ he
      rw [hbits 29 (by decide) (by decide)]
      cases h29 : mark.getLsbD 29 with
      | false => simp
      | true => simp [hignore h29]

/-! ### Runs -/

/-- One packet under the configuration of its moment. -/
def markStep (mark : Mark) (input : Settings × Packet) : Except Fault Mark :=
  HookResult.mark <$> appFilterHookGatewayHandle input.1 input.2 mark

/-- Every packet of a flow finds a mark without stale bits exactly when every packet leaves a fresh mark. -/
theorem run_fresh_iff (mark : Mark) (inputs : List (Settings × Packet)) :
    Run.MeetsM markStep (fun mark input => ∀ r,
        appFilterHookGatewayHandle input.1 input.2 mark = .ok r → Fresh input.1 input.2 mark r) mark inputs ↔
      Run.MeetsM markStep (fun mark input => NoStaleBit input.1 input.2 mark) mark inputs :=
  Run.meetsM_congr (fun _ _ => fresh_iff) mark inputs

end

/-- The filter on with the QUIC switch on or off, nothing filtered, for the two packets of the flow. -/
def quicSettings (gDisableQuic : ℤ) : Settings := ⟨1, 0, gDisableQuic, 0, AfRules.init, 4000000, 0, 1000⟩

def flowPacket (quic : Bool) (feature : Option FeatureNode) : Packet where
  lan := true
  parsed := true
  l4Protocol := 17
  tracked := true
  confirmed := false
  client := some ⟨2, 0, 0, 0, 0, 1⟩
  totalPackets := some 1
  quic := quic
  readable := true
  dpiMain := id
  feature := feature

/-- A QUIC packet is dropped, then the QUIC switch is turned off, then a feature of an application that is not
filtered is matched: the id of that application is written and the drop bit stays. -/
theorem stale_drop_after_quic :
    ∃ r, appFilterHookGatewayHandle (quicSettings 0) (flowPacket false (some ⟨1001, 0⟩)) 0x8000000a = .ok r ∧
      appFilterHookGatewayHandle (quicSettings 1) (flowPacket true none) 0 = .ok ⟨0x8000000a, .drop, some 10⟩ ∧
      r.written = some 1001 ∧ r.mark = 0x800003e9 ∧
      ruleDecision (quicSettings 0) (flowPacket false (some ⟨1001, 0⟩)) ⟨2, 0, 0, 0, 0, 1⟩ 1001 = .ok false ∧
      ¬ Run.MeetsM markStep (fun mark input => ∀ r,
        appFilterHookGatewayHandle input.1 input.2 mark = .ok r → Fresh input.1 input.2 mark r) 0
          [(quicSettings 1, flowPacket true none), (quicSettings 0, flowPacket false (some ⟨1001, 0⟩))] := by
  have hfirst : appFilterHookGatewayHandle (quicSettings 1) (flowPacket true none) 0 =
      .ok ⟨0x8000000a, .drop, some 10⟩ := rfl
  have hsecond : appFilterHookGatewayHandle (quicSettings 0) (flowPacket false (some ⟨1001, 0⟩)) 0x8000000a =
      .ok ⟨0x800003e9, .accept, some 1001⟩ := rfl
  have hrule : ruleDecision (quicSettings 0) (flowPacket false (some ⟨1001, 0⟩)) ⟨2, 0, 0, 0, 0, 1⟩ 1001 = .ok false :=
    rfl
  refine ⟨_, hsecond, hfirst, rfl, rfl, hrule, fun h => ?_⟩
  have hfresh := (h.2 0x8000000a (by rw [markStep, hfirst]; rfl)).1 _ hsecond
  have := hfresh.drop _ rfl _ rfl rfl
  rw [hrule] at this
  cases this

end Oaf
