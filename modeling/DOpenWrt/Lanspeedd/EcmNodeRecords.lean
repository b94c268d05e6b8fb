import DOpenWrt.Lib.RecordFold
import DOpenWrt.Lanspeedd.EcmNode

/-!
# The records of an ECM node snapshot

A record is an address line and the lines up to the next one. What a record adds is a function of its own lines, and
`parse` gives the sums of what the records add.
-/

namespace Lanspeedd.EcmNode

open Std LineStream RecordFold
open RateWindow (TrafficCounters)

attribute [local instance] lexOrd

/-! ### Lines -/

inductive NodeLine
  | address (value : List Char)
  | counter (slot : NodeField) (value : Option UInt64)
  | unreadable
  | other

def classify (line : List UInt8) : NodeLine :=
  if maxLineBytes < line.length then .unreadable
  else
    match fromUtf8 line with
    | none => .unreadable
    | some text =>
      match splitOnce '=' (trim text) with
      | none => if trim text ≠ [] then .unreadable else .other
      | some (key, value) =>
        if key = "nodes.node.address".toList then .address value
        else
          match slotOf key with
          | none => .other
          | some slot => .counter slot ((parseUnsigned 64 value).map UInt64.ofBitVec)

def NodeLine.isAddress : NodeLine → Bool
  | address _ => true
  | _ => false

/-- Not a readable line, or a counter that is no number. -/
def NodeLine.isBad : NodeLine → Bool
  | unreadable => true
  | counter _ none => true
  | _ => false

/-- The value of a counter line. -/
def NodeLine.value? (slot : NodeField) : NodeLine → Option UInt64
  | counter slot' value => if slot' = slot then value else none
  | _ => none

def isAddressLine (line : List UInt8) : Bool := (classify line).isAddress

/-! ### Records -/

/-- The identity of an address, if it has exactly one. -/
def uniqueOwner (identities : List IdentityKey) (mac : MacAddress) : Option IdentityKey :=
  match identities.filter fun identity => identity.mac = mac with
  | [identity] => some identity
  | _ => none

/-- The numbers that the lines give for a field. -/
def fieldValues (slot : NodeField) (body : List (List UInt8)) : List UInt64 :=
  body.filterMap fun line => (classify line).value? slot

/-- The number that the lines give for a field, if they give just one. -/
def fieldValue (body : List (List UInt8)) (slot : NodeField) : Option UInt64 :=
  match fieldValues slot body with
  | [value] => some value
  | _ => none

def addressMac (line : List UInt8) : Option MacAddress :=
  match classify line with
  | .address value => macFromStr value
  | _ => none

/-- What a record adds, and to what: its address is that of one identity, none of its lines is bad, and each field has
one value. -/
def recordCounters (identities : List IdentityKey) (record : List UInt8 × List (List UInt8)) :
    Option ((IdentityKey × UInt64) × TrafficCounters) := do
  let mac ← addressMac record.1
  let identity ← uniqueOwner identities mac
  if record.2.any fun line => (classify line).isBad then none
  else
    let (generation, counters) ← complete (fieldValue record.2)
    return ((identity, generation), counters)

def nodeRecords (stream : List UInt8) : List (List UInt8 × List (List UInt8)) := records isAddressLine (lines 10 stream)

/-- What the records of a stream add. -/
def streamCounters (identities : List IdentityKey) (stream : List UInt8) : List ((IdentityKey × UInt64) × TrafficCounters) :=
  (nodeRecords stream).filterMap (recordCounters identities)

/-! ### The pending node -/

def PendingNode.start (line : List UInt8) : PendingNode := { mac := addressMac line, malformed := (addressMac line).isNone }

def PendingNode.more (pending : PendingNode) (line : List UInt8) : PendingNode :=
  match classify line with
  | .unreadable => { pending with malformed := true }
  | .counter _ none => { pending with malformed := true }
  | .counter slot (some value) =>
    { pending with
      slots := Function.update pending.slots slot (some value)
      malformed := pending.malformed || (pending.slots slot).isSome }
  | _ => pending

/-- What a finished node adds, and to what. -/
def PendingNode.added (owners : MacAddress → Option (Option String)) (pending : PendingNode) :
    Option ((String × UInt64) × TrafficCounters) := do
  let mac ← pending.mac
  let identityKey ← (owners mac).join
  if pending.malformed then none
  else
    let (generation, counters) ← complete pending.slots
    return ((identityKey, generation), counters)

def addCounters (totals counters : TrafficCounters) : TrafficCounters where
  txBytes := RateWindow.saturatingAdd64 totals.txBytes counters.txBytes
  rxBytes := RateWindow.saturatingAdd64 totals.rxBytes counters.rxBytes
  txPackets := RateWindow.saturatingAdd64 totals.txPackets counters.txPackets
  rxPackets := RateWindow.saturatingAdd64 totals.rxPackets counters.rxPackets

def addEntry (out : Aggregate × ℕ) (entry : (String × UInt64) × TrafficCounters) : Aggregate × ℕ :=
  (out.1.insert entry.1 (addCounters ((out.1[entry.1]?).getD noTraffic) entry.2), saturatingAdd out.2 1)

def flush (owners : MacAddress → Option (Option String)) (pending : PendingNode) (out : Aggregate × ℕ) : Aggregate × ℕ :=
  (pending.added owners).elim out (addEntry out)

def nodeLoop (owners : MacAddress → Option (Option String)) : Loop (List UInt8) PendingNode (Aggregate × ℕ) where
  start := PendingNode.start
  more := PendingNode.more
  flush := flush owners

/-- What the loop over the lines keeps of the state of `parse`. -/
def ParseState.core (s : ParseState) : PendingNode × Aggregate × ℕ := (s.pending, s.aggregate, s.stats.nodesMatched)

section
variable {owners : MacAddress → Option (Option String)} {s : ParseState}

theorem finishNode_pending (owners : MacAddress → Option (Option String)) (s : ParseState) :
    (finishNode owners s).pending = {} := by
  unfold finishNode
  dsimp only
  split
  · rfl
  · split
    · rfl
    · split
      · rfl
      · rfl
      · split <;> rfl

theorem finishNode_core (owners : MacAddress → Option (Option String)) (s : ParseState) :
    ((finishNode owners s).aggregate, (finishNode owners s).stats.nodesMatched) =
      flush owners s.pending (s.aggregate, s.stats.nodesMatched) := by
  unfold finishNode flush PendingNode.added
  dsimp only
  cases s.pending.mac with
  | none => rfl
  | some mac =>
    dsimp only [Option.bind_eq_bind, Option.bind_some]
    split
    · cases (owners mac).join <;> rfl
    · cases owners mac with
      | none => rfl
      | some owner =>
        cases owner with
        | none => rfl
        | some identityKey =>
          dsimp only [Option.join, Option.bind_some, id]
          cases complete s.pending.slots <;> rfl

/-- What a line does, by what it is. -/
def ParseState.take (owners : MacAddress → Option (Option String)) (s : ParseState) : NodeLine → ParseState
  | .unreadable => { s.countMalformed with pending := { s.pending with malformed := true } }
  | .counter _ none => { s.countMalformed with pending := { s.pending with malformed := true } }
  | .counter slot (some value) =>
    let t := { s with pending := { s.pending with slots := Function.update s.pending.slots slot (some value) } }
    if (s.pending.slots slot).isNone then t
    else { t.countMalformed with pending := { t.pending with malformed := true } }
  | .address value =>
    let s := finishNode owners s
    { s with pending := { s.pending with
      mac := macFromStr value, malformed := s.pending.malformed || (macFromStr value).isNone } }
  | .other => s

theorem parseNodeLine_eq (owners : MacAddress → Option (Option String)) (s : ParseState) (line : List UInt8) :
    parseNodeLine owners s line = s.take owners (classify line) := by
  unfold parseNodeLine classify
  dsimp only
  by_cases hlong : maxLineBytes < line.length
  · rw [if_pos hlong, if_pos hlong]; rfl
  · rw [if_neg hlong, if_neg hlong]
    cases fromUtf8 line with
    | none => rfl
    | some text =>
      dsimp only
      cases splitOnce '=' (trim text) with
      | none =>
        dsimp only
        split <;> rfl
      | some item =>
        dsimp only
        split
        · rfl
        · cases slotOf item.1 with
          | none => rfl
          | some slot =>
            dsimp only
            cases parseUnsigned 64 item.2 <;> rfl

/-- A line is a step of the loop over records. -/
theorem parseNodeLine_core (owners : MacAddress → Option (Option String)) (s : ParseState) (line : List UInt8) :
    (parseNodeLine owners s line).core = (nodeLoop owners).step isAddressLine s.core line := by
  have hstep : (nodeLoop owners).step isAddressLine s.core line = if (classify line).isAddress = true then
      (PendingNode.start line, flush owners s.pending (s.aggregate, s.stats.nodesMatched))
    else (s.pending.more line, s.aggregate, s.stats.nodesMatched) := rfl
  rw [parseNodeLine_eq, hstep, PendingNode.start, PendingNode.more, addressMac]
  cases classify line with
  | address value =>
    refine Prod.ext ?_ (finishNode_core owners s)
    rw [ParseState.take, ParseState.core, finishNode_pending, Bool.false_or]; rfl
  | unreadable => rfl
  | other => rfl
  | counter slot value =>
    cases value with
    | none => rfl
    | some value =>
      dsimp only [NodeLine.isAddress, ParseState.take]
      cases s.pending.slots slot with
      | none => rw [Option.isSome_none, Bool.or_false]; rfl
      | some old => rw [Option.isSome_some, Bool.or_true]; rfl

theorem foldl_core (owners : MacAddress → Option (Option String)) (lines : List (List UInt8)) (s : ParseState) :
    (lines.foldl (parseNodeLine owners) s).core = lines.foldl ((nodeLoop owners).step isAddressLine) s.core := by
  induction lines generalizing s with
  | nil => rfl
  | cons line lines ih => rw [List.foldl_cons, ih, parseNodeLine_core]; rfl

end

/-! ### One record -/

/-- The node after an address line and some lines of its record. -/
structure Tracks (address : Option MacAddress) (body : List (List UInt8)) (pending : PendingNode) : Prop where
  mac : pending.mac = address
  slots : ∀ slot, pending.slots slot = (fieldValues slot body).getLast?
  malformed : pending.malformed = false ↔
    address.isSome = true ∧ (∀ line ∈ body, (classify line).isBad = false) ∧ ∀ slot, (fieldValues slot body).length ≤ 1

section
variable {address : Option MacAddress} {body : List (List UInt8)} {pending : PendingNode} {line : List UInt8}

theorem fieldValues_concat (slot : NodeField) (body : List (List UInt8)) (line : List UInt8) :
    fieldValues slot (body ++ [line]) = fieldValues slot body ++ ((classify line).value? slot).toList := by
  rw [fieldValues, List.filterMap_append]
  cases h : (classify line).value? slot <;> simp [fieldValues, h]

theorem fieldValues_same (hline : ∀ slot, (classify line).value? slot = none) (slot : NodeField) :
    fieldValues slot (body ++ [line]) = fieldValues slot body := by
  rw [fieldValues_concat, hline, Option.toList_none, List.append_nil]

theorem forall_mem_concat {P : List UInt8 → Prop} : (∀ l ∈ body ++ [line], P l) ↔ (∀ l ∈ body, P l) ∧ P line := by
  rw [List.forall_mem_append, List.forall_mem_singleton]

/-- A line that says nothing. -/
theorem Tracks.skip (h : Tracks address body pending) (hgood : (classify line).isBad = false)
    (hline : ∀ slot, (classify line).value? slot = none) : Tracks address (body ++ [line]) pending := by
  refine ⟨h.mac, fun slot => (fieldValues_same hline slot).symm ▸ h.slots slot, ?_⟩
  simp only [h.malformed, forall_mem_concat, hgood, and_true, fieldValues_same hline]

/-- A bad line spoils the record. -/
theorem Tracks.spoil (h : Tracks address body pending) (hbad : (classify line).isBad = true)
    (hline : ∀ slot, (classify line).value? slot = none) :
    Tracks address (body ++ [line]) { pending with malformed := true } := by
  refine ⟨h.mac, fun slot => (fieldValues_same hline slot).symm ▸ h.slots slot, ?_⟩
  simp [hbad]

/-- A number goes into its slot, and spoils the record if there is one already. -/
theorem Tracks.value (h : Tracks address body pending) {slot : NodeField} {value : UInt64}
    (hline : classify line = .counter slot (some value)) :
    Tracks address (body ++ [line]) { pending with
      slots := Function.update pending.slots slot (some value)
      malformed := pending.malformed || (pending.slots slot).isSome } := by
  have hvalue (other : NodeField) : fieldValues other (body ++ [line]) =
      fieldValues other body ++ if slot = other then [value] else [] := by
    rw [fieldValues_concat, hline, NodeLine.value?]
    split <;> rfl
  refine ⟨h.mac, fun other => ?_, ?_⟩
  · rw [hvalue]
    dsimp only
    by_cases heq : slot = other
    · rw [← heq, if_pos rfl, List.getLast?_concat, Function.update_self]
    · rw [if_neg heq, List.append_nil, Function.update_of_ne (Ne.symm heq), h.slots]
  · rw [Bool.or_eq_false_iff, h.malformed, forall_mem_concat, hline, Option.isSome_eq_false_iff, Option.isNone_iff_eq_none,
      h.slots, List.getLast?_eq_none_iff]
    simp only [NodeLine.isBad, and_true]
    constructor
    · rintro ⟨⟨hsome, hgood, hone⟩, hempty⟩
      refine ⟨hsome, hgood, fun other => ?_⟩
      rw [hvalue]
      by_cases heq : slot = other
      · rw [if_pos heq, ← heq, hempty]; exact Nat.le_refl 1
      · rw [if_neg heq, List.append_nil]; exact hone other
    · rintro ⟨hsome, hgood, hone⟩
      have hthis := hone slot
      rw [hvalue, if_pos rfl, List.length_append, List.length_singleton] at hthis
      refine ⟨⟨hsome, hgood, fun other => ?_⟩, List.length_eq_zero_iff.1 (by omega)⟩
      have hother := hone other
      rw [hvalue, List.length_append] at hother
      omega

theorem Tracks.more (h : Tracks address body pending) (line : List UInt8) :
    Tracks address (body ++ [line]) (pending.more line) := by
  rw [PendingNode.more]
  cases hline : classify line with
  | address value => exact h.skip (by rw [hline]; rfl) fun _ => by rw [hline]; rfl
  | other => exact h.skip (by rw [hline]; rfl) fun _ => by rw [hline]; rfl
  | unreadable => exact h.spoil (by rw [hline]; rfl) fun _ => by rw [hline]; rfl
  | counter slot value =>
    cases value with
    | none => exact h.spoil (by rw [hline]; rfl) fun _ => by rw [hline]; exact ite_self _
    | some value => exact h.value hline

theorem tracks_start (line : List UInt8) : Tracks (addressMac line) [] (.start line) := by
  refine ⟨rfl, fun _ => rfl, ?_⟩
  rw [PendingNode.start]
  cases addressMac line <;> simp [fieldValues]

theorem tracks_record (owners : MacAddress → Option (Option String)) (record : List UInt8 × List (List UInt8)) :
    Tracks (addressMac record.1) record.2 ((nodeLoop owners).record record) := by
  obtain ⟨line, body⟩ := record
  induction body using List.reverseRecOn with
  | nil => exact tracks_start line
  | append_singleton body next ih =>
    have h := ih.more next
    rw [Loop.record] at h ⊢
    rwa [List.foldl_concat]

end

/-! ### Owners -/

/-- An address with one identity has its text, one with several has none. -/
theorem uniqueMacOwners_eq (identities : List IdentityKey) (mac : MacAddress) :
    uniqueMacOwners identities mac = match identities.filter fun identity => identity.mac = mac with
      | [] => none
      | [identity] => some (some identity.text)
      | _ => some none := by
  induction identities using List.reverseRecOn with
  | nil => rfl
  | append_singleton identities identity ih =>
    rw [uniqueMacOwners, List.foldl_concat, ← uniqueMacOwners, List.filter_append]
    by_cases hmac : identity.mac = mac
    · subst hmac
      rw [Function.update_self, ih]
      simp only [List.filter_singleton, decide_true, cond_true]
      cases identities.filter fun other => other.mac = identity.mac with
      | nil => rfl
      | cons first rest => cases rest <;> rfl
    · rw [Function.update_of_ne (Ne.symm hmac), ih]
      simp only [List.filter_singleton, hmac, decide_false, cond_false, List.append_nil]

theorem uniqueMacOwners_join (identities : List IdentityKey) (mac : MacAddress) :
    (uniqueMacOwners identities mac).join = (uniqueOwner identities mac).map IdentityKey.text := by
  rw [uniqueMacOwners_eq, uniqueOwner]
  cases identities.filter fun identity => identity.mac = mac with
  | nil => rfl
  | cons first rest => cases rest <;> rfl

/-! ### What a record adds -/

theorem complete_none {slots : NodeField → Option UInt64} {slot : NodeField} (h : slots slot = none) :
    complete slots = none := by
  unfold complete
  cases slot with
  | generation => rw [h]; rfl
  | txBytes => cases slots .generation <;> simp [h]
  | rxBytes => cases slots .generation <;> cases slots .txBytes <;> simp [h]
  | txPackets => cases slots .generation <;> cases slots .txBytes <;> cases slots .rxBytes <;> simp [h]
  | rxPackets =>
    cases slots .generation <;> cases slots .txBytes <;> cases slots .rxBytes <;> cases slots .txPackets <;> simp [h]

theorem fieldValue_of_le {body : List (List UInt8)} {slot : NodeField} (h : (fieldValues slot body).length ≤ 1) :
    fieldValue body slot = (fieldValues slot body).getLast? := by
  rw [fieldValue]
  cases hvalues : fieldValues slot body with
  | nil => rfl
  | cons value rest =>
    rw [hvalues, List.length_cons] at h
    rw [List.length_eq_zero_iff.1 (Nat.le_zero.1 (Nat.succ_le_succ_iff.1 h))]; rfl

theorem fieldValue_of_lt {body : List (List UInt8)} {slot : NodeField} (h : 1 < (fieldValues slot body).length) :
    fieldValue body slot = none := by
  rw [fieldValue]
  split
  · next hvalues => rw [hvalues] at h; exact absurd h (Nat.lt_irrefl 1)
  · rfl

/-- The key of an entry, with the identity as its text. -/
def textEntry (entry : (IdentityKey × UInt64) × TrafficCounters) : (String × UInt64) × TrafficCounters :=
  ((entry.1.1.text, entry.1.2), entry.2)

/-- What the loop adds for a record depends on its lines only. -/
theorem added_record (identities : List IdentityKey) (record : List UInt8 × List (List UInt8)) :
    ((nodeLoop (uniqueMacOwners identities)).record record).added (uniqueMacOwners identities) =
      (recordCounters identities record).map textEntry := by
  have h := tracks_record (uniqueMacOwners identities) record
  rw [PendingNode.added, recordCounters, h.mac]
  cases hmac : addressMac record.1 with
  | none => rfl
  | some mac =>
    dsimp only [Option.bind_eq_bind, Option.bind_some]
    rw [uniqueMacOwners_join]
    cases uniqueOwner identities mac with
    | none => rfl
    | some identity =>
      dsimp only [Option.map_some, Option.bind_some]
      by_cases hbad : record.2.any (fun line => (classify line).isBad) = true
      · have hmalformed : ((nodeLoop (uniqueMacOwners identities)).record record).malformed = true := by
          obtain ⟨line, hline, hspoilt⟩ := List.any_eq_true.1 hbad
          by_contra hnot
          rw [(h.malformed.1 (Bool.eq_false_iff.2 hnot)).2.1 line hline] at hspoilt
          exact Bool.false_ne_true hspoilt
        rw [if_pos hmalformed, if_pos hbad]; rfl
      · rw [if_neg hbad]
        have hgood : ∀ line ∈ record.2, (classify line).isBad = false := fun line hline =>
          Bool.eq_false_iff.2 fun hspoilt => hbad (List.any_eq_true.2 ⟨line, hline, hspoilt⟩)
        by_cases hone : ∀ slot, (fieldValues slot record.2).length ≤ 1
        · have hmalformed := h.malformed.2 ⟨hmac ▸ rfl, hgood, hone⟩
          have hslots : ((nodeLoop (uniqueMacOwners identities)).record record).slots = fieldValue record.2 :=
            funext fun slot => (h.slots slot).trans (fieldValue_of_le (hone slot)).symm
          rw [if_neg (by rw [hmalformed]; exact Bool.false_ne_true), hslots]
          cases complete (fieldValue record.2) <;> rfl
        · obtain ⟨slot, hmany⟩ := not_forall.1 hone
          rw [complete_none (fieldValue_of_lt (Nat.not_le.1 hmany))]
          split
          · rfl
          · next hfalse => exact absurd (h.malformed.1 (Bool.eq_false_iff.2 hfalse)).2.2 hone

end Lanspeedd.EcmNode
