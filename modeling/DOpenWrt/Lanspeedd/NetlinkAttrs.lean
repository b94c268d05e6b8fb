import DOpenWrt.Lanspeedd.Netlink
import DOpenWrt.Lib.Except

/-!
# What the attribute parser accepts

`attr_table` accepts whole attributes up to a tail of zeros, and its table has the only attribute of each known type.
No parser of a payload fails but on malformed input.
-/

namespace Lanspeedd

variable {α β : Type}

/-- A parser that fails on malformed input only. -/
def Safe (x : Parse α) : Prop := ∀ f, x = .error f → ∃ reason, f = .dump (.malformed reason)

namespace Safe

theorem ok (a : α) : Safe (.ok a : Parse α) := fun f h => by cases h

theorem pure (a : α) : Safe (Pure.pure a : Parse α) := ok a

theorem malformed (reason : String) : Safe (malformed reason : Parse α) := fun f h => by
  cases h
  exact ⟨reason, rfl⟩

theorem bind {x : Parse α} {k : α → Parse β} (hx : Safe x) (hk : ∀ a, x = .ok a → Safe (k a)) : Safe (x >>= k) := by
  cases x with
  | error e =>
    intro f hf
    cases hf
    exact hx e rfl
  | ok a => exact hk a rfl

theorem ite {p : Prop} [Decidable p] {x y : Parse α} (hx : p → Safe x) (hy : ¬ p → Safe y) :
    Safe (if p then x else y) := by
  split_ifs with h
  · exact hx h
  · exact hy h

theorem required (value : Option α) (reason : String) : Safe (required value reason) := by
  cases value with
  | none => exact malformed reason
  | some a => exact ok a

theorem exact (bytes : List UInt8) (len : Nat) : Safe (exact bytes len) := by
  unfold Lanspeedd.exact
  exact ite (fun _ => ok _) fun _ => malformed _

theorem index {table : List α} {i : Nat} (h : i < table.length) : Safe (index table i) := by
  unfold Lanspeedd.index
  rw [List.getElem?_eq_getElem h]
  exact ok _

theorem mapM {k : α → Parse β} (hk : ∀ a, Safe (k a)) (o : Option α) : Safe (o.mapM k) := by
  cases o with
  | none => exact ok none
  | some a => exact bind (hk a) fun b _ => ok _

theorem beU16 (bytes : List UInt8) : Safe (beU16 bytes) := bind (exact bytes 2) fun _ _ => ok _

theorem beU32 (bytes : List UInt8) : Safe (beU32 bytes) := bind (exact bytes 4) fun _ _ => ok _

end Safe

theorem exact_ok {bytes bytes' : List UInt8} {len : Nat} (h : exact bytes len = .ok bytes') :
    bytes' = bytes ∧ bytes.length = len := by
  unfold exact at h
  split_ifs at h with hlen
  · cases h
    exact ⟨rfl, hlen⟩
  · cases h

theorem slice_eq {bytes : List UInt8} {first last : Nat} (h : first ≤ last) (h' : last ≤ bytes.length) :
    slice bytes first last = .ok ((bytes.take last).drop first) := if_pos ⟨h, h'⟩

/-! ### Attributes as chunks -/

theorem fromBe_eq_zero {bytes : List UInt8} (h : ∀ b ∈ bytes, b = 0) : fromBe bytes = 0 := by
  unfold fromBe
  induction bytes with
  | nil => rfl
  | cons b bytes ih =>
    rw [List.foldl_cons, h b List.mem_cons_self]
    exact ih fun b hb => h b (List.mem_cons_of_mem _ hb)

variable (bigEndian : Bool)

theorem fromNe_eq_zero {bytes : List UInt8} (h : ∀ b ∈ bytes, b = 0) : fromNe bigEndian bytes = 0 := by
  unfold fromNe
  refine fromBe_eq_zero fun b hb => h b ?_
  cases bigEndian with
  | true => exact hb
  | false => exact List.mem_reverse.1 hb

theorem le_align4 (n : Nat) : n ≤ align4 n := by
  unfold align4
  omega

def attrLen (c : List UInt8) : Nat := fromNe bigEndian (c.take 2)

def attrKind (c : List UInt8) : Nat := fromNe bigEndian ((c.take 4).drop 2) &&& nlaTypeMask

def attrPayload (c : List UInt8) : List UInt8 := (c.take (attrLen bigEndian c)).drop 4

/-- An attribute with the padding behind it. -/
structure WholeAttr (c : List UInt8) : Prop where
  header : 4 ≤ attrLen bigEndian c
  length : c.length = align4 (attrLen bigEndian c)

/-- What the loop of `attr_table` does with a whole attribute. -/
def addAttr (max : Nat) (table : AttrTable) (c : List UInt8) : Parse AttrTable :=
  if attrKind bigEndian c ≤ max then do
    let slot ← index table (attrKind bigEndian c)
    if slot.isSome then malformed "duplicate known attribute"
    else pure (table.set (attrKind bigEndian c) (some (attrPayload bigEndian c)))
  else pure table

variable {bigEndian}

theorem WholeAttr.length_ge {c : List UInt8} (h : WholeAttr bigEndian c) : 4 ≤ c.length :=
  h.length ▸ h.header.trans (le_align4 _)

theorem take_append_of_le {c rest : List UInt8} {n : Nat} (h : n ≤ c.length) : (c ++ rest).take n = c.take n :=
  List.take_append_of_le_length h

theorem attrStep_append (max : Nat) {c : List UInt8} (h : WholeAttr bigEndian c) (table : AttrTable)
    (rest : List UInt8) : attrStep bigEndian max table (c ++ rest) =
      (addAttr bigEndian max table c).map fun table => (table, some c.length) := by
  have hge := h.length_ge
  have hle : attrLen bigEndian c ≤ c.length := h.length ▸ le_align4 _
  have hlen : fromNe bigEndian ((c ++ rest).take 2) = attrLen bigEndian c := by
    rw [take_append_of_le (by omega)]
    rfl
  have hkind : fromNe bigEndian (((c ++ rest).take 4).drop 2) &&& nlaTypeMask = attrKind bigEndian c := by
    rw [take_append_of_le hge]
    rfl
  have hpayload : ((c ++ rest).take (attrLen bigEndian c)).drop 4 = attrPayload bigEndian c := by
    rw [take_append_of_le hle]
    rfl
  have hzero : ¬ (c ++ rest).all (· == 0) := by
    intro hall
    have : attrLen bigEndian c = 0 := fromNe_eq_zero bigEndian fun b hb =>
      beq_iff_eq.1 (List.all_eq_true.1 hall b (List.mem_append_left _ (List.mem_of_mem_take hb)))
    have := h.header
    omega
  have hlength : (c ++ rest).length = c.length + rest.length := List.length_append
  have hslot : setSlot max table (attrKind bigEndian c) (attrLen bigEndian c) (c ++ rest) =
      addAttr bigEndian max table c := by
    unfold setSlot addAttr
    rw [slice_eq (by have := h.header; omega) (by omega), hpayload]
    rfl
  unfold attrStep
  rw [if_neg hzero, if_neg (by omega)]
  dsimp only
  rw [hlen, hkind, if_neg (by have := h.header; omega), hslot, ← h.length]
  cases addAttr bigEndian max table c with
  | error e => rfl
  | ok table => exact if_neg (by omega)

theorem attrStep_split {max n : Nat} {table table' : AttrTable} {l : List UInt8}
    (h : attrStep bigEndian max table l = .ok (table', some n)) : n ≤ l.length ∧ WholeAttr bigEndian (l.take n) := by
  unfold attrStep at h
  split_ifs at h with hzero hshort
  · cases h
  · cases h
  · dsimp only at h
    split_ifs at h with hlen hpad
    · cases h
    · obtain ⟨table₁, -, h⟩ := Except.bind_eq_ok.1 h
      cases h
    · obtain ⟨table₁, -, h⟩ := Except.bind_eq_ok.1 h
      · cases h
        rw [not_or, Nat.not_lt, Nat.not_lt] at hlen
        have hle := Nat.le_of_not_lt hpad
        have heq : attrLen bigEndian (l.take (align4 (fromNe bigEndian (l.take 2)))) =
            fromNe bigEndian (l.take 2) := by
          have := le_align4 (fromNe bigEndian (l.take 2))
          rw [attrLen, List.take_take, Nat.min_eq_left (by omega)]
        refine ⟨hle, ?_, ?_⟩
        · rw [heq]
          exact hlen.1
        · rw [heq, List.length_take, Nat.min_eq_left hle]

theorem attrStep_chunked (max : Nat) : ChunkLoop.Chunked (attrStep bigEndian max) (WholeAttr bigEndian) where
  ne_nil c h := List.ne_nil_of_length_pos (by have := h.length_ge; omega)
  append table c rest h := by
    have := attrStep_append max h table []
    rw [List.append_nil] at this
    rw [attrStep_append max h, ChunkLoop.process, this]
    cases addAttr bigEndian max table c <;> rfl
  split _ _ _ _ h := attrStep_split h

theorem process_attrStep {max : Nat} {c : List UInt8} (h : WholeAttr bigEndian c) (table : AttrTable) :
    ChunkLoop.process (attrStep bigEndian max) table c = addAttr bigEndian max table c := by
  have := attrStep_append max h table []
  rw [List.append_nil] at this
  rw [ChunkLoop.process, this]
  cases addAttr bigEndian max table c <;> rfl

/-! ### The table -/

variable (bigEndian) in
/-- The first attribute of each known type. -/
def tableOf (max : Nat) (chunks : List (List UInt8)) : AttrTable :=
  (List.range (max + 1)).map fun k => (chunks.find? fun c => attrKind bigEndian c = k).map (attrPayload bigEndian)

variable (bigEndian) in
/-- The known types of some attributes. -/
def knownKinds (max : Nat) (chunks : List (List UInt8)) : List Nat :=
  (chunks.map (attrKind bigEndian)).filter (· ≤ max)

theorem tableOf_get {max k : Nat} (hk : k ≤ max) (chunks : List (List UInt8)) :
    (tableOf bigEndian max chunks)[k]? =
      some ((chunks.find? fun c => attrKind bigEndian c = k).map (attrPayload bigEndian)) := by
  rw [tableOf, List.getElem?_map, List.getElem?_range (by omega)]
  rfl

theorem mem_knownKinds {max k : Nat} {chunks : List (List UInt8)} :
    k ∈ knownKinds bigEndian max chunks ↔ k ≤ max ∧ ∃ c ∈ chunks, attrKind bigEndian c = k := by
  rw [knownKinds, List.mem_filter, List.mem_map, decide_eq_true_iff, and_comm]

theorem knownKinds_concat (max : Nat) (chunks : List (List UInt8)) (c : List UInt8) :
    knownKinds bigEndian max (chunks ++ [c]) = knownKinds bigEndian max chunks ++
      if attrKind bigEndian c ≤ max then [attrKind bigEndian c] else [] := by
  rw [knownKinds, List.map_append, List.filter_append]
  congr 1
  simp only [List.map_cons, List.map_nil, List.filter_cons, List.filter_nil, decide_eq_true_eq]

theorem find?_isSome_iff {k : Nat} {chunks : List (List UInt8)} :
    (chunks.find? fun c => attrKind bigEndian c = k).isSome ↔ ∃ c ∈ chunks, attrKind bigEndian c = k := by
  rw [List.find?_isSome]
  simp only [decide_eq_true_eq]

theorem not_mem_knownKinds {max k : Nat} (hk : k ≤ max) {chunks : List (List UInt8)} :
    k ∉ knownKinds bigEndian max chunks ↔ (chunks.find? fun c => attrKind bigEndian c = k) = none := by
  rw [← Option.not_isSome_iff_eq_none, find?_isSome_iff, mem_knownKinds, and_iff_right hk]

theorem tableOf_concat {max : Nat} {chunks : List (List UInt8)} {c : List UInt8}
    (hnew : attrKind bigEndian c ≤ max → attrKind bigEndian c ∉ knownKinds bigEndian max chunks) :
    tableOf bigEndian max (chunks ++ [c]) =
      if attrKind bigEndian c ≤ max then
        (tableOf bigEndian max chunks).set (attrKind bigEndian c) (some (attrPayload bigEndian c))
      else tableOf bigEndian max chunks := by
  refine List.ext_getElem? fun k => ?_
  rcases Nat.lt_or_ge max k with hk | hk
  · have hnone : ∀ chunks : List (List UInt8), (tableOf bigEndian max chunks)[k]? = none := fun chunks =>
      List.getElem?_eq_none (by rw [tableOf, List.length_map, List.length_range]; omega)
    split_ifs with hmax
    · rw [hnone, List.getElem?_set_ne (by omega), hnone]
    · rw [hnone, hnone]
  · rw [tableOf_get hk, List.find?_append]
    by_cases heq : attrKind bigEndian c = k
    · rw [heq] at hnew
      rw [heq, if_pos hk, List.getElem?_set_self (by rw [tableOf, List.length_map, List.length_range]; omega),
        (not_mem_knownKinds hk).1 (hnew hk)]
      simp [heq]
    · have hsame : ((chunks.find? fun c => attrKind bigEndian c = k).or
          ([c].find? fun c => attrKind bigEndian c = k)) = chunks.find? fun c => attrKind bigEndian c = k := by
        rw [List.find?_cons_of_neg (by simpa using heq), List.find?_nil, Option.or_none]
      rw [hsame]
      split_ifs with hmax
      · rw [List.getElem?_set_ne heq, tableOf_get hk]
      · rw [tableOf_get hk]

/-- An attribute is added unless it is the second of a known type. -/
theorem addAttr_tableOf (max : Nat) (chunks : List (List UInt8)) (c : List UInt8) :
    addAttr bigEndian max (tableOf bigEndian max chunks) c =
      if attrKind bigEndian c ≤ max ∧ attrKind bigEndian c ∈ knownKinds bigEndian max chunks then
        malformed "duplicate known attribute"
      else .ok (tableOf bigEndian max (chunks ++ [c])) := by
  unfold addAttr
  by_cases hmax : attrKind bigEndian c ≤ max
  · rw [if_pos hmax, index, tableOf_get hmax]
    by_cases hmem : attrKind bigEndian c ∈ knownKinds bigEndian max chunks
    · rw [if_pos ⟨hmax, hmem⟩]
      have := find?_isSome_iff.2 (mem_knownKinds.1 hmem).2
      obtain ⟨c', hc'⟩ := Option.isSome_iff_exists.1 this
      rw [hc']
      rfl
    · rw [if_neg fun h => hmem h.2, (not_mem_knownKinds hmax).1 hmem, tableOf_concat fun _ => hmem, if_pos hmax]
      rfl
  · rw [if_neg hmax, if_neg fun h => hmax h.1, tableOf_concat fun h => absurd h hmax, if_neg hmax]
    rfl

theorem foldlM_attrs (max : Nat) {chunks : List (List UInt8)} (hwhole : ∀ c ∈ chunks, WholeAttr bigEndian c)
    (table : AttrTable) :
    chunks.foldlM (ChunkLoop.process (attrStep bigEndian max)) (.replicate (max + 1) none) = .ok table ↔
      (knownKinds bigEndian max chunks).Nodup ∧ table = tableOf bigEndian max chunks := by
  induction chunks using List.reverseRecOn generalizing table with
  | nil =>
    have hstart : tableOf bigEndian max [] = .replicate (max + 1) none := by
      rw [tableOf]
      exact List.map_const'.trans (by rw [List.length_range])
    rw [hstart]
    exact ⟨fun h => (by cases h; exact ⟨.nil, rfl⟩), fun h => (by rw [h.2]; rfl)⟩
  | append_singleton chunks c ih =>
    have hc := hwhole c (List.mem_append_right _ List.mem_cons_self)
    have hchunks := fun c hc => hwhole c (List.mem_append_left _ hc)
    rw [List.foldlM_append, Except.bind_eq_ok, knownKinds_concat]
    simp only [List.foldlM_cons, List.foldlM_nil, bind_pure, process_attrStep hc]
    constructor
    · rintro ⟨table₁, h₁, h⟩
      obtain ⟨hnodup, rfl⟩ := (ih hchunks table₁).1 h₁
      rw [addAttr_tableOf] at h
      split_ifs at h with hdup
      · cases h
      · cases h
        refine ⟨?_, rfl⟩
        rw [not_and] at hdup
        split_ifs with hmax
        · exact List.nodup_append.2 ⟨hnodup, List.nodup_singleton _, fun k hk k' hk' => by
            rw [List.mem_singleton.1 hk']
            rintro rfl
            exact hdup hmax hk⟩
        · rwa [List.append_nil]
    · rintro ⟨hnodup, rfl⟩
      refine ⟨_, (ih hchunks _).2 ⟨(List.nodup_append.1 hnodup).1, rfl⟩, ?_⟩
      rw [addAttr_tableOf, if_neg]
      rintro ⟨hmax, hmem⟩
      rw [if_pos hmax] at hnodup
      exact (List.nodup_append.1 hnodup).2.2 _ hmem _ (List.mem_singleton_self _) rfl

/-- Exactly whole attributes with different known types, up to a tail of zeros, make a table: that of their payloads. -/
theorem attrTable_iff (payload : List UInt8) (max : Nat) (table : AttrTable) :
    attrTable bigEndian payload max = .ok table ↔ ∃ chunks tail, payload = chunks.flatten ++ tail ∧
      (∀ c ∈ chunks, WholeAttr bigEndian c) ∧ (∀ b ∈ tail, b = 0) ∧ (knownKinds bigEndian max chunks).Nodup ∧
        table = tableOf bigEndian max chunks := by
  constructor
  · intro h
    obtain ⟨chunks, tail, table₁, hpayload, hwhole, hfold, htail⟩ := (attrStep_chunked max).exists_chunks h
    obtain ⟨hnodup, rfl⟩ := (foldlM_attrs max hwhole table₁).1 hfold
    rcases htail with ⟨rfl, rfl⟩ | ⟨-, hstop⟩
    · exact ⟨chunks, [], hpayload, hwhole, fun _ hb => absurd hb List.not_mem_nil, hnodup, rfl⟩
    · unfold attrStep at hstop
      split_ifs at hstop with hzero hshort
      · cases hstop
        exact ⟨chunks, tail, hpayload, hwhole, fun b hb => beq_iff_eq.1 (List.all_eq_true.1 hzero b hb), hnodup, rfl⟩
      · cases hstop
      · dsimp only at hstop
        split_ifs at hstop
        · cases hstop
        · obtain ⟨_, -, h⟩ := Except.bind_eq_ok.1 hstop
          cases h
        · obtain ⟨_, -, h⟩ := Except.bind_eq_ok.1 hstop
          cases h
  · rintro ⟨chunks, tail, rfl, hwhole, hzero, hnodup, rfl⟩
    rw [attrTable, (attrStep_chunked max).run_flatten hwhole le_rfl, (foldlM_attrs max hwhole _).2 ⟨hnodup, rfl⟩]
    show ChunkLoop.run _ _ _ _ tail = _
    cases tail with
    | nil => rfl
    | cons b tail =>
      have hall : (b :: tail).all (· == 0) := List.all_eq_true.2 fun b hb => beq_iff_eq.2 (hzero b hb)
      rw [List.length_cons, ChunkLoop.run_succ _ _ (List.cons_ne_nil _ _), attrStep, if_pos hall]

/-! ### Payloads -/

theorem setSlot_safe {max kind len : Nat} {table : AttrTable} {rest : List UInt8} (htable : table.length = max + 1)
    (hlen : 4 ≤ len) (hrest : len ≤ rest.length) : Safe (setSlot max table kind len rest) := by
  unfold setSlot
  refine .ite (fun hmax => .bind (.index (by omega)) fun slot _ => .ite (fun _ => .malformed _) fun _ => ?_)
    fun _ => .pure _
  rw [slice_eq hlen hrest]
  exact .pure _

theorem setSlot_length {max kind len : Nat} {table table' : AttrTable} {rest : List UInt8}
    (h : setSlot max table kind len rest = .ok table') : table'.length = table.length := by
  unfold setSlot at h
  split_ifs at h with hmax
  · obtain ⟨slot, -, h⟩ := Except.bind_eq_ok.1 h
    split_ifs at h
    · cases h
    · obtain ⟨payload, -, h⟩ := Except.bind_eq_ok.1 h
      cases h
      exact List.length_set
  · cases h
    rfl

theorem attrStep_spec {max : Nat} {table : AttrTable} (rest : List UInt8) (htable : table.length = max + 1) :
    (∀ table' o, attrStep bigEndian max table rest = .ok (table', o) → table'.length = max + 1) ∧
      Safe (attrStep bigEndian max table rest) := by
  unfold attrStep
  constructor
  · intro table' o h
    split_ifs at h with hzero hshort
    · cases h
      exact htable
    · cases h
    · dsimp only at h
      split_ifs at h
      · cases h
      · obtain ⟨_, -, h⟩ := Except.bind_eq_ok.1 h
        cases h
      · obtain ⟨table₁, hslot, h⟩ := Except.bind_eq_ok.1 h
        cases h
        rw [setSlot_length hslot, htable]
  · refine .ite (fun _ => .ok _) fun _ => .ite (fun _ => .malformed _) fun _ => .ite (fun _ => .malformed _) fun hlen => ?_
    exact .bind (setSlot_safe htable (by omega) (by omega)) fun _ _ => .ite (fun _ => .malformed _) fun _ => .pure _

theorem attrTable_spec (payload : List UInt8) (max : Nat) :
    (∀ table, attrTable bigEndian payload max = .ok table → table.length = max + 1) ∧
      Safe (attrTable bigEndian payload max) :=
  (attrStep_chunked max).run_spec le_rfl (fun _ l _ _ hs h => (attrStep_spec l hs).1 _ _ h)
    (fun _ l _ hs h => (attrStep_spec l hs).2 _ h) List.length_replicate

theorem attrTable_bind_safe {payload : List UInt8} {max : Nat} {k : AttrTable → Parse α}
    (hk : ∀ table, table.length = max + 1 → Safe (k table)) : Safe (attrTable bigEndian payload max >>= k) :=
  .bind (attrTable_spec payload max).2 fun table h => hk table ((attrTable_spec payload max).1 table h)

theorem index_exact_safe {k : UInt8 → Parse α} (hk : ∀ b, Safe (k b)) (bytes : List UInt8) :
    Safe (exact bytes 1 >>= fun bytes => index bytes 0 >>= k) := by
  refine .bind (.exact bytes 1) fun bytes' h => .bind (.index ?_) fun b _ => hk b
  obtain ⟨rfl, hlen⟩ := exact_ok h
  omega

theorem parseIp_safe (v4 v6 : Option (List UInt8)) : Safe (parseIp v4 v6) := by
  unfold parseIp
  cases v4 <;> cases v6
  · exact .ok none
  · exact .bind (.exact _ _) fun _ _ => .ok _
  · exact .bind (.exact _ _) fun _ _ => .ok _
  · exact .malformed _

theorem parseCounters_safe (payload : List UInt8) : Safe (parseCounters bigEndian payload) := by
  refine attrTable_bind_safe fun table htable => .bind (.index (by omega)) fun slot _ => ?_
  cases slot with
  | some bytes => exact .bind (.exact _ _) fun _ _ => .ok _
  | none =>
    refine .bind (.index (by omega)) fun slot _ => ?_
    cases slot with
    | some bytes => exact .bind (.exact _ _) fun _ _ => .ok _
    | none => exact .malformed _

theorem parseProtoinfo_safe (payload : List UInt8) (flow : FlowSample) : Safe (parseProtoinfo bigEndian payload flow) := by
  refine attrTable_bind_safe fun table htable => .bind (.index (by omega)) fun slot _ => ?_
  cases slot with
  | none => exact .ok _
  | some tcp =>
    refine attrTable_bind_safe fun table htable => .bind (.index (by omega)) fun slot _ => ?_
    cases slot with
    | none => exact .ok _
    | some state => exact index_exact_safe (fun _ => .ok _) state

theorem parseTuple_safe (payload : List UInt8) (original : Bool) (flow : FlowSample) :
    Safe (parseTuple bigEndian payload original flow) := by
  refine attrTable_bind_safe fun table htable => .bind (.index (by omega)) fun _ _ => .bind (.required _ _) fun _ _ => ?_
  refine attrTable_bind_safe fun ip hip => .bind (.index (by omega)) fun _ _ => .bind (.required _ _) fun _ _ => ?_
  refine attrTable_bind_safe fun proto hproto => ?_
  refine .bind (.index (by omega)) fun _ _ => .bind (.index (by omega)) fun _ _ => .bind (parseIp_safe _ _) fun _ _ =>
    .bind (.required _ _) fun src _ => ?_
  refine .bind (.index (by omega)) fun _ _ => .bind (.index (by omega)) fun _ _ => .bind (parseIp_safe _ _) fun _ _ =>
    .bind (.required _ _) fun dst _ => ?_
  refine .ite (fun _ => .malformed _) fun _ => ?_
  refine .bind (.index (by omega)) fun _ _ => .bind (.required _ _) fun number _ => index_exact_safe (fun number => ?_) _
  refine .bind (.index (by omega)) fun sport _ => .bind (.index (by omega)) fun dport _ => ?_
  exact .ite (fun _ => .malformed _) fun _ => .bind (.mapM .beU16 _) fun _ _ => .bind (.mapM .beU16 _) fun _ _ => .ok _

theorem parseFlow_safe (payload : List UInt8) : Safe (parseFlow bigEndian payload) := by
  unfold parseFlow
  refine .ite (fun _ => .malformed _) fun _ => attrTable_bind_safe fun attrs hattrs => ?_
  have hindex : ∀ {i : Nat}, i ≤ ctaZone → Safe (index attrs i) := fun hi => .index (by omega)
  refine .bind (hindex (by decide)) fun _ _ => .bind (.required _ _) fun orig _ => ?_
  refine .bind (hindex (by decide)) fun _ _ => .bind (.required _ _) fun counters _ => ?_
  refine .bind (hindex (by decide)) fun _ _ => .bind (.mapM .beU32 _) fun conntrackId _ => ?_
  refine .bind (hindex (by decide)) fun _ _ => .bind (.mapM .beU16 _) fun conntrackZone _ => ?_
  refine .bind (parseTuple_safe _ _ _) fun tuple _ => .bind (hindex (by decide)) fun reply _ => ?_
  refine .bind ?_ fun flow _ => .bind (parseCounters_safe _) fun _ _ => .bind (hindex (by decide)) fun _ _ => ?_
  · cases reply with
    | none => exact .ok _
    | some reply => exact .bind (parseTuple_safe _ _ _) fun _ _ => .ite (fun _ => .malformed _) fun _ => .ok _
  · refine .bind (.mapM parseCounters_safe _) fun _ _ => .bind (hindex (by decide)) fun _ _ => ?_
    refine .bind (.mapM .beU32 _) fun _ _ => .bind (hindex (by decide)) fun protoinfo _ => .bind ?_ fun flow _ => ?_
    · cases protoinfo with
      | none => exact .ok _
      | some protoinfo => exact parseProtoinfo_safe _ _
    · exact .ite (fun _ => .malformed _) fun _ => .ok _

end Lanspeedd
