import DOpenWrt.Oaf.RegexpLanguage

/-!
# Matching and the language

`regexpMatch_stale`: the nodes of a pattern match the language in which a bracket list also accepts the character that
its node's memory happened to hold. `regexpMatch_iff`: so the result is right exactly where that character makes no
difference.
-/

namespace Oaf
open CharMatch Computability

/-! ### Repetition -/

theorem matchstar_iff (cur : Re) (next : List UInt8 → Bool) (text : List UInt8) :
    matchstar cur next text = true ↔ Starts (single fun c => matchOne cur c = true)∗ (fun w => next w = true) text := by
  induction text with
  | nil => rw [matchstar, starts_star_nil]
  | cons c text ih => rw [matchstar, starts_star_cons, Bool.or_eq_true, Bool.and_eq_true, ih]

theorem matchplus_iff (cur : Re) (next : List UInt8 → Bool) (text : List UInt8) :
    matchplus cur next text = true ↔
      Starts (single (fun c => matchOne cur c = true) * (single fun c => matchOne cur c = true)∗)
        (fun w => next w = true) text := by
  induction text with
  | nil =>
    rw [matchplus, starts_mul]
    exact iff_of_false Bool.false_ne_true starts_single_nil
  | cons c text ih =>
    rw [matchplus, starts_mul, starts_single_cons, Bool.and_eq_true, Bool.or_eq_true, ih, starts_star]

theorem matchques_iff (cur : Re) (next : List UInt8 → Bool) (text : List UInt8) :
    matchques cur next text = true ↔ Starts (1 + single fun c => matchOne cur c = true) (fun w => next w = true) text := by
  rw [starts_add, starts_one]
  cases text with
  | nil => exact (or_iff_left starts_single_nil).symm
  | cons c text =>
    rw [starts_single_cons, matchques]
    cases matchOne cur c <;> simp [or_comm]

theorem matchnode_iff (cur : Re) (next : List UInt8 → Bool) (text : List UInt8) :
    matchnode cur next text = true ↔ Starts (single fun c => matchOne cur c = true) (fun w => next w = true) text := by
  cases text with
  | nil => exact iff_of_false Bool.false_ne_true starts_single_nil
  | cons c text => rw [matchnode, starts_single_cons, Bool.and_eq_true]

/-! ### Nodes and language -/

theorem ListItem.mem_chars {i : ListItem} (h : i.WellFormed) (c : UInt8) : c ∈ i.chars ↔ i.accepts c := by
  cases i with
  | char c' => exact List.mem_singleton
  | range a b =>
    obtain ⟨-, -, -, hab⟩ := h
    exact mem_creatList hab

section

variable {fresh : ℕ → ℤ} {k : ℕ}

theorem matchOne_charNode (c d : UInt8) : matchOne (charNode d) c = true ↔ c = d := by
  simp [matchOne, charNode, inList, UInt8.toNat_inj]

theorem matchOne_listNode (ccl : List UInt8) (nccl : Bool) (c : UInt8) :
    matchOne (listNode fresh k ccl nccl) c = true ↔
      (if nccl then c ∉ ccl else c ∈ ccl) ∨ (c.toNat : ℤ) = fresh k := by
  cases nccl <;> simp [matchOne, listNode, inList] <;> exact or_congr Iff.rfl decide_eq_true_iff

/-- The node of an atom accepts the atom's characters, and that of a list what its memory held. -/
theorem matchOne_node {a : Atom} (h : a.WellFormed) (hfit : a.Fits) (c : UInt8) :
    matchOne (a.node fresh k) c = true ↔ a.acceptsStale (fresh k) c := by
  cases a with
  | lit d =>
    rw [Atom.node, matchOne_charNode]
    simp [Atom.acceptsStale, Atom.accepts, Atom.isList]
  | dot => simp [Atom.node, plainNode, matchOne, Atom.acceptsStale, Atom.accepts]
  | esc d =>
    rw [Atom.node, matchOne_charNode]
    simp [Atom.acceptsStale, Atom.accepts, Atom.isList]
  | digit => exact hfit.elim
  | nondigit => exact hfit.elim
  | list neg items =>
    obtain ⟨hitems, -⟩ := h
    have hmem : c ∈ items.flatMap ListItem.chars ↔ ∃ i ∈ items, i.accepts c := by
      rw [List.mem_flatMap]
      exact exists_congr fun i => and_congr_right fun hi => ListItem.mem_chars (hitems i hi) c
    rw [Atom.node, matchOne_listNode, hmem]
    cases neg <;> simp [Atom.acceptsStale, Atom.accepts, Atom.isList]

end

/-- The types of the nodes that repeat the node before. -/
def NodeType.isRep : NodeType → Bool
  | star => true
  | plus => true
  | ques => true
  | _ => false

theorem matchhere_cons {r : Re} {rest : List Re} (hr : r.type ≠ .end') (hrest : ∀ q ∈ rest.head?, q.type.isRep = false) :
    matchhere (r :: rest) = matchnode r (matchhere rest) := by
  funext text
  cases rest with
  | nil =>
    have hnil : matchhere [] = fun _ => true := funext fun _ => by rw [matchhere]
    rw [matchhere, if_neg hr, hnil]
  | cons q rest =>
    have hq := hrest q rfl
    rw [matchhere]
    split <;> rename_i heq
    · rw [heq] at hq
      cases hq
    · rw [heq] at hq
      cases hq
    · rw [heq] at hq
      cases hq
    · rfl

theorem matchhere_end (text : List UInt8) (anchorEnd : Bool) :
    matchhere (endNodes anchorEnd) text = true ↔ (anchorEnd → text = []) := by
  cases anchorEnd with
  | false => simp [endNodes, matchhere]
  | true => simp [endNodes, matchhere]

section

variable (fresh : ℕ → ℤ) (k : ℕ)

theorem Atom.node_type (a : Atom) :
    (a.node fresh k).type = .char ∨ (a.node fresh k).type = .dot ∨ (a.node fresh k).type = .list := by
  cases a <;> simp [Atom.node, charNode, plainNode, listNode]

/-- The nodes of the items start with a node that neither repeats nor anchors. -/
theorem head_type (items : List (Atom × Rep)) (anchorEnd : Bool) :
    ∀ q ∈ (itemsNodes fresh k items ++ endNodes anchorEnd).head?, q.type.isRep = false ∧ q.type ≠ .begin := by
  intro q hq
  cases items with
  | nil =>
    cases anchorEnd with
    | false => cases hq
    | true =>
      cases hq
      simp [NodeType.isRep]
  | cons i items =>
    obtain ⟨a, r⟩ := i
    cases hq
    rcases a.node_type fresh k with h | h | h <;> simp [h, NodeType.isRep]

/-- From the nodes of the items on, `matchhere` finds the words of the stale language at the start of the text. -/
theorem matchhere_items {items : List (Atom × Rep)} (h : ∀ i ∈ items, i.1.WellFormed) (hfit : ∀ i ∈ items, i.1.Fits)
    (k : ℕ) (anchorEnd : Bool) (text : List UInt8) :
    matchhere (itemsNodes fresh k items ++ endNodes anchorEnd) text = true ↔
      Starts (itemsLanguage (fun k a c => a.acceptsStale (fresh k) c) k items) (fun w => anchorEnd → w = []) text := by
  induction items generalizing k text with
  | nil => rw [itemsNodes, itemsLanguage, starts_one, List.nil_append, matchhere_end]
  | cons i items ih =>
    obtain ⟨a, r⟩ := i
    have ih := ih (fun j hj => h j (List.mem_cons_of_mem _ hj)) (fun j hj => hfit j (List.mem_cons_of_mem _ hj))
      (k + 1 + r.count)
    have hone : (fun c => matchOne (a.node fresh k) c = true) = fun c => a.acceptsStale (fresh k) c :=
      funext fun c => propext
        (matchOne_node (h (a, r) (List.mem_cons_self ..)) (hfit (a, r) (List.mem_cons_self ..)) c)
    have hend : (a.node fresh k).type ≠ .end' := by
      rcases a.node_type fresh k with ht | ht | ht <;> simp [ht]
    rw [itemsNodes, itemsLanguage, starts_mul, ← starts_congr ih, ← hone]
    cases r with
    | once =>
      have hcons := matchhere_cons hend fun q hq => (head_type fresh (k + 1) items anchorEnd q hq).1
      change matchhere (a.node fresh k :: (itemsNodes fresh (k + 1) items ++ endNodes anchorEnd)) text = true ↔ _
      rw [hcons]
      exact matchnode_iff ..
    | star => exact matchstar_iff ..
    | plus => exact matchplus_iff ..
    | ques => exact matchques_iff ..

end

/-! ### Search -/

theorem matchAnywhere_iff (regexp : List Re) (text : List UInt8) :
    matchAnywhere regexp text = true ↔ ∃ u t, text = u ++ t ∧ matchhere regexp t = true := by
  induction text with
  | nil =>
    rw [matchAnywhere]
    constructor
    · exact fun h => ⟨[], [], rfl, h⟩
    · rintro ⟨u, t, hut, h⟩
      rcases List.append_eq_nil_iff.1 hut.symm with ⟨-, rfl⟩
      exact h
  | cons c text ih =>
    rw [matchAnywhere, Bool.or_eq_true, ih]
    constructor
    · rintro (h | ⟨u, t, rfl, h⟩)
      · exact ⟨[], c :: text, rfl, h⟩
      · exact ⟨c :: u, t, rfl, h⟩
    · rintro ⟨u, t, hut, h⟩
      rcases List.cons_eq_append_iff.1 hut with ⟨-, rfl⟩ | ⟨u', -, rfl⟩
      · exact .inl h
      · exact .inr ⟨u', t, rfl, h⟩

namespace Pattern

theorem foundIn_iff (p : Pattern) (l : Language UInt8) (text : List UInt8) :
    p.FoundIn l text ↔
      ∃ u t, text = u ++ t ∧ (p.anchorBegin → u = []) ∧ Starts l (fun w => p.anchorEnd → w = []) t := by
  constructor
  · rintro ⟨u, v, w, rfl, hv, hu, hw⟩
    exact ⟨u, v ++ w, List.append_assoc u v w, hu, v, hv, w, rfl, hw⟩
  · rintro ⟨u, _, rfl, hu, v, hv, w, rfl, hw⟩
    exact ⟨u, v, w, (List.append_assoc u v w).symm, hv, hu, hw⟩

theorem nodes_ne_nil {p : Pattern} (fresh : ℕ → ℤ) (h : p.text ≠ []) : p.nodes fresh ≠ [] := by
  intro hnil
  obtain ⟨b, items, e⟩ := p
  cases b with
  | true => cases hnil
  | false =>
    rcases List.append_eq_nil_iff.1 hnil with ⟨hitems, hend⟩
    cases items with
    | cons i items => cases hitems
    | nil =>
      cases e with
      | true => cases hend
      | false => exact h rfl

end Pattern

/-- On a pattern that is not empty and fits its buffers, `regexp_match` looks for the stale language. -/
theorem regexpMatch_stale (fresh : ℕ → ℤ) {p : Pattern} (hp : p.WellFormed) (hne : p.text ≠ []) (hfit : p.Fits)
    (text : List UInt8) :
    (p.FoundIn (p.staleLanguage fresh) text → regexpMatch fresh p.text text = .ok 1) ∧
      (¬ p.FoundIn (p.staleLanguage fresh) text → regexpMatch fresh p.text text = .ok 0) := by
  have hcompile := (compile_pattern fresh hp).1 hfit
  have hnodes := p.nodes_ne_nil fresh hne
  obtain ⟨result, hrun, hresult⟩ : ∃ result : Bool, regexpMatch fresh p.text text = .ok (if result then 1 else 0) ∧
      (result = true ↔ p.FoundIn (p.staleLanguage fresh) text) := by
    rw [p.foundIn_iff, Pattern.staleLanguage]
    cases hb : p.anchorBegin with
    | true =>
      rw [Pattern.nodes, hb, if_pos rfl] at hcompile
      refine ⟨matchhere (itemsNodes fresh 1 p.items ++ endNodes p.anchorEnd) text, ?_, ?_⟩
      · rw [regexpMatch, hcompile]
        rfl
      · rw [matchhere_items fresh hp hfit]
        constructor
        · exact fun h => ⟨[], text, rfl, fun _ => rfl, h⟩
        · rintro ⟨u, t, rfl, hu, h⟩
          rw [hu rfl]
          exact h
    | false =>
      rw [Pattern.nodes, hb, if_neg Bool.false_ne_true] at hcompile hnodes
      refine ⟨matchAnywhere (itemsNodes fresh 0 p.items ++ endNodes p.anchorEnd) text, ?_, ?_⟩
      · cases hn : itemsNodes fresh 0 p.items ++ endNodes p.anchorEnd with
        | nil => exact absurd hn hnodes
        | cons r rest =>
          have hr : r.type ≠ .begin := (head_type fresh 0 p.items p.anchorEnd r (by rw [hn]; rfl)).2
          rw [regexpMatch, hcompile, hn]
          exact if_neg hr
      · rw [matchAnywhere_iff]
        refine exists_congr fun u => exists_congr fun t => and_congr_right fun _ => ?_
        rw [matchhere_items fresh hp hfit]
        exact (and_iff_right fun h => absurd h Bool.false_ne_true).symm
  rw [← hresult, hrun]
  cases result with
  | true => exact ⟨fun _ => rfl, fun h => absurd rfl h⟩
  | false => exact ⟨fun h => absurd h Bool.false_ne_true, fun _ => rfl⟩

/-! ### Stale characters -/

theorem Rep.language_mono {p q : UInt8 → Prop} (h : ∀ c, p c → q c) (r : Rep) : r.language p ≤ r.language q := by
  have hle := single_mono h
  cases r with
  | once => exact hle
  | star => exact kstar_mono hle
  | plus => exact mul_le_mul' hle (kstar_mono hle)
  | ques => exact add_le_add le_rfl hle

theorem itemsLanguage_mono {p q : ℕ → Atom → UInt8 → Prop} {items : List (Atom × Rep)} (k : ℕ)
    (h : ∀ k, ∀ i ∈ items, ∀ c, p k i.1 c → q k i.1 c) : itemsLanguage p k items ≤ itemsLanguage q k items := by
  induction items generalizing k with
  | nil => exact le_rfl
  | cons i items ih =>
    obtain ⟨a, r⟩ := i
    have hr := r.language_mono (h k (a, r) (List.mem_cons_self ..))
    exact mul_le_mul' hr (ih _ fun k j hj => h k j (List.mem_cons_of_mem _ hj))

namespace Pattern

theorem language_eq (p : Pattern) (k : ℕ) : p.language = itemsLanguage (fun _ a c => a.accepts c) k p.items := by
  rw [language]
  induction p.items generalizing k with
  | nil => rfl
  | cons i items ih => rw [List.map_cons, List.prod_cons, itemsLanguage, ← ih]

theorem language_le_stale (p : Pattern) (fresh : ℕ → ℤ) : p.language ≤ p.staleLanguage fresh := by
  rw [p.language_eq, staleLanguage]
  exact itemsLanguage_mono _ fun _ _ _ _ h => .inl h

/-- Memory that holds no character a list rejects makes no difference. -/
theorem staleLanguage_eq {p : Pattern} {fresh : ℕ → ℤ}
    (h : ∀ k, ∀ i ∈ p.items, i.1.isList → ∀ c : UInt8, (c.toNat : ℤ) = fresh k → i.1.accepts c) :
    p.staleLanguage fresh = p.language := by
  refine le_antisymm ?_ (p.language_le_stale fresh)
  rw [p.language_eq, staleLanguage]
  refine itemsLanguage_mono _ fun k i hi c hc => ?_
  rcases hc with hc | ⟨hlist, hc⟩
  · exact hc
  · exact h k i hi hlist c hc

theorem FoundIn.mono {p : Pattern} {l m : Language UInt8} {text : List UInt8} (h : l ≤ m) (hl : p.FoundIn l text) :
    p.FoundIn m text := by
  obtain ⟨u, v, w, htext, hv, huw⟩ := hl
  exact ⟨u, v, w, htext, h hv, huw⟩

end Pattern

/-- `regexp_match` decides the pattern's language exactly on a pattern that is not empty and fits its buffers, for
memory whose characters do not make the text match. -/
theorem regexpMatch_iff (fresh : ℕ → ℤ) {p : Pattern} (hp : p.WellFormed) (text : List UInt8) :
    ((p.Matches text → regexpMatch fresh p.text text = .ok 1) ∧
        (¬ p.Matches text → regexpMatch fresh p.text text = .ok 0)) ↔
      p.text ≠ [] ∧ p.Fits ∧ (p.FoundIn (p.staleLanguage fresh) text → p.Matches text) := by
  constructor
  · rintro ⟨h1, h0⟩
    have hok : ∃ z, (z = 0 ∨ z = 1) ∧ regexpMatch fresh p.text text = .ok z := by
      by_cases hm : p.Matches text
      · exact ⟨1, .inr rfl, h1 hm⟩
      · exact ⟨0, .inl rfl, h0 hm⟩
    obtain ⟨z, hz, hok⟩ := hok
    have hne : p.text ≠ [] := by
      intro hnil
      rw [hnil, regexpMatch, compile.eq_def] at hok
      cases hok
      omega
    have hfit : p.Fits := by
      by_contra hnf
      rw [regexpMatch, (compile_pattern fresh hp).2 hnf] at hok
      cases hok
    refine ⟨hne, hfit, fun hs => ?_⟩
    by_contra hm
    have hone := (regexpMatch_stale fresh hp hne hfit text).1 hs
    rw [h0 hm] at hone
    cases hone
  · rintro ⟨hne, hfit, hs⟩
    obtain ⟨h1, h0⟩ := regexpMatch_stale fresh hp hne hfit text
    exact ⟨fun hm => h1 (hm.mono (p.language_le_stale fresh)), fun hm => h0 fun hf => hm (hs hf)⟩

/-- `.*a$` is found in `ba`, whatever memory held. -/
theorem endsInA_matches :
    let p : Pattern := ⟨false, [(.dot, .star), (.lit (chr 'a'), .once)], true⟩
    p.text = CString.str ".*a$" ∧ regexpMatch (fun _ => 98) p.text (CString.str "ba") = .ok 1 := by
  intro p
  refine ⟨by decide, ?_⟩
  have hp : p.WellFormed := by
    intro i hi
    rcases List.mem_cons.1 hi with rfl | hi
    · trivial
    · rcases List.mem_singleton.1 hi with rfl
      exact ⟨by decide, by decide⟩
  have hfit : p.Fits := by
    intro i hi
    rcases List.mem_cons.1 hi with rfl | hi
    · trivial
    · rcases List.mem_singleton.1 hi with rfl
      trivial
  have hstar : [chr 'b'] ∈ (single fun c => Atom.dot.accepts c)∗ :=
    (le_kstar : single _ ≤ (single _)∗) ⟨chr 'b', trivial, rfl⟩
  have hlang : CString.str "ba" ∈ p.language := by
    change _ ∈ ([_, _] : List (Language UInt8)).prod
    rw [List.prod_cons, List.prod_singleton]
    exact Language.mem_mul.2 ⟨[chr 'b'], hstar, [chr 'a'], ⟨chr 'a', rfl, rfl⟩, by decide⟩
  have hm : p.Matches (CString.str "ba") := ⟨[], _, [], rfl, hlang, nofun, fun _ => rfl⟩
  exact ((regexpMatch_iff (fun _ => 98) hp (CString.str "ba")).2 ⟨by decide, hfit, fun _ => hm⟩).1 hm

/-- The pattern `[a]` is found in `b` where the node's memory held a `b`. -/
theorem listA_matches_b :
    let p : Pattern := ⟨false, [(.list false [.char (chr 'a')], .once)], false⟩
    p.WellFormed ∧ ¬ p.Matches (CString.str "b") ∧
      regexpMatch (fun _ => 98) p.text (CString.str "b") = .ok 1 := by
  intro p
  refine ⟨?_, ?_, by decide +kernel⟩
  · intro i hi
    rcases List.mem_singleton.1 hi with rfl
    refine ⟨fun j hj => ?_, fun _ => by decide⟩
    rcases List.mem_singleton.1 hj with rfl
    exact ⟨by decide, by decide, by decide⟩
  · rintro ⟨u, v, w, htext, hv, -⟩
    change v ∈ ([_] : List (Language UInt8)).prod at hv
    rw [List.prod_singleton] at hv
    obtain ⟨c, ⟨i, hi, hc⟩, rfl⟩ := hv
    rcases List.mem_singleton.1 hi with rfl
    have hmem : chr 'a' ∈ CString.str "b" := by
      rw [htext, ← (hc : c = chr 'a')]
      simp
    exact absurd hmem (by decide)

end Oaf
