import DOpenWrt.Lib.Tiling
import DOpenWrt.Lanspeedd.EdgeLedgers

/-!
# Aggregates of a history

The segments of a history within an interval are the deltas of a part of its samples (`exists_part`), so what is aggregated
is the growth between two of them (`aggregateHistory_spec`).
-/

namespace Lanspeedd

open Tiling

/-! ### A part of a history -/

section Part

variable {chain : List CumulativeCounterSample} {a b : CumulativeCounterSample}

theorem isChain_segmentsOf (chain : List CumulativeCounterSample) :
    (segmentsOf chain).IsChain fun x y => x.endMs = y.startMs := by
  induction chain with
  | nil => exact .nil
  | cons a chain ih =>
    cases chain with
    | nil => exact .nil
    | cons b chain =>
      cases chain with
      | nil => exact .singleton _
      | cons c chain =>
        simp only [segmentsOf_cons_cons] at ih ⊢
        exact List.isChain_cons_cons.2 ⟨rfl, ih⟩

/-- Neighbours in a history meet, and agree in source, domain and generation. -/
theorem isChain_segmentsOf_same (h : chain.IsChain Continues) :
    (segmentsOf chain).IsChain fun x y => x.endMs = y.startMs ∧ x.source = y.source ∧
      x.byteDomain = y.byteDomain ∧ x.attachmentGeneration = y.attachmentGeneration := by
  induction chain with
  | nil => exact .nil
  | cons a chain ih =>
    cases chain with
    | nil => exact .nil
    | cons b chain =>
      have htail := ih (List.isChain_cons_cons.1 h).2
      cases chain with
      | nil => exact .singleton _
      | cons c chain =>
        have hbc := (List.isChain_cons_cons.1 (List.isChain_cons_cons.1 h).2).1
        simp only [segmentsOf_cons_cons] at htail ⊢
        exact List.isChain_cons_cons.2
          ⟨⟨rfl, hbc.source_eq.symm, hbc.byteDomain_eq.symm, hbc.generation_eq.symm⟩, htail⟩

theorem start_lt_end (h : chain.IsChain Continues) : ∀ x ∈ segmentsOf chain, x.startMs < x.endMs := by
  induction chain with
  | nil => nofun
  | cons a chain ih =>
    cases chain with
    | nil => nofun
    | cons b chain =>
      rw [List.isChain_cons_cons] at h
      rw [segmentsOf_cons_cons]
      intro x hx
      rcases List.mem_cons.1 hx with rfl | hx
      · exact h.1.time_lt
      · exact ih h.2 x hx

theorem pairwise_segmentsOf (h : chain.IsChain Continues) :
    (segmentsOf chain).Pairwise fun x y => x.endMs ≤ y.startMs := by
  have hlt := start_lt_end h
  have hchain := isChain_segmentsOf chain
  cases hs : segmentsOf chain with
  | nil => exact .nil
  | cons x l =>
    rw [hs] at hchain hlt
    obtain ⟨y, hy⟩ : ∃ y, (x :: l).getLast? = some y := ⟨_, List.getLast?_cons⟩
    exact (tiles_of_isChain hchain y hy).pairwise fun z hz => (hlt z hz).le

/-- The segments within an interval are the deltas of a part of the samples. -/
theorem exists_part (h : chain.IsChain Continues) (lo hi : ℕ) :
    ∃ part, part <:+: chain ∧
      (segmentsOf chain).filter (fun x => x.startMs ≥ lo && x.endMs ≤ hi) = segmentsOf part := by
  have hpair := pairwise_segmentsOf h
  have hlt := start_lt_end h
  have hsuf : (segmentsOf chain).filter (fun x => x.startMs ≥ lo) <:+ segmentsOf chain := by
    refine filter_suffix (hpair.imp_of_mem fun {x y} hx hy hxy hlo => ?_)
    have := hlt x hx
    simp only [decide_eq_true_eq] at hlo ⊢
    omega
  have hdrop := List.suffix_iff_eq_drop.1 hsuf
  rw [drop_segmentsOf] at hdrop
  generalize (segmentsOf chain).length - ((segmentsOf chain).filter (fun x => x.startMs ≥ lo)).length = n at hdrop
  have hpre : (segmentsOf (chain.drop n)).filter (fun x => x.endMs ≤ hi) <+: segmentsOf (chain.drop n) := by
    rw [← hdrop]
    refine filter_prefix ((hpair.sublist hsuf.sublist).imp_of_mem fun {x y} hx hy hxy hhi => ?_)
    have := hlt y (hsuf.subset hy)
    simp only [decide_eq_true_eq] at hhi ⊢
    omega
  have htake := List.prefix_iff_eq_take.1 hpre
  rw [take_segmentsOf] at htake
  generalize ((segmentsOf (chain.drop n)).filter (fun x => x.endMs ≤ hi)).length + 1 = m at htake
  refine ⟨(chain.drop n).take m, (List.take_prefix _ _).isInfix.trans (List.drop_suffix n chain).isInfix, ?_⟩
  rw [← htake, ← hdrop, List.filter_filter]
  congr 1
  funext x
  exact Bool.and_comm _ _

theorem foldl_saturatingAdd {f : CounterSegment → ℕ} (l : List CounterSegment) {n : ℕ} (hn : n ≤ u64Max) :
    l.foldl (fun total x => saturatingAdd total (f x)) n = min (n + (l.map f).sum) u64Max := by
  induction l generalizing n with
  | nil => simp [hn]
  | cons x l ih =>
    rw [List.foldl_cons, ih (n := saturatingAdd n (f x)) (min_le_right _ _), List.map_cons, List.sum_cons, saturatingAdd]
    omega

/-- The first and the last segment of at least two samples. -/
theorem head_last_segmentsOf {part : List CumulativeCounterSample} {x y : CounterSegment}
    (hc : part.IsChain Continues) (hx : x ∈ (segmentsOf part).head?) (hy : y ∈ (segmentsOf part).getLast?) :
    ∃ first rest last, part = first :: rest ∧ (first :: rest).getLast (List.cons_ne_nil first rest) = last ∧
      x.startMs = first.sampleMs ∧ y.endMs = last.sampleMs ∧ y.readEndMs = last.readEndMs ∧
      x.source = first.source ∧ x.byteDomain = first.byteDomain := by
  cases part with
  | nil => cases hx
  | cons first rest =>
    cases rest with
    | nil => cases hx
    | cons second rest =>
      rw [segmentsOf_cons_cons] at hx
      cases hx
      have hfirst := (List.isChain_cons_cons.1 hc).1
      refine ⟨first, second :: rest, _, rfl, rfl, rfl, ?_⟩
      obtain ⟨init, last, heq⟩ := (List.eq_nil_or_concat (second :: rest)).resolve_left (List.cons_ne_nil _ _)
      obtain ⟨init', prev, heq'⟩ := (List.eq_nil_or_concat (first :: init)).resolve_left (List.cons_ne_nil _ _)
      rw [List.concat_eq_append] at heq heq'
      have hpart : first :: second :: rest = init' ++ [prev] ++ [last] := by
        rw [heq, ← List.cons_append, heq']
      have hseg : segmentsOf (first :: second :: rest) = segmentsOf (init' ++ [prev]) ++ [segmentBetween prev last] := by
        rw [hpart, segmentsOf_concat]
      rw [hseg, List.getLast?_concat] at hy
      cases hy
      have hlast : (first :: second :: rest).getLast (List.cons_ne_nil _ _) = last := by
        simp only [hpart, List.getLast_append_singleton]
      rw [hlast]
      exact ⟨rfl, rfl, hfirst.source_eq, hfirst.byteDomain_eq⟩

end Part

/-- What an aggregate of a history says about the samples. -/
structure AggregateOf (chain : List CumulativeCounterSample) (startMs endMs : ℕ) (value : ObservedDelta)
    (first last : CumulativeCounterSample) : Prop where
  /-- Between the two samples there are only samples that continue each other. -/
  between : ∃ rest, first :: rest <:+: chain ∧ (first :: rest).getLast (List.cons_ne_nil first rest) = last
  start_near : absDiff first.sampleMs startMs ≤ classifierReadEndSkewMs
  end_near : absDiff last.sampleMs endMs ≤ classifierReadEndSkewMs
  bytes_le : first.bytes ≤ last.bytes
  packets_le : first.packets ≤ last.packets
  bytes_eq : value.bytes = min (last.bytes - first.bytes) u64Max
  packets_eq : value.packets = min (last.packets - first.packets) u64Max
  source_eq : value.source = first.source
  byteDomain_eq : value.byteDomain = first.byteDomain
  readEndMs_eq : value.readEndMs = last.readEndMs

theorem aggregateHistory_spec {chain : List CumulativeCounterSample} {startMs endMs : ℕ} {value : ObservedDelta}
    (hc : chain.IsChain Continues) (h : aggregateHistory (segmentsOf chain) startMs endMs = some value) :
    ∃ first last, AggregateOf chain startMs endMs value first last := by
  obtain ⟨part, hpart, hsel⟩ := exists_part hc (startMs - classifierReadEndSkewMs)
    (saturatingAdd endMs classifierReadEndSkewMs)
  have hcpart : part.IsChain Continues := hc.infix hpart
  simp only [aggregateHistory, hsel] at h
  split at h
  next x y hx hy =>
    split at h
    next => cases h
    next hnear =>
      simp only [Bool.or_eq_true, decide_eq_true_eq, not_or, not_lt] at hnear
      obtain ⟨⟨⟨hstart, hend⟩, -⟩, -⟩ := hnear
      obtain ⟨first, rest, last, rfl, hlast, hxs, hye, hyr, hsource, hdomain⟩ := head_last_segmentsOf hcpart hx hy
      obtain ⟨hb, hbytes⟩ := sum_segmentsOf (f := (·.bytes)) (g := (·.bytes)) (fun _ _ => rfl) hcpart
        fun _ _ hab => hab.bytes_le
      obtain ⟨hp, hpackets⟩ := sum_segmentsOf (f := (·.packets)) (g := (·.packets)) (fun _ _ => rfl) hcpart
        fun _ _ hab => hab.packets_le
      rw [hlast] at hb hbytes hp hpackets
      cases h
      refine ⟨first, last, ⟨rest, hpart, hlast⟩, hxs ▸ hstart, hye ▸ hend, hb, hp, ?_, ?_, hsource, hdomain, hyr⟩
      · rw [foldl_saturatingAdd (f := (·.bytes)) _ (Nat.zero_le _), hbytes, Nat.zero_add]
      · rw [foldl_saturatingAdd (f := (·.packets)) _ (Nat.zero_le _), hpackets, Nat.zero_add]
  next => cases h

end Lanspeedd
