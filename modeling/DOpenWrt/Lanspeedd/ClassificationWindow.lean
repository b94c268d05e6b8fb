import DOpenWrt.Lanspeedd.Classification
import DOpenWrt.Lib.Run
import DOpenWrt.Lib.Tiling

/-!
# What a comparison window compares

`Stored`: the queue of an identity is an end part of its updates, each epoch of it comparable and continuing the one
before. So a reported window is that of the three latest updates, and in each direction every source keeps one byte
domain over it, or is absent throughout.
-/

namespace Lanspeedd
open Tiling

/-! ### Folding the observations of one source -/

/-- The bytes of the observations, an absent one counted as 0. -/
def observedBytes (values : List (Option ObservedDelta)) : ℕ := (values.map fun value => value.elim 0 (·.bytes)).sum

theorem observedBytes_cons (value : Option ObservedDelta) (values : List (Option ObservedDelta)) :
    observedBytes (value :: values) = value.elim 0 (·.bytes) + observedBytes values := by
  simp [observedBytes]

theorem foldl_bytes (fold : ObservationFold) (values : List (Option ObservedDelta))
    (h : fold.bytes + observedBytes values ≤ u64Max) :
    (values.foldl foldObservation fold).bytes = fold.bytes + observedBytes values := by
  induction values generalizing fold with
  | nil => rfl
  | cons value values ih =>
    rw [observedBytes_cons] at h ⊢
    rw [List.foldl_cons]
    cases value with
    | none =>
      rw [ih _ (by simpa [foldObservation] using h)]
      simp [foldObservation]
    | some v =>
      simp only [Option.elim_some] at h ⊢
      have hv : saturatingAdd fold.bytes v.bytes = fold.bytes + v.bytes := Nat.min_eq_left (by omega)
      rw [ih _ (by simp only [foldObservation, hv]; omega)]
      simp only [foldObservation, hv]
      omega

theorem foldl_present (fold : ObservationFold) (values : List (Option ObservedDelta)) :
    (values.foldl foldObservation fold).present = true ↔ fold.present = true ∧ ∀ value ∈ values, value.isSome = true := by
  induction values generalizing fold with
  | nil => simp
  | cons value values ih =>
    rw [List.foldl_cons, ih]
    cases value <;> simp [foldObservation]

/-- Observations of one domain leave that domain, or none if there is no observation. -/
theorem foldl_domain {domain : ByteDomain} {fold : ObservationFold} {values : List (Option ObservedDelta)}
    (hfold : ∀ d ∈ fold.domain, d = domain) (h : ∀ value ∈ values, ∀ v ∈ value, v.byteDomain = domain) :
    (values.foldl foldObservation fold).domain =
      if fold.domain.isSome ∨ ∃ value ∈ values, value.isSome then some domain else none := by
  induction values generalizing fold with
  | nil =>
    cases hd : fold.domain with
    | none => simp [hd]
    | some d => simp [hd, hfold d hd]
  | cons value values ih =>
    have htail := fun v hv => h v (List.mem_cons_of_mem value hv)
    rw [List.foldl_cons]
    cases value with
    | none =>
      have hnone : (foldObservation fold none).domain = fold.domain := rfl
      rw [ih (by rwa [hnone]) htail, hnone]
      refine if_congr (or_congr Iff.rfl ?_) rfl rfl
      simp
    | some v =>
      have hv : v.byteDomain = domain := h (some v) (List.mem_cons_self ..) v rfl
      have hnew : (foldObservation fold (some v)).domain = some domain := by
        simp only [foldObservation, hv]
        split
        · rfl
        · next hcond =>
          simp only [Bool.or_eq_true, not_or, Option.isNone_iff_eq_none] at hcond
          obtain ⟨d, hd⟩ := Option.ne_none_iff_exists'.1 hcond.2
          rw [hd, hfold d hd]
      rw [ih (by rw [hnew]; rintro d ⟨⟩; rfl) htail, hnew]
      simp

section

variable {values : List (Option ObservedDelta)}

theorem foldObservations_bytes (h : observedBytes values ≤ u64Max) :
    (foldObservations values).bytes = observedBytes values := by
  rw [foldObservations, foldl_bytes _ _ (by rwa [Nat.zero_add]), Nat.zero_add]

theorem foldObservations_present :
    (foldObservations values).present = true ↔ ∀ value ∈ values, value.isSome = true := by
  rw [foldObservations, foldl_present]
  exact and_iff_right rfl

theorem foldObservations_domain {domain : ByteDomain} (h : ∀ value ∈ values, ∀ v ∈ value, v.byteDomain = domain) :
    (foldObservations values).domain = if ∃ value ∈ values, value.isSome then some domain else none := by
  rw [foldObservations, foldl_domain (fun d hd => by cases hd) h]
  simp

/-- A stable source is absent throughout or keeps its source and domain. -/
theorem stable_source (h : values.IsChain fun previous current => stableObservation previous current = true) :
    (∀ value ∈ values, value = none) ∨
      ∃ source domain, ∀ value ∈ values, ∃ v, value = some v ∧ v.source = source ∧ v.byteDomain = domain := by
  induction values with
  | nil => exact .inl fun _ hv => by cases hv
  | cons first values ih =>
    cases values with
    | nil =>
      cases first with
      | none => exact .inl fun value hv => List.mem_singleton.1 hv
      | some v => exact .inr ⟨v.source, v.byteDomain, fun value hv => ⟨v, List.mem_singleton.1 hv, rfl, rfl⟩⟩
    | cons second values =>
      rw [List.isChain_cons_cons] at h
      obtain ⟨hstable, hchain⟩ := h
      rcases ih hchain with hnone | ⟨source, domain, hsome⟩
      · left
        rw [hnone second (List.mem_cons_self ..)] at hstable
        cases first with
        | some v => cases hstable
        | none =>
          intro value hv
          rcases List.mem_cons.1 hv with rfl | hv
          · rfl
          · exact hnone value hv
      · right
        obtain ⟨w, rfl, hs, hd⟩ := hsome second (List.mem_cons_self ..)
        cases first with
        | none => cases hstable
        | some v =>
          simp only [stableObservation, Bool.and_eq_true, decide_eq_true_eq] at hstable
          refine ⟨source, domain, fun value hv => ?_⟩
          rcases List.mem_cons.1 hv with rfl | hv
          · exact ⟨v, rfl, hstable.1.trans hs, hstable.2.trans hd⟩
          · exact hsome value hv

end

/-! ### One direction -/

namespace DirectionEpoch

def observations (epoch : DirectionEpoch) : List (Option ObservedDelta) := [epoch.edge, epoch.nss, epoch.slow]

/-- Every present observation has one byte domain. -/
def OneDomain (epochs : List DirectionEpoch) : Prop :=
  ∃ domain, ∀ epoch ∈ epochs, ∀ value ∈ epoch.observations, ∀ v ∈ value, v.byteDomain = domain

variable (epochs : List DirectionEpoch)

def edgeBytes : ℕ := observedBytes (epochs.map (·.edge))
def nssBytes : ℕ := observedBytes (epochs.map (·.nss))
def slowBytes : ℕ := observedBytes (epochs.map (·.slow))

end DirectionEpoch

open DirectionEpoch

/-- What a classification says of the epochs of one direction. -/
structure DirectionSound (epochs : List DirectionEpoch) (windowMs : ℕ) (c : DirectionClassification)
    (state : ClassificationState) : Prop where
  aligned : edgeBytes epochs ≤ u64Max → nssBytes epochs + slowBytes epochs ≤ u64Max → state = .aligned →
    OneDomain epochs ∧ nssBytes epochs + slowBytes epochs ≤ edgeBytes epochs ∧
      c.coveragePct = (if edgeBytes epochs = 0 then none
        else some (100 * (nssBytes epochs + slowBytes epochs) / edgeBytes epochs)) ∧
      (∀ pct ∈ c.coveragePct, pct ≤ 100) ∧
      c.unclassifiedBps = some (scaledBps (edgeBytes epochs - nssBytes epochs - slowBytes epochs) windowMs)
  skew : edgeBytes epochs ≤ u64Max → nssBytes epochs + slowBytes epochs ≤ u64Max → OneDomain epochs →
    (∀ epoch ∈ epochs, epoch.edge.isSome) → edgeBytes epochs < nssBytes epochs + slowBytes epochs →
    state = .counterSkew ∧ c.coveragePct = none
  noEdge : (∃ epoch ∈ epochs, epoch.edge = none) → state = .unavailable ∧ c.coveragePct = none
  coverage : state ≠ .aligned → c.coveragePct = none

section

variable {epochs : List DirectionEpoch}

theorem forall_map_isSome (f : DirectionEpoch → Option ObservedDelta) :
    (∀ value ∈ epochs.map f, value.isSome = true) ↔ ∀ epoch ∈ epochs, (f epoch).isSome = true := by
  simp

/-- The domain of a source over epochs of one domain. -/
theorem domain_of_oneDomain {domain : ByteDomain} (f : DirectionEpoch → Option ObservedDelta)
    (hf : ∀ epoch, f epoch ∈ epoch.observations)
    (h : ∀ epoch ∈ epochs, ∀ value ∈ epoch.observations, ∀ v ∈ value, v.byteDomain = domain) :
    (foldObservations (epochs.map f)).domain =
      if ∃ epoch ∈ epochs, (f epoch).isSome then some domain else none := by
  have hdomain : ∀ value ∈ epochs.map f, ∀ v ∈ value, v.byteDomain = domain := by
    intro value hvalue v hv
    obtain ⟨epoch, hepoch, rfl⟩ := List.mem_map.1 hvalue
    exact h epoch hepoch _ (hf epoch) v hv
  rw [foldObservations_domain hdomain]
  simp

/-- A stable source has the domain the fold ends with. -/
theorem domain_of_stable {f : DirectionEpoch → Option ObservedDelta}
    (h : (epochs.map f).IsChain fun previous current => stableObservation previous current = true)
    (epoch : DirectionEpoch) (hepoch : epoch ∈ epochs) (v : ObservedDelta) (hv : f epoch = some v) :
    (foldObservations (epochs.map f)).domain = some v.byteDomain := by
  have hmem : some v ∈ epochs.map f := List.mem_map.2 ⟨epoch, hepoch, hv⟩
  rcases stable_source h with hnone | ⟨source, domain, hsome⟩
  · cases hnone _ hmem
  · obtain ⟨w, hw, -, hd⟩ := hsome _ hmem
    obtain rfl := Option.some.inj hw
    have hdomain : ∀ value ∈ epochs.map f, ∀ u ∈ value, u.byteDomain = domain := by
      intro value hvalue u hu
      obtain ⟨u', rfl, -, hu'⟩ := hsome value hvalue
      cases hu
      exact hu'
    rw [hd, foldObservations_domain hdomain]
    exact if_pos ⟨_, hmem, rfl⟩

/-- Comparing ends with one domain for edge and the classified sources, or with a mismatch. -/
theorem classifiedDomain_eq {edge nss slow : Option ByteDomain} {domain : ByteDomain} (hedge : edge = some domain)
    (h : classifiedDomain edge nss slow = some edge) :
    (∀ d ∈ nss, d = domain) ∧ (∀ d ∈ slow, d = domain) := by
  subst hedge
  cases nss with
  | none =>
    cases slow with
    | none => exact ⟨nofun, nofun⟩
    | some s =>
      simp only [classifiedDomain, Option.some.injEq] at h
      exact ⟨nofun, by rintro d ⟨⟩; exact h⟩
  | some n =>
    cases slow with
    | none =>
      simp only [classifiedDomain, Option.some.injEq] at h
      exact ⟨by rintro d ⟨⟩; exact h, nofun⟩
    | some s =>
      simp only [classifiedDomain] at h
      split at h
      · cases h
      · next heq =>
        simp only [Option.some.injEq] at h
        exact ⟨by rintro d ⟨⟩; exact h, by rintro d ⟨⟩; exact (not_not.1 heq).symm.trans h⟩

theorem classifiedDomain_one {edge nss slow : Option ByteDomain} {domain : ByteDomain} (hedge : edge = some domain)
    (hnss : nss = some domain ∨ nss = none) (hslow : slow = some domain ∨ slow = none) :
    classifiedDomain edge nss slow = some edge := by
  rcases hnss with rfl | rfl <;> rcases hslow with rfl | rfl <;> simp [classifiedDomain, hedge]

/-- The ways out of `classify_direction`. -/
theorem classifyFolds_cases (edge nss slow : ObservationFold) (windowMs : ℕ) :
    edge.present = false ∧ (classifyFolds edge nss slow windowMs).2 = .unavailable ∧
        (classifyFolds edge nss slow windowMs).1.coveragePct = none ∨
      edge.present = true ∧ classifiedDomain edge.domain nss.domain slow.domain ≠ some edge.domain ∧
        (classifyFolds edge nss slow windowMs).2 = .domainMismatch ∧
        (classifyFolds edge nss slow windowMs).1.coveragePct = none ∨
      edge.present = true ∧ classifiedDomain edge.domain nss.domain slow.domain = some edge.domain ∧
        edge.bytes < saturatingAdd nss.bytes slow.bytes ∧ (classifyFolds edge nss slow windowMs).2 = .counterSkew ∧
        (classifyFolds edge nss slow windowMs).1.coveragePct = none ∨
      edge.present = true ∧ classifiedDomain edge.domain nss.domain slow.domain = some edge.domain ∧
        saturatingAdd nss.bytes slow.bytes ≤ edge.bytes ∧ (classifyFolds edge nss slow windowMs).2 = .aligned ∧
        (classifyFolds edge nss slow windowMs).1.coveragePct = (if edge.bytes = 0 then none
          else some (saturatingAdd nss.bytes slow.bytes * 100 / edge.bytes % 256)) ∧
        (classifyFolds edge nss slow windowMs).1.unclassifiedBps =
          some (scaledBps (edge.bytes - saturatingAdd nss.bytes slow.bytes) windowMs) := by
  simp only [classifyFolds]
  cases hpresent : edge.present with
  | false => exact .inl ⟨rfl, rfl, rfl⟩
  | true =>
    right
    simp only [Bool.not_true, Bool.false_eq_true, if_false, true_and]
    by_cases hdomain : classifiedDomain edge.domain nss.domain slow.domain = some edge.domain
    · right
      simp only [hdomain, ne_eq, not_true_eq_false, if_false, gt_iff_lt, true_and]
      split
      · next hlt => exact .inl ⟨hlt, rfl, rfl⟩
      · next hlt => exact .inr ⟨Nat.not_lt.1 hlt, rfl, rfl, rfl⟩
    · left
      simp only [ne_eq, hdomain, not_false_eq_true, if_true, true_and]

/-- Every source of the direction is stable over the epochs. -/
structure StableEpochs (epochs : List DirectionEpoch) : Prop where
  edge : (epochs.map (·.edge)).IsChain fun previous current => stableObservation previous current = true
  nss : (epochs.map (·.nss)).IsChain fun previous current => stableObservation previous current = true
  slow : (epochs.map (·.slow)).IsChain fun previous current => stableObservation previous current = true

theorem StableEpochs.oneDomain (h : StableEpochs epochs)
    (hedge : (foldObservations (epochs.map (·.edge))).present = true)
    (hdomain : classifiedDomain (foldObservations (epochs.map (·.edge))).domain
      (foldObservations (epochs.map (·.nss))).domain (foldObservations (epochs.map (·.slow))).domain =
        some (foldObservations (epochs.map (·.edge))).domain) : OneDomain epochs := by
  cases hepochs : epochs with
  | nil => exact ⟨.ecmData, fun epoch hepoch => by cases hepoch⟩
  | cons first rest =>
    have hfirst : first ∈ epochs := hepochs ▸ List.mem_cons_self ..
    rw [← hepochs]
    have hpresent := (forall_map_isSome _).1 (foldObservations_present.1 hedge) first hfirst
    obtain ⟨v, hv⟩ := Option.isSome_iff_exists.1 hpresent
    have hd := domain_of_stable h.edge first hfirst v hv
    obtain ⟨hnss, hslow⟩ := classifiedDomain_eq hd hdomain
    refine ⟨v.byteDomain, fun epoch hepoch value hvalue u hu => ?_⟩
    simp only [observations, List.mem_cons, List.not_mem_nil, or_false] at hvalue
    rcases hvalue with rfl | rfl | rfl
    · have hu' := domain_of_stable h.edge epoch hepoch u hu
      rw [hd] at hu'
      exact (Option.some.inj hu').symm
    · exact hnss _ (domain_of_stable h.nss epoch hepoch u hu)
    · exact hslow _ (domain_of_stable h.slow epoch hepoch u hu)

theorem classifyDirection_sound (h : StableEpochs epochs) (windowMs : ℕ) :
    DirectionSound epochs windowMs (classifyDirection epochs windowMs).1 (classifyDirection epochs windowMs).2 := by
  have hsums : edgeBytes epochs ≤ u64Max → nssBytes epochs + slowBytes epochs ≤ u64Max →
      (foldObservations (epochs.map (·.edge))).bytes = edgeBytes epochs ∧
        saturatingAdd (foldObservations (epochs.map (·.nss))).bytes (foldObservations (epochs.map (·.slow))).bytes =
          nssBytes epochs + slowBytes epochs := by
    intro he hns
    rw [foldObservations_bytes he, foldObservations_bytes (le_trans (Nat.le_add_right ..) hns),
      foldObservations_bytes (le_trans (Nat.le_add_left ..) hns)]
    exact ⟨rfl, Nat.min_eq_left hns⟩
  have hedgeless : (∃ epoch ∈ epochs, epoch.edge = none) → (foldObservations (epochs.map (·.edge))).present = false := by
    rintro ⟨epoch, hepoch, hnone⟩
    by_contra hpresent
    have hsome := (forall_map_isSome _).1 (foldObservations_present.1 (by simpa using hpresent)) epoch hepoch
    rw [hnone] at hsome
    cases hsome
  rcases classifyFolds_cases (foldObservations (epochs.map (·.edge))) (foldObservations (epochs.map (·.nss)))
    (foldObservations (epochs.map (·.slow))) windowMs with
    ⟨hpresent, hstate, hcov⟩ | ⟨hpresent, hdomain, hstate, hcov⟩ | ⟨hpresent, hdomain, hlt, hstate, hcov⟩ |
    ⟨hpresent, hdomain, hle, hstate, hcov, hun⟩
  · refine ⟨fun _ _ ha => ?_, fun _ _ _ hedge _ => ?_, fun _ => ⟨hstate, hcov⟩, fun _ => hcov⟩
    · cases hstate.symm.trans ha
    · cases (foldObservations_present.2 ((forall_map_isSome _).2 hedge)).symm.trans hpresent
  · refine ⟨fun _ _ ha => ?_, fun _ _ hone hedge hlt => ?_, fun hnone => ?_, fun _ => hcov⟩
    · cases hstate.symm.trans ha
    · obtain ⟨domain, hone⟩ := hone
      have hfold : ∀ f : DirectionEpoch → Option ObservedDelta, (∀ epoch, f epoch ∈ epoch.observations) →
          (foldObservations (epochs.map f)).domain = some domain ∨ (foldObservations (epochs.map f)).domain = none := by
        intro f hf
        rw [domain_of_oneDomain f hf hone]
        split
        · exact .inl rfl
        · exact .inr rfl
      refine absurd (classifiedDomain_one ?_ (hfold _ fun epoch => ?_) (hfold _ fun epoch => ?_)) hdomain
      · cases hepochs : epochs with
        | nil =>
          rw [hepochs] at hlt
          cases hlt
        | cons first rest =>
          have hfirst : first ∈ epochs := hepochs ▸ List.mem_cons_self ..
          rw [← hepochs, domain_of_oneDomain _ (fun epoch => by simp [observations]) hone]
          exact if_pos ⟨first, hfirst, hedge first hfirst⟩
      · simp [observations]
      · simp [observations]
    · cases (hedgeless hnone).symm.trans hpresent
  · refine ⟨fun _ _ ha => ?_, fun _ _ _ _ _ => ⟨hstate, hcov⟩, fun hnone => ?_, fun _ => hcov⟩
    · cases hstate.symm.trans ha
    · cases (hedgeless hnone).symm.trans hpresent
  · refine ⟨fun he hns _ => ?_, fun he hns _ _ hlt => ?_, fun hnone => ?_, fun hne => absurd hstate hne⟩
    · obtain ⟨hedge, hclassified⟩ := hsums he hns
      rw [hedge, hclassified] at hle
      have hpct : 100 * (nssBytes epochs + slowBytes epochs) / edgeBytes epochs ≤ 100 :=
        Nat.div_le_of_le_mul (by rw [mul_comm]; exact Nat.mul_le_mul_right 100 hle)
      have hcoverage : (classifyDirection epochs windowMs).1.coveragePct = if edgeBytes epochs = 0 then none
          else some (100 * (nssBytes epochs + slowBytes epochs) / edgeBytes epochs) := by
        refine hcov.trans ?_
        rw [hedge, hclassified, mul_comm, Nat.mod_eq_of_lt (by omega)]
      refine ⟨h.oneDomain hpresent hdomain, hle, hcoverage, ?_, ?_⟩
      · rw [hcoverage]
        intro pct hmem
        split at hmem
        · cases hmem
        · cases hmem
          exact hpct
      · refine hun.trans ?_
        rw [hedge, hclassified, Nat.sub_sub]
    · obtain ⟨hedge, hclassified⟩ := hsums he hns
      rw [hedge, hclassified] at hle
      exact absurd hlt (Nat.not_lt.2 hle)
    · cases (hedgeless hnone).symm.trans hpresent

end

/-! ### The book -/

/-- What an epoch must be to be compared. -/
structure Comparable (epoch : ClassificationEpoch) : Prop where
  mapComplete : epoch.mapComplete
  attachmentStable : epoch.attachmentStable
  sourcesComplete : epoch.sourcesComplete
  windowAligned : epoch.classifierWindowAligned
  lt : epoch.startMs < epoch.endMs
  sourcesAligned : classifierSourcesAligned epoch

/-- The queue of an identity against all its updates. -/
structure Stored (updates epochs : List ClassificationEpoch) : Prop where
  length_le : epochs.length ≤ comparisonEpochCount
  suffix : epochs <:+ updates
  chain : epochs.IsChain fun previous epoch => continuous previous epoch = true
  comparable : ∀ epoch ∈ epochs, Comparable epoch

theorem stored_nil (updates : List ClassificationEpoch) : Stored updates [] :=
  ⟨Nat.zero_le _, List.nil_suffix, .nil, fun _ h => by cases h⟩

section

variable {updates epochs : List ClassificationEpoch} {epoch : ClassificationEpoch}

theorem Stored.pushEpoch (h : Stored updates epochs) (hepoch : Comparable epoch) :
    Stored (updates ++ [epoch]) (ClassificationBook.pushEpoch epochs epoch) ∧
      (ClassificationBook.pushEpoch epochs epoch).getLast? = some epoch := by
  have hkept : ∃ kept, Stored updates kept ∧ (∀ previous ∈ kept.getLast?, continuous previous epoch = true) ∧
      ClassificationBook.pushEpoch epochs epoch = trimEpochs (kept ++ [epoch]) := by
    simp only [ClassificationBook.pushEpoch]
    split
    · next hc =>
      refine ⟨epochs, h, fun previous hp => ?_, rfl⟩
      rw [Option.mem_def.1 hp] at hc
      exact hc
    · exact ⟨[], stored_nil updates, by simp, rfl⟩
  obtain ⟨kept, hstored, hlast, heq⟩ := hkept
  have hdrop : trimEpochs (kept ++ [epoch]) <:+ kept ++ [epoch] := List.drop_suffix ..
  have hlen : (trimEpochs (kept ++ [epoch])).length ≤ comparisonEpochCount ∧
      (trimEpochs (kept ++ [epoch])).length ≠ 0 := by
    simp only [trimEpochs, List.length_drop, List.length_append, List.length_singleton, comparisonEpochCount]
    omega
  rw [heq]
  refine ⟨⟨hlen.1, ?_, ?_, fun e he => ?_⟩, ?_⟩
  · exact hdrop.trans (suffix_concat hstored.suffix epoch)
  · refine List.IsChain.suffix ?_ hdrop
    refine hstored.chain.append (.singleton epoch) fun previous hp e he => ?_
    cases he
    exact hlast previous hp
  · rcases List.mem_append.1 (hdrop.subset he) with he | he
    · exact hstored.comparable e he
    · rcases List.mem_singleton.1 he with rfl
      exact hepoch
  · obtain ⟨pre, hpre⟩ := hdrop
    have hne : trimEpochs (kept ++ [epoch]) ≠ [] := fun hnil => hlen.2 (by rw [hnil]; rfl)
    have hlast := congrArg List.getLast? hpre
    rw [List.getLast?_append_of_ne_nil _ hne, List.getLast?_concat] at hlast
    exact hlast

end

/-! ### Runs -/

inductive ClassificationOp
  | update (identityKey : String) (epoch : ClassificationEpoch)
  | remove (identityKey : String)
  | retainIdentities (identityKeys : List String)
  | clear

namespace ClassificationOp

def run (book : ClassificationBook) : ClassificationOp → ClassificationBook
  | update identityKey epoch => (book.update identityKey epoch).1
  | remove identityKey => book.remove identityKey
  | retainIdentities identityKeys => book.retainIdentities identityKeys
  | clear => .clear

/-- The epoch of an update of the identity. -/
def epochOf (identityKey : String) : ClassificationOp → Option ClassificationEpoch
  | update key epoch => if key = identityKey then some epoch else none
  | _ => none

end ClassificationOp

open ClassificationOp

/-- All updates of an identity, in order. -/
def updatesOf (ops : List ClassificationOp) (identityKey : String) : List ClassificationEpoch :=
  ops.filterMap (epochOf identityKey)

theorem update_comparable {book : ClassificationBook} {key : String} {epoch : ClassificationEpoch}
    (h : Comparable epoch) : book.update key epoch =
      (Function.update book key (ClassificationBook.pushEpoch (book key) epoch),
        if (ClassificationBook.pushEpoch (book key) epoch).length < comparisonEpochCount
        then singleEpochResult epoch .warmup
        else classifyWindow ((ClassificationBook.pushEpoch (book key) epoch).headD epoch)
          (ClassificationBook.pushEpoch (book key) epoch) epoch) := by
  have hlt : ¬ epoch.endMs ≤ epoch.startMs := Nat.not_le.2 h.lt
  simp only [ClassificationBook.update, h.mapComplete, h.attachmentStable, h.sourcesComplete, h.windowAligned, hlt,
    h.sourcesAligned, Bool.not_true, Bool.or_false, decide_false, Bool.false_eq_true, if_false]
  split <;> rfl

/-- An epoch that cannot be compared removes the identity's queue and reports no window. -/
theorem update_not_comparable (book : ClassificationBook) (key : String) {epoch : ClassificationEpoch}
    (h : ¬ Comparable epoch) :
    ∃ state, state ≠ .aligned ∧ book.update key epoch = (book.remove key, singleEpochResult epoch state) := by
  rw [ClassificationBook.update]
  split
  · exact ⟨.mapLoss, nofun, rfl⟩
  next hmap =>
  split
  · exact ⟨.partially, nofun, rfl⟩
  next hstable =>
  split
  · exact ⟨.partially, nofun, rfl⟩
  next hsources =>
  split
  · exact ⟨.windowMismatch, nofun, rfl⟩
  next haligned =>
  simp only [Bool.not_eq_true', Bool.not_eq_false] at hmap hstable hsources
  simp only [Bool.or_eq_true, not_or, decide_eq_true_eq, Bool.not_eq_true', Bool.not_eq_false] at haligned
  exact absurd ⟨hmap, hstable, hsources, haligned.1.1, Nat.not_le.1 haligned.1.2, haligned.2⟩ h

theorem updatesOf_concat (ops : List ClassificationOp) (op : ClassificationOp) (key : String) :
    updatesOf (ops ++ [op]) key = updatesOf ops key ++ (epochOf key op).toList := by
  rw [updatesOf, updatesOf, List.filterMap_append]
  cases h : epochOf key op <;> simp [h]

/-- Every operation keeps what is stored of an identity. -/
theorem stored_step {pre : List ClassificationOp} {book : ClassificationBook} (op : ClassificationOp) {key : String}
    (h : Stored (updatesOf pre key) (book key)) : Stored (updatesOf (pre ++ [op]) key) (op.run book key) := by
  have hskip : epochOf key op = none → updatesOf (pre ++ [op]) key = updatesOf pre key := fun hnone => by
    rw [updatesOf_concat, hnone, Option.toList_none, List.append_nil]
  cases op with
  | update identityKey epoch =>
    rw [ClassificationOp.run]
    by_cases heq : identityKey = key
    · subst heq
      rw [updatesOf_concat, epochOf, if_pos rfl, Option.toList_some]
      by_cases hc : Comparable epoch
      · rw [update_comparable hc]
        simp only [Function.update_self]
        exact (h.pushEpoch hc).1
      · obtain ⟨state, -, hupdate⟩ := update_not_comparable book identityKey hc
        simp only [hupdate, ClassificationBook.remove, Function.update_self]
        exact stored_nil _
    · rw [hskip (if_neg heq)]
      have hother : (book.update identityKey epoch).1 key = book key := by
        by_cases hc : Comparable epoch
        · rw [update_comparable hc]
          exact Function.update_of_ne (Ne.symm heq) ..
        · obtain ⟨state, -, hupdate⟩ := update_not_comparable book identityKey hc
          simp only [hupdate, ClassificationBook.remove]
          exact Function.update_of_ne (Ne.symm heq) ..
      rw [hother]
      exact h
  | remove identityKey =>
    rw [hskip rfl, ClassificationOp.run, ClassificationBook.remove]
    by_cases heq : key = identityKey
    · subst heq
      rw [Function.update_self]
      exact stored_nil _
    · rwa [Function.update_of_ne heq]
  | retainIdentities identityKeys =>
    rw [hskip rfl, ClassificationOp.run, ClassificationBook.retainIdentities]
    split
    · exact h
    · exact stored_nil _
  | clear =>
    rw [hskip rfl]
    exact stored_nil _

theorem stored_run (ops : List ClassificationOp) (key : String) :
    Stored (updatesOf ops key) (ops.foldl ClassificationOp.run .clear key) :=
  @Run.invariant _ _ _ _ (fun pre (book : ClassificationBook) => Stored (updatesOf pre key) (book key))
    (fun _ _ op h => stored_step op h) [] (stored_nil _) ops

/-! ### Reports -/

def ClassificationEpoch.direction (epoch : ClassificationEpoch) : Direction → DirectionEpoch
  | .tx => epoch.tx
  | .rx => epoch.rx

namespace ClassificationResult

def direction (result : ClassificationResult) : Direction → DirectionClassification
  | .tx => result.tx
  | .rx => result.rx

def directionState (result : ClassificationResult) : Direction → ClassificationState
  | .tx => result.txState
  | .rx => result.rxState

end ClassificationResult

/-- The result reports no comparison. -/
structure NoComparison (result : ClassificationResult) : Prop where
  window : result.comparisonWindowMs = none
  state : ∀ d, result.directionState d ≠ .aligned
  coverage : ∀ d, (result.direction d).coveragePct = none
  unclassified : ∀ d, (result.direction d).unclassifiedBps = none

/-- The result compares the three latest updates. -/
structure Comparison (updates : List ClassificationEpoch) (result : ClassificationResult) : Prop where
  window : ∃ e₁ e₂ e₃, [e₁, e₂, e₃] <:+ updates ∧ Comparable e₁ ∧ Comparable e₂ ∧ Comparable e₃ ∧
    continuous e₁ e₂ = true ∧ continuous e₂ e₃ = true ∧
    result.comparisonWindowMs =
      some ((e₁.endMs - e₁.startMs) + (e₂.endMs - e₂.startMs) + (e₃.endMs - e₃.startMs)) ∧
    ∀ d, DirectionSound [e₁.direction d, e₂.direction d, e₃.direction d]
      ((e₁.endMs - e₁.startMs) + (e₂.endMs - e₂.startMs) + (e₃.endMs - e₃.startMs))
      (result.direction d) (result.directionState d)

theorem singleEpochResult_noComparison (epoch : ClassificationEpoch) {state : ClassificationState}
    (h : state ≠ .aligned) : NoComparison (singleEpochResult epoch state) where
  window := rfl
  state d := by cases d <;> exact h
  coverage d := by cases d <;> rfl
  unclassified d := by cases d <;> rfl

theorem continuous_endMs {previous epoch : ClassificationEpoch} (h : continuous previous epoch = true) :
    previous.endMs = epoch.startMs := by
  simp only [continuous, Bool.and_eq_true, decide_eq_true_eq] at h
  exact h.1.1.1.1

theorem continuous_stable {previous epoch : ClassificationEpoch} (h : continuous previous epoch = true) (d : Direction) :
    stableDirectionContract (previous.direction d) (epoch.direction d) = true := by
  simp only [continuous, Bool.and_eq_true, decide_eq_true_eq] at h
  cases d with
  | tx => exact h.1.2
  | rx => exact h.2

theorem stableEpochs_three {e₁ e₂ e₃ : ClassificationEpoch} (h₁₂ : continuous e₁ e₂ = true)
    (h₂₃ : continuous e₂ e₃ = true) (d : Direction) :
    StableEpochs [e₁.direction d, e₂.direction d, e₃.direction d] := by
  have h₁ := continuous_stable h₁₂ d
  have h₂ := continuous_stable h₂₃ d
  simp only [stableDirectionContract, Bool.and_eq_true] at h₁ h₂
  refine ⟨?_, ?_, ?_⟩ <;> simp [h₁, h₂]

/-- A window that is not empty is classified in both directions. -/
theorem classifyWindow_pos {first last : ClassificationEpoch} (epochs : List ClassificationEpoch)
    (h : last.endMs - first.startMs ≠ 0) :
    (classifyWindow first epochs last).comparisonWindowMs = some (last.endMs - first.startMs) ∧
      ∀ d, ((classifyWindow first epochs last).direction d, (classifyWindow first epochs last).directionState d) =
        classifyDirection (epochs.map (·.direction d)) (last.endMs - first.startMs) := by
  simp only [classifyWindow, h, if_false, true_and]
  intro d
  cases d <;> rfl

/-- An update reports no comparison, or that of the three latest updates. -/
theorem update_comparison {updates : List ClassificationEpoch} {book : ClassificationBook} {key : String}
    (h : Stored updates (book key)) (epoch : ClassificationEpoch) :
    NoComparison (book.update key epoch).2 ∨ Comparison (updates ++ [epoch]) (book.update key epoch).2 := by
  by_cases hc : Comparable epoch
  · rw [update_comparable hc]
    obtain ⟨hstored, hlast⟩ := h.pushEpoch hc
    generalize ClassificationBook.pushEpoch (book key) epoch = epochs at hstored hlast
    simp only []
    split
    · exact .inl (singleEpochResult_noComparison epoch nofun)
    next hlen =>
    have hthree : epochs.length = 3 := le_antisymm hstored.length_le (Nat.not_lt.1 hlen)
    obtain ⟨e₁, e₂, e₃, rfl⟩ := List.length_eq_three.1 hthree
    obtain rfl : e₃ = epoch := by simpa using hlast
    have hchain := hstored.chain
    simp only [List.isChain_cons_cons, List.isChain_singleton, and_true] at hchain
    obtain ⟨h₁₂, h₂₃⟩ := hchain
    have hc₁ := hstored.comparable e₁ (by simp)
    have hc₂ := hstored.comparable e₂ (by simp)
    have hspan : e₃.endMs - e₁.startMs =
        (e₁.endMs - e₁.startMs) + (e₂.endMs - e₂.startMs) + (e₃.endMs - e₃.startMs) := by
      have := continuous_endMs h₁₂
      have := continuous_endMs h₂₃
      have := hc₁.lt
      have := hc₂.lt
      have := hc.lt
      omega
    have hpos : e₃.endMs - e₁.startMs ≠ 0 := by
      have := hc.lt
      omega
    right
    rw [List.headD_cons]
    obtain ⟨hwindow, hdirection⟩ := classifyWindow_pos [e₁, e₂, e₃] hpos
    rw [hspan] at hwindow hdirection
    refine ⟨e₁, e₂, e₃, hstored.suffix, hc₁, hc₂, hc, h₁₂, h₂₃, hwindow, fun d => ?_⟩
    have hsound := classifyDirection_sound (stableEpochs_three h₁₂ h₂₃ d)
      ((e₁.endMs - e₁.startMs) + (e₂.endMs - e₂.startMs) + (e₃.endMs - e₃.startMs))
    have hd := hdirection d
    rw [List.map_cons, List.map_cons, List.map_cons, List.map_nil] at hd
    rwa [← hd] at hsound
  · obtain ⟨state, hstate, hupdate⟩ := update_not_comparable book key hc
    rw [hupdate]
    exact .inl (singleEpochResult_noComparison epoch hstate)

/-- After any operations, what is stored of an identity is the end of its updates, and its next update compares the
three latest, or nothing. -/
theorem classification_compares (ops : List ClassificationOp) (key : String) :
    Stored (updatesOf ops key) (ops.foldl ClassificationOp.run .clear key) ∧
      ∀ epoch, NoComparison ((ops.foldl ClassificationOp.run .clear).update key epoch).2 ∨
        Comparison (updatesOf ops key ++ [epoch]) ((ops.foldl ClassificationOp.run .clear).update key epoch).2 :=
  ⟨stored_run ops key, update_comparison (stored_run ops key)⟩

/-- Without Edge observations NSS bytes of one domain are unavailable evidence, not counter skew. -/
theorem edgeless_unavailable :
    let nss : ObservedDelta := ⟨.ecmNssLowerBound, 1000, 1, .ecmData, 0⟩
    let epoch (i : ℕ) : ClassificationEpoch :=
      ⟨i, 2000 * i, 2000 * (i + 1), 1, true, true, true, true, ⟨none, some nss, none⟩, ⟨none, some nss, none⟩⟩
    let book := [ClassificationOp.update "a" (epoch 0), .update "a" (epoch 1)].foldl ClassificationOp.run .clear
    let epochs := [(epoch 0).tx, (epoch 1).tx, (epoch 2).tx]
    (book.update "a" (epoch 2)).2.comparisonWindowMs = some 6000 ∧ OneDomain epochs ∧
      edgeBytes epochs < nssBytes epochs + slowBytes epochs ∧
      (book.update "a" (epoch 2)).2.txState = .unavailable := by
  refine ⟨by decide, ⟨.ecmData, fun epoch hepoch value hvalue v hv => ?_⟩, by decide, by decide⟩
  simp only [List.mem_cons, List.not_mem_nil, or_false, or_self] at hepoch
  subst hepoch
  simp only [observations, List.mem_cons, List.not_mem_nil, or_false] at hvalue
  rcases hvalue with rfl | rfl | rfl
  · cases hv
  · cases hv
    rfl
  · cases hv

end Lanspeedd
