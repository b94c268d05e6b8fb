import DOpenWrt.Lanspeedd.RateWindowRepair
import DOpenWrt.Lanspeedd.RateWindowBudget

/-!
# Published rates stay in the budget

`fallback_rate_window_clients`, `aligned_high_rate_window_clients` and `high_rate_window_clients`. The two directions are
crossed: what clients send is received by the LAN. Later steps only lower a direction, or fill what is left of it.
-/

namespace Lanspeedd.RateWindow

open Std TreeTotal

/-- The raw rates of a window. -/
def rawRates (pendingRaw : TreeMap String TrafficCounters) (windowMs : UInt64) : RateMap :=
  (rateWindowClients pendingRaw windowMs).getD ∅

/-- The rate of the LAN that a direction of the clients is held to. -/
def lanBudget (lanRaw : TrafficCounters) (windowMs : UInt64) (receive : Bool) : UInt64 :=
  (lanRates lanRaw windowMs).direction (!receive)

/-! ### Sizes -/

theorem size_foldl_collect (windowMs : UInt64) (l : List (String × TrafficCounters)) {clients raw : RateMap}
    (h : l.foldl (fun clients entry => do
      let clients ← clients
      let counters ← entry.2.fcsNormalized
      some (clients.insert entry.1 (counters.rates windowMs))) (some clients) = some raw) :
    raw.size ≤ clients.size + l.length := by
  induction l generalizing clients with
  | nil => exact (Option.some.inj h ▸ Nat.le_refl _ : raw.size ≤ clients.size)
  | cons entry l ih =>
    rw [List.foldl_cons] at h
    cases hcounters : entry.2.fcsNormalized with
    | none =>
      rw [hcounters] at h
      have hnone (l : List (String × TrafficCounters)) : l.foldl (fun (clients : Option RateMap) entry => do
          let clients ← clients
          let counters ← entry.2.fcsNormalized
          some (clients.insert entry.1 (counters.rates windowMs))) none = none := by
        induction l with
        | nil => rfl
        | cons entry l ih => exact ih
      exact absurd ((hnone l).symm.trans h) (Option.some_ne_none _).symm
    | some counters =>
      rw [hcounters] at h
      have hinsert : (clients.insert entry.1 (counters.rates windowMs)).size ≤ clients.size + 1 :=
        TreeMap.size_insert_le
      have := ih h
      rw [List.length_cons]
      omega

theorem size_rateWindowClients {pendingRaw : TreeMap String TrafficCounters} {windowMs : UInt64} {raw : RateMap}
    (h : rateWindowClients pendingRaw windowMs = some raw) : raw.size ≤ pendingRaw.size := by
  have := size_foldl_collect windowMs pendingRaw.toList h
  rwa [TreeMap.size_emptyc, Nat.zero_add, TreeMap.length_toList] at this

theorem size_rawRates (pendingRaw : TreeMap String TrafficCounters) (windowMs : UInt64) :
    (rawRates pendingRaw windowMs).size ≤ pendingRaw.size := by
  rw [rawRates]
  cases h : rateWindowClients pendingRaw windowMs with
  | none => exact Nat.zero_le _
  | some raw => exact size_rateWindowClients h

/-! ### The fallback window -/

section
variable {raw fallback : RateMap} {lan : Bool → UInt64}

/-- The four steps of `fallback_rate_window_clients`. -/
def fallbackSteps (raw fallback : RateMap) (lan : Bool → UInt64) : RateMap :=
  let clients := (reconcileRateDirection raw (lan false) false).1
  let clients := (reconcileRateDirection clients (lan true) true).1
  let clients := (fillFallbackDirection clients fallback (lan false) false).1
  (fillFallbackDirection clients fallback (lan true) true).1

theorem fallbackRateWindowClients_eq (pendingRaw : TreeMap String TrafficCounters) (fallback : RateMap)
    (lanRaw : TrafficCounters) (windowMs : UInt64) :
    (fallbackRateWindowClients pendingRaw fallback lanRaw windowMs).1 =
      fallbackSteps (rawRates pendingRaw windowMs) fallback (lanBudget lanRaw windowMs) := rfl

/-- Two maps that agree in a direction leave the same gap. -/
theorem gapRates_congr {receive : Bool} {clients clients' : RateMap}
    (h : ∀ key, bpsAt receive clients key = bpsAt receive clients' key) (key : String) :
    gapAt receive clients fallback key = gapAt receive clients' fallback key := by
  rw [gapAt, gapAt, h]

theorem gapTotal_congr {receive : Bool} {clients clients' : RateMap}
    (h : ∀ key, bpsAt receive clients key = bpsAt receive clients' key) :
    gapTotal receive clients fallback = gapTotal receive clients' fallback :=
  total_congr fun key => by rw [weightAt_gapRates, weightAt_gapRates, gapRates_congr h]

theorem clientTotal_congr {receive : Bool} {clients clients' : RateMap}
    (h : ∀ key, bpsAt receive clients key = bpsAt receive clients' key) :
    clientTotal receive clients = clientTotal receive clients' := total_congr h

/-- The rate a client publishes: its scaled raw rate, or its part of what the scaled rates leave. -/
def publishedBps (receive : Bool) (raw fallback : RateMap) (lanBps : UInt64) (key : String) : ℕ :=
  let scaled := (reconcileRateDirection raw lanBps receive).1
  scaledBps (clientTotal receive raw) lanBps.toNat (bpsAt receive raw key) +
    scaledBps (gapTotal receive scaled fallback) (lanBps.toNat - clientTotal receive scaled)
      (gapAt receive scaled fallback key)

/-- Filling a map that agrees with the reconciled one publishes the rates, within the budget. -/
theorem fill_reconciled {receive : Bool} {clients : RateMap} {lanBps : UInt64}
    (htotal : clientTotal receive raw ≤ u128Max) (hsize : fallback.size ≤ u64Limit)
    (h : ∀ key, bpsAt receive clients key = bpsAt receive (reconcileRateDirection raw lanBps receive).1 key) :
    (∀ key, bpsAt receive (fillFallbackDirection clients fallback lanBps receive).1 key =
      publishedBps receive raw fallback lanBps key) ∧
    clientTotal receive (fillFallbackDirection clients fallback lanBps receive).1 ≤ lanBps.toNat := by
  have hfits : clientTotal receive clients ≤ lanBps.toNat := clientTotal_congr h ▸ clientTotal_reconcile_le htotal
  have hclients : clientTotal receive clients ≤ u128Max := hfits.trans ((toNat_lt lanBps).le.trans (by decide))
  refine ⟨fun key => ?_, clientTotal_fill_le hsize hfits⟩
  rw [bpsAt_fill hsize hclients, h key, bpsAt_reconcile htotal, clientTotal_congr h, gapTotal_congr h,
    gapRates_congr h]
  rfl

theorem fallbackSteps_spec (hraw : raw.size ≤ u64Limit) (hsize : fallback.size ≤ u64Limit) (receive : Bool) :
    (∀ key, bpsAt receive (fallbackSteps raw fallback lan) key = publishedBps receive raw fallback (lan receive) key) ∧
    clientTotal receive (fallbackSteps raw fallback lan) ≤ (lan receive).toNat := by
  let tx := (reconcileRateDirection raw (lan false) false).1
  let rx := (reconcileRateDirection tx (lan true) true).1
  let filled := (fillFallbackDirection rx fallback (lan false) false).1
  have hle (bps : UInt64) : bps.toNat ≤ u128Max := (toNat_lt bps).le.trans (by decide)
  have htxRaw : clientTotal false raw ≤ u128Max := clientTotal_lt hraw
  have hrxRaw : clientTotal true raw ≤ u128Max := clientTotal_lt hraw
  have htx_rx (key : String) : bpsAt true tx key = bpsAt true raw key := @bpsAt_not_reconcile false ..
  have hrx_tx (key : String) : bpsAt false rx key = bpsAt false tx key := @bpsAt_not_reconcile true ..
  have hrxTx : clientTotal true tx ≤ u128Max := clientTotal_congr htx_rx ▸ hrxRaw
  have htxTotal : clientTotal false rx ≤ u128Max :=
    clientTotal_congr hrx_tx ▸ (clientTotal_reconcile_le htxRaw).trans (hle _)
  have hrx (key : String) : bpsAt true rx key = bpsAt true (reconcileRateDirection raw (lan true) true).1 key := by
    rw [bpsAt_reconcile hrxTx, bpsAt_reconcile hrxRaw, htx_rx, clientTotal_congr htx_rx]
  have hfilled (key : String) : bpsAt true filled key = bpsAt true rx key :=
    @bpsAt_not_fill false _ _ _ _ hsize htxTotal
  have hfilledTotal : clientTotal true filled ≤ u128Max := by
    rw [clientTotal_congr hfilled, clientTotal_congr hrx]
    exact (clientTotal_reconcile_le hrxRaw).trans (hle _)
  cases receive with
  | false =>
    have hlast (key : String) : bpsAt false (fallbackSteps raw fallback lan) key = bpsAt false filled key :=
      @bpsAt_not_fill true _ _ _ _ hsize hfilledTotal
    have hfill := @fill_reconciled _ _ _ _ (lan false) htxRaw hsize hrx_tx
    exact ⟨fun key => (hlast key).trans (hfill.1 key), clientTotal_congr hlast ▸ hfill.2⟩
  | true => exact fill_reconciled hrxRaw hsize fun key => (hfilled key).trans (hrx key)

end

/-- A client that the scaling leaves a rate keeps it; one without gets no more than its fallback rate. -/
theorem publishedBps_of_scaled {receive : Bool} {raw fallback : RateMap} {lanBps : UInt64} {key : String}
    (htotal : clientTotal receive raw ≤ u128Max) :
    (scaledBps (clientTotal receive raw) lanBps.toNat (bpsAt receive raw key) ≠ 0 →
      publishedBps receive raw fallback lanBps key ≤ bpsAt receive raw key) ∧
    (scaledBps (clientTotal receive raw) lanBps.toNat (bpsAt receive raw key) = 0 →
      publishedBps receive raw fallback lanBps key ≤ bpsAt receive fallback key) := by
  have hscaled := @bpsAt_reconcile receive raw lanBps key htotal
  rw [publishedBps, gapAt, hscaled]
  constructor
  · intro h
    have hzero (whole budget : ℕ) : scaledBps whole budget 0 = 0 := Nat.le_zero.1 scaledBps_le
    rw [if_neg h, hzero, Nat.add_zero]
    exact scaledBps_le
  · intro h
    rw [if_pos h, h, Nat.zero_add]
    exact scaledBps_le

end Lanspeedd.RateWindow
