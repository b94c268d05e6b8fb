import DOpenWrt.Oaf.TimeConfig

/-!
# Dynamic time mode

`update_dynamic_used_time` and `af_check_time_dynamic` of `main.c`. Inside the segment the ticks are counted round a
period of `allow_time` and `deny_time`; the status is a function of the place in it.
-/

namespace Oaf

/-- `af_run_time_status_t`. -/
structure AfRunTimeStatus where
  denyTime : ℤ
  allowTime : ℤ
  filter : ℤ
  matchTime : ℤ
  remainTime : ℤ
  usedTime : ℤ
  periodBlocked : ℤ
  deriving DecidableEq

/-- What `localtime` tells of the clock. -/
structure LocalTime where
  wday : Fin 7
  hour : ℤ
  min : ℤ

/-- `af_init_time_status`. -/
def afInitTimeStatus : AfRunTimeStatus where
  filter := 0
  denyTime := 0
  allowTime := 0
  matchTime := 0
  remainTime := 0
  usedTime := 0
  periodBlocked := 0

def afCheckTimeDynamic (status : AfRunTimeStatus) : ℤ := status.filter

def updateDynamicUsedTime (tConfig : AfTimeConfig) (status : AfRunTimeStatus) (currentTime : LocalTime) :
    ℤ × AfRunTimeStatus :=
  if tConfig.timeMode ≠ 1 then (-1, status)
  else if tConfig.days currentTime.wday = 0 then (-1, afInitTimeStatus)
  else
    let currentMinutes := currentTime.hour * 60 + currentTime.min
    let startMinutes := tConfig.segTime.startTime.hour * 60 + tConfig.segTime.startTime.min
    let endMinutes := tConfig.segTime.endTime.hour * 60 + tConfig.segTime.endTime.min
    if ¬ (startMinutes ≤ currentMinutes ∧ currentMinutes ≤ endMinutes) then (0, afInitTimeStatus)
    else
      let status := { status with matchTime := 1 }
      if status.filter = 1 then
        let status := { status with denyTime := status.denyTime + 1 }
        if tConfig.denyTime ≤ status.denyTime then (0, { status with filter := 0, denyTime := 0 }) else (0, status)
      else
        let status := { status with allowTime := status.allowTime + 1 }
        if tConfig.allowTime ≤ status.allowTime then (0, { status with filter := 1, allowTime := 0 }) else (0, status)

/-- The status after ticks at these times. -/
def dynamicTicks (tConfig : AfTimeConfig) (status : AfRunTimeStatus) (times : List LocalTime) : AfRunTimeStatus :=
  times.foldl (fun status now => (updateDynamicUsedTime tConfig status now).2) status

/-- The time is on a configured day, inside the segment. -/
def AfTimeConfig.InSegment (tConfig : AfTimeConfig) (now : LocalTime) : Prop :=
  tConfig.days now.wday ≠ 0 ∧
    tConfig.segTime.startTime.hour * 60 + tConfig.segTime.startTime.min ≤ now.hour * 60 + now.min ∧
    now.hour * 60 + now.min ≤ tConfig.segTime.endTime.hour * 60 + tConfig.segTime.endTime.min

instance AfTimeConfig.decidableInSegment (tConfig : AfTimeConfig) (now : LocalTime) :
    Decidable (tConfig.InSegment now) := inferInstanceAs (Decidable (_ ∧ _))

/-- How many of the last ticks were inside the segment. -/
def AfTimeConfig.insideTicks (tConfig : AfTimeConfig) (times : List LocalTime) : ℕ :=
  (times.reverse.takeWhile (tConfig.InSegment ·)).length

/-- The status at a place of the period. -/
structure AtPlace (tConfig : AfTimeConfig) (place : ℤ) (status : AfRunTimeStatus) : Prop where
  filter : status.filter = if place < tConfig.allowTime then 0 else 1
  allowTime : status.allowTime = if place < tConfig.allowTime then place else 0
  denyTime : status.denyTime = if place < tConfig.allowTime then 0 else place - tConfig.allowTime

section
variable {tConfig : AfTimeConfig} {status : AfRunTimeStatus} {now : LocalTime}

/-- A tick outside starts the period again. -/
theorem updateDynamicUsedTime_outside (hmode : tConfig.timeMode = 1) (hnow : ¬ tConfig.InSegment now) :
    (updateDynamicUsedTime tConfig status now).2 = afInitTimeStatus := by
  rw [updateDynamicUsedTime, if_neg (not_not.2 hmode)]
  split
  · rfl
  · next hday => dsimp only; rw [if_pos fun h => hnow ⟨hday, h⟩]

/-- A tick inside counts in the phase it is in. -/
theorem updateDynamicUsedTime_inside (hmode : tConfig.timeMode = 1) (hnow : tConfig.InSegment now) :
    (updateDynamicUsedTime tConfig status now).2 =
      if status.filter = 1 then
        if tConfig.denyTime ≤ status.denyTime + 1 then { status with matchTime := 1, filter := 0, denyTime := 0 }
        else { status with matchTime := 1, denyTime := status.denyTime + 1 }
      else if tConfig.allowTime ≤ status.allowTime + 1 then { status with matchTime := 1, filter := 1, allowTime := 0 }
      else { status with matchTime := 1, allowTime := status.allowTime + 1 } := by
  rw [updateDynamicUsedTime, if_neg (not_not.2 hmode), if_neg hnow.1]
  dsimp only
  rw [if_neg (not_not.2 hnow.2)]
  split
  · split <;> rfl
  · split <;> rfl

theorem atPlace_init (hallow : 0 < tConfig.allowTime) : AtPlace tConfig 0 afInitTimeStatus where
  filter := (if_pos hallow).symm
  allowTime := (if_pos hallow).symm
  denyTime := (if_pos hallow).symm

theorem atPlace_allow {place : ℤ} (h : place < tConfig.allowTime) :
    AtPlace tConfig place status ↔ status.filter = 0 ∧ status.allowTime = place ∧ status.denyTime = 0 := by
  refine ⟨fun ⟨hf, ha, hd⟩ => ?_, fun ⟨hf, ha, hd⟩ => ⟨?_, ?_, ?_⟩⟩
  · rw [if_pos h] at hf ha hd
    exact ⟨hf, ha, hd⟩
  · rwa [if_pos h]
  · rwa [if_pos h]
  · rwa [if_pos h]

theorem atPlace_deny {place : ℤ} (h : ¬ place < tConfig.allowTime) :
    AtPlace tConfig place status ↔
      status.filter = 1 ∧ status.allowTime = 0 ∧ status.denyTime = place - tConfig.allowTime := by
  refine ⟨fun ⟨hf, ha, hd⟩ => ?_, fun ⟨hf, ha, hd⟩ => ⟨?_, ?_, ?_⟩⟩
  · rw [if_neg h] at hf ha hd
    exact ⟨hf, ha, hd⟩
  · rwa [if_neg h]
  · rwa [if_neg h]
  · rwa [if_neg h]

/-- A tick inside goes on by one place, round the period. -/
theorem AtPlace.tick (hmode : tConfig.timeMode = 1) (hallow : 0 < tConfig.allowTime) (hdeny : 0 < tConfig.denyTime)
    (hnow : tConfig.InSegment now) {place : ℤ} (hplace : place < tConfig.allowTime + tConfig.denyTime)
    (h : AtPlace tConfig place status) :
    AtPlace tConfig (if place + 1 = tConfig.allowTime + tConfig.denyTime then 0 else place + 1)
      (updateDynamicUsedTime tConfig status now).2 := by
  rw [updateDynamicUsedTime_inside hmode hnow]
  by_cases hphase : place < tConfig.allowTime
  · obtain ⟨hfilter, hcount, hother⟩ := (atPlace_allow hphase).1 h
    have hnext : ¬ place + 1 = tConfig.allowTime + tConfig.denyTime := by omega
    rw [if_neg hnext, if_neg (hfilter ▸ zero_ne_one), hcount]
    split
    · next hswitch => exact (atPlace_deny (by omega)).2 ⟨rfl, rfl, by dsimp only; omega⟩
    · next hstay => exact (atPlace_allow (by omega)).2 ⟨hfilter, rfl, hother⟩
  · obtain ⟨hfilter, hother, hcount⟩ := (atPlace_deny hphase).1 h
    rw [if_pos hfilter, hcount]
    split
    · next hswitch =>
      rw [if_pos (by omega)]
      exact (atPlace_allow hallow).2 ⟨rfl, hother, rfl⟩
    · next hstay =>
      rw [if_neg (by omega)]
      exact (atPlace_deny (by omega)).2 ⟨hfilter, hother, by dsimp only; omega⟩

/-- Between ticks. -/
theorem AtPlace.bounds {place : ℤ} (hplace : 0 ≤ place) (hlt : place < tConfig.allowTime + tConfig.denyTime)
    (hallow : 0 < tConfig.allowTime) (hdeny : 0 < tConfig.denyTime) (h : AtPlace tConfig place status) :
    (0 ≤ status.allowTime ∧ status.allowTime < tConfig.allowTime) ∧
      (0 ≤ status.denyTime ∧ status.denyTime < tConfig.denyTime) ∧ (status.allowTime = 0 ∨ status.denyTime = 0) := by
  by_cases hphase : place < tConfig.allowTime
  · obtain ⟨-, hcount, hother⟩ := (atPlace_allow hphase).1 h
    exact ⟨by omega, by omega, .inr hother⟩
  · obtain ⟨-, hother, hcount⟩ := (atPlace_deny hphase).1 h
    exact ⟨by omega, by omega, .inl hother⟩

end

/-! ### Runs -/

section
variable {tConfig : AfTimeConfig} {times : List LocalTime} {now : LocalTime}

theorem insideTicks_inside (hnow : tConfig.InSegment now) :
    tConfig.insideTicks (times ++ [now]) = tConfig.insideTicks times + 1 := by
  rw [AfTimeConfig.insideTicks, List.reverse_append, List.reverse_singleton, List.singleton_append]
  simp only [List.takeWhile_cons, hnow, decide_true, if_true, List.length_cons, AfTimeConfig.insideTicks]

theorem insideTicks_outside (hnow : ¬ tConfig.InSegment now) : tConfig.insideTicks (times ++ [now]) = 0 := by
  rw [AfTimeConfig.insideTicks, List.reverse_append, List.reverse_singleton, List.singleton_append]
  simp only [List.takeWhile_cons, hnow, decide_false, Bool.false_eq_true, if_false, List.length_nil]

/-- The next place of the period, as a remainder. -/
theorem emod_succ {k period : ℤ} (hperiod : 0 < period) :
    (k + 1) % period = if k % period + 1 = period then 0 else k % period + 1 := by
  have hlt := Int.emod_lt_of_pos k hperiod
  have hnonneg := Int.emod_nonneg k hperiod.ne'
  rw [← Int.emod_add_emod]
  split
  · next h => rw [h, Int.emod_self]
  · next h => exact Int.emod_eq_of_lt (by omega) (by omega)

/-- After every run the status is that of the place which the ticks inside have reached. -/
theorem atPlace_ticks (hmode : tConfig.timeMode = 1) (hallow : 0 < tConfig.allowTime) (hdeny : 0 < tConfig.denyTime)
    (times : List LocalTime) :
    AtPlace tConfig ((tConfig.insideTicks times : ℤ) % (tConfig.allowTime + tConfig.denyTime))
      (dynamicTicks tConfig afInitTimeStatus times) := by
  have hperiod : 0 < tConfig.allowTime + tConfig.denyTime := add_pos hallow hdeny
  induction times using List.reverseRecOn with
  | nil => exact Int.zero_emod _ ▸ atPlace_init hallow
  | append_singleton times now ih =>
    rw [dynamicTicks, List.foldl_concat]
    by_cases hnow : tConfig.InSegment now
    · rw [insideTicks_inside hnow, Nat.cast_succ, emod_succ hperiod]
      exact ih.tick hmode hallow hdeny hnow (Int.emod_lt_of_pos _ hperiod)
    · rw [insideTicks_outside hnow, updateDynamicUsedTime_outside hmode hnow, Nat.cast_zero, Int.zero_emod]
      exact atPlace_init hallow

end

/-- The time is filtered in the second part of the period, and only there; the counters stay below their limits, one of
them zero. A tick outside the segment starts the period again whatever the status was. -/
theorem dynamicTicks_alternate (tConfig : AfTimeConfig) (hmode : tConfig.timeMode = 1) (hallow : 0 < tConfig.allowTime)
    (hdeny : 0 < tConfig.denyTime) (times : List LocalTime) :
    (afCheckTimeDynamic (dynamicTicks tConfig afInitTimeStatus times) =
      if (tConfig.insideTicks times : ℤ) % (tConfig.allowTime + tConfig.denyTime) < tConfig.allowTime then 0 else 1) ∧
    ((0 ≤ (dynamicTicks tConfig afInitTimeStatus times).allowTime ∧
        (dynamicTicks tConfig afInitTimeStatus times).allowTime < tConfig.allowTime) ∧
      (0 ≤ (dynamicTicks tConfig afInitTimeStatus times).denyTime ∧
        (dynamicTicks tConfig afInitTimeStatus times).denyTime < tConfig.denyTime) ∧
      ((dynamicTicks tConfig afInitTimeStatus times).allowTime = 0 ∨
        (dynamicTicks tConfig afInitTimeStatus times).denyTime = 0)) ∧
    ∀ (status : AfRunTimeStatus) (now : LocalTime), ¬ tConfig.InSegment now →
      (updateDynamicUsedTime tConfig status now).2 = afInitTimeStatus := by
  have hplace := atPlace_ticks hmode hallow hdeny times
  have hperiod : 0 < tConfig.allowTime + tConfig.denyTime := add_pos hallow hdeny
  exact ⟨hplace.filter,
    hplace.bounds (Int.emod_nonneg _ hperiod.ne') (Int.emod_lt_of_pos _ hperiod) hallow hdeny,
    fun status now hnow => updateDynamicUsedTime_outside hmode hnow⟩

/-- Two minutes allowed and one denied, every day from eight to ten. -/
def eveningConfig : AfTimeConfig where
  timeMode := 1
  segTime := { startTime := ⟨20, 0⟩, endTime := ⟨22, 0⟩ }
  denyTime := 1
  allowTime := 2
  days := fun _ => 1

theorem dynamicTicks_alternate_evening : afCheckTimeDynamic
    (dynamicTicks eveningConfig afInitTimeStatus [⟨0, 19, 59⟩, ⟨0, 20, 0⟩, ⟨0, 20, 1⟩]) = 1 :=
  (dynamicTicks_alternate eveningConfig rfl (by decide) (by decide) [⟨0, 19, 59⟩, ⟨0, 20, 0⟩, ⟨0, 20, 1⟩]).1

end Oaf
