import DOpenWrt.Rtp2httpd.Timezone

/-!
# `gmtime` and `timegm`

`gmtime` finds the date of a number of seconds, and `timegm` counts them again. The years whose first second is known
bound what either gives.
-/

namespace Rtp2httpd

/-! ### The year of a day -/

/-- The day `r` of a century that begins in March is in the year `t` of the cycle `k` of four years. The quotient by
1460 is the number of leap days until then. -/
theorem year_of_century {c r : Int} (hc : 0 ≤ c ∧ c ≤ 3) (hr : 0 ≤ r ∧ r ≤ 36523) :
    ∃ k t, 0 ≤ k ∧ k ≤ 24 ∧ 0 ≤ t ∧ t ≤ 3 ∧ (r - (r + 24 * c) / 1460) / 365 = 4 * k + t ∧
      0 ≤ r - 1461 * k - 365 * t ∧ r - 1461 * k - 365 * t ≤ 365 := by
  refine ⟨r / 1461, (r % 1461 - (r / 1461 + r % 1461 + 24 * c) / 1460) / 365, ?_⟩
  have hk : 0 ≤ r / 1461 ∧ r / 1461 ≤ 24 := by omega
  have hs : 0 ≤ r % 1461 ∧ r % 1461 ≤ 1460 := by omega
  have hrk : r = 1461 * (r / 1461) + r % 1461 := by omega
  generalize r / 1461 = k at *
  generalize r % 1461 = s at *
  subst hrk
  have hq : (1461 * k + s + 24 * c) / 1460 = k + (k + s + 24 * c) / 1460 := by omega
  rw [hq]
  have h01 : (k + s + 24 * c) / 1460 = 0 ∨ (k + s + 24 * c) / 1460 = 1 := by omega
  rcases h01 with h | h
  · rw [h]
    omega
  · rw [h]
    omega

/-- The day `doe` of an era is in its year `yoe`. -/
theorem year_of_era {doe yoe : Int} (h0 : 0 ≤ doe) (h1 : doe ≤ 146096)
    (hy : yoe = (doe - doe / 1460 + doe / 36524 - doe / 146096) / 365) :
    0 ≤ yoe ∧ yoe ≤ 399 ∧
    0 ≤ doe - (365 * yoe + yoe / 4 - yoe / 100) ∧ doe - (365 * yoe + yoe / 4 - yoe / 100) ≤ 365 := by
  by_cases hlast : doe = 146096
  · subst hlast
    have : yoe = 399 := by omega
    subst this
    decide
  have he : doe / 146096 = 0 := by omega
  have hc : 0 ≤ doe / 36524 ∧ doe / 36524 ≤ 3 := by omega
  have hr : 0 ≤ doe % 36524 ∧ doe % 36524 ≤ 36523 := by omega
  have hdoe : doe = 36524 * (doe / 36524) + doe % 36524 := by omega
  rw [he] at hy
  obtain ⟨k, t, hk0, hk, ht0, ht, hyear, hd0, hd⟩ := year_of_century hc hr
  generalize doe / 36524 = c at *
  generalize doe % 36524 = r at *
  subst hdoe
  have hq : (36524 * c + r) / 1460 = 25 * c + (r + 24 * c) / 1460 := by omega
  rw [hq] at hy
  generalize (r + 24 * c) / 1460 = x at *
  have hyoe : yoe = 100 * c + (4 * k + t) := by omega
  clear hy hq
  subst hyoe
  have h4 : (100 * c + (4 * k + t)) / 4 = 25 * c + k := by omega
  have h100 : (100 * c + (4 * k + t)) / 100 = c := by omega
  omega

theorem gmtime_fields (u : Int) : 0 ≤ (gmtime u).mon ∧ (gmtime u).mon ≤ 11 ∧ 1 ≤ (gmtime u).mday ∧ (gmtime u).mday ≤ 31 ∧
    0 ≤ (gmtime u).hour ∧ (gmtime u).hour ≤ 23 ∧ 0 ≤ (gmtime u).min ∧ (gmtime u).min ≤ 59 ∧
    0 ≤ (gmtime u).sec ∧ (gmtime u).sec ≤ 59 := by
  have hdoe : 0 ≤ (u / 86400 + 719468) % 146097 ∧ (u / 86400 + 719468) % 146097 ≤ 146096 := by omega
  obtain ⟨-, -, hday0, hday⟩ := year_of_era hdoe.1 hdoe.2 rfl
  unfold gmtime
  dsimp only
  generalize (u / 86400 + 719468) % 146097 = doe at *
  generalize (doe - doe / 1460 + doe / 36524 - doe / 146096) / 365 = yoe at *
  generalize doe - (365 * yoe + yoe / 4 - yoe / 100) = doy at *
  split_ifs <;> omega

/-- The days of the year before a month that is counted from March. -/
theorem daysBeforeMon_march {m : Int} (h0 : 0 ≤ m) (h1 : m ≤ 11) :
    (m < 10 → daysBeforeMon.getD ((m + 2) % 12).toNat 0 = 59 + (153 * m + 2) / 5) ∧
      (10 ≤ m → daysBeforeMon.getD ((m - 10) % 12).toNat 0 = (153 * m + 2) / 5 - 306) := by
  obtain ⟨n, rfl⟩ := Int.eq_ofNat_of_zero_le h0
  have hn : n ≤ 11 := by omega
  interval_cases n <;> exact ⟨by decide, by decide⟩

/-- The days from the epoch to the first of March. -/
theorem daysToMarch {yoe : Int} (h0 : 0 ≤ yoe) (h1 : yoe ≤ 399) (era : Int) :
    let year := yoe + era * 400 - 1900
    (year - 70) * 365 + (year - 69) / 4 - (year - 1) / 100 + (year + 299) / 400 +
        (59 + if (year + 1900) % 4 = 0 ∧ ((year + 1900) % 100 ≠ 0 ∨ (year + 1900) % 400 = 0) then 1 else 0) =
      146097 * era + (365 * yoe + yoe / 4 - yoe / 100) - 719468 := by
  intro year
  have h4 : (yoe + era * 400 - 1900 - 69) / 4 = (yoe - 1969) / 4 + 100 * era := by omega
  have h100 : (yoe + era * 400 - 1900 - 1) / 100 = (yoe - 1901) / 100 + 4 * era := by omega
  have h400 : (yoe + era * 400 - 1900 + 299) / 400 = (yoe - 1601) / 400 + era := by omega
  split_ifs with hleap
  · omega
  · omega

/-- The days from the epoch to the first of January of the next year. -/
theorem daysToJanuary {yoe : Int} (h0 : 0 ≤ yoe) (h1 : yoe ≤ 399) (era : Int) :
    let year := yoe + era * 400 + 1 - 1900
    (year - 70) * 365 + (year - 69) / 4 - (year - 1) / 100 + (year + 299) / 400 =
      146097 * era + (365 * yoe + yoe / 4 - yoe / 100) + 306 - 719468 := by
  omega

theorem timegm_gmtime (u : Int) : timegm (gmtime u) = u := by
  have hdoe : 0 ≤ (u / 86400 + 719468) % 146097 ∧ (u / 86400 + 719468) % 146097 ≤ 146096 := by omega
  obtain ⟨hyear0, hyear, hday0, hday⟩ := year_of_era hdoe.1 hdoe.2 rfl
  have hz : u / 86400 = 146097 * ((u / 86400 + 719468) / 146097) + (u / 86400 + 719468) % 146097 - 719468 := by omega
  unfold gmtime timegm
  dsimp only
  generalize (u / 86400 + 719468) / 146097 = era at *
  generalize (u / 86400 + 719468) % 146097 = doe at *
  generalize (doe - doe / 1460 + doe / 36524 - doe / 146096) / 365 = yoe at *
  generalize hdoy : doe - (365 * yoe + yoe / 4 - yoe / 100) = doy at *
  have hm : 0 ≤ (5 * doy + 2) / 153 ∧ (5 * doy + 2) / 153 ≤ 11 := by omega
  obtain ⟨hspring, hwinter⟩ := daysBeforeMon_march hm.1 hm.2
  have hmarch := daysToMarch hyear0 hyear era
  have hjanuary := daysToJanuary hyear0 hyear era
  dsimp only at hmarch hjanuary
  generalize (5 * doy + 2) / 153 = m at *
  rcases Int.lt_or_le m 10 with hlt | hge
  · have hmon : (m + 2) / 12 = 0 ∧ 2 ≤ ((m + 2) % 12).toNat ∧ ¬ m + 2 ≤ 1 := by omega
    rw [if_pos hlt, if_neg hmon.2.2, hspring hlt, hmon.1]
    simp only [hmon.2.1, true_and, Int.add_zero]
    clear hspring hwinter hjanuary
    split_ifs at hmarch ⊢ <;> omega
  · have hmon : (m - 10) / 12 = 0 ∧ ¬ 2 ≤ ((m - 10) % 12).toNat ∧ m - 10 ≤ 1 := by omega
    rw [if_neg (show ¬ m < 10 by omega), if_pos hmon.2.2, hwinter hge, hmon.1]
    simp only [hmon.2.1, false_and, if_false, Int.add_zero]
    clear hspring hwinter hmarch
    omega

/-! ### Years -/

/-- The days from the epoch to the first of January of the year 1900 + `year`. -/
def yearDays (year : Int) : Int := (year - 70) * 365 + (year - 69) / 4 - (year - 1) / 100 + (year + 299) / 400

section
variable {tm : Tm} {year : Int}

theorem yearDays_succ (year : Int) : yearDays (year + 1) = yearDays year + 365 +
    if (year + 1900) % 4 = 0 ∧ ((year + 1900) % 100 ≠ 0 ∨ (year + 1900) % 400 = 0) then 1 else 0 := by
  unfold yearDays
  have h4 : (year + 1 - 69) / 4 = (year - 69) / 4 + if (year + 1900) % 4 = 0 then 1 else 0 := by split <;> omega
  have h100 : (year + 1 - 1) / 100 = (year - 1) / 100 + if (year + 1900) % 100 = 0 then 1 else 0 := by split <;> omega
  have h400 : (year + 1 + 299) / 400 = (year + 299) / 400 + if (year + 1900) % 400 = 0 then 1 else 0 := by split <;> omega
  rw [h4, h100, h400]
  split_ifs <;> omega

theorem yearDays_mono {y z : Int} (h : y ≤ z) : yearDays y ≤ yearDays z := by
  unfold yearDays
  omega

/-- A day of a month is in the year. -/
theorem timegm_bounds (hmon : 0 ≤ tm.mon ∧ tm.mon ≤ 11) (hmday : 1 ≤ tm.mday ∧ tm.mday ≤ 31)
    (hhour : 0 ≤ tm.hour ∧ tm.hour ≤ 23) (hmin : 0 ≤ tm.min ∧ tm.min ≤ 59) (hsec : 0 ≤ tm.sec ∧ tm.sec ≤ 60) :
    yearDays tm.year * 86400 ≤ timegm tm ∧ timegm tm ≤ yearDays (tm.year + 1) * 86400 ∧
      (tm.sec ≤ 59 → timegm tm < yearDays (tm.year + 1) * 86400) := by
  have hdiv : tm.mon / 12 = 0 ∧ tm.mon % 12 = tm.mon := by omega
  have hbefore : 0 ≤ daysBeforeMon.getD tm.mon.toNat 0 ∧ daysBeforeMon.getD tm.mon.toNat 0 ≤ 334 := by
    obtain ⟨n, hn⟩ := Int.eq_ofNat_of_zero_le hmon.1
    have hle : n ≤ 11 := by omega
    rw [hn, Int.toNat_natCast]
    interval_cases n <;> exact ⟨by decide, by decide⟩
  have hsucc := yearDays_succ tm.year
  unfold timegm
  dsimp only
  rw [hdiv.1, hdiv.2, Int.add_zero]
  have hdays : (tm.year - 70) * 365 + (tm.year - 69) / 4 - (tm.year - 1) / 100 + (tm.year + 299) / 400 =
    yearDays tm.year := rfl
  rw [hdays]
  generalize daysBeforeMon.getD tm.mon.toNat 0 = before at *
  generalize yearDays (tm.year + 1) = next at *
  generalize yearDays tm.year = first at *
  by_cases hleap : (tm.year + 1900) % 4 = 0 ∧ ((tm.year + 1900) % 100 ≠ 0 ∨ (tm.year + 1900) % 400 = 0)
  · rw [if_pos hleap] at hsucc
    simp only [hleap, and_true]
    split_ifs <;> omega
  · rw [if_neg hleap] at hsucc
    simp only [hleap, and_false, if_false]
    omega

theorem le_gmtime_year {u : Int} : year ≤ (gmtime u).year ↔ yearDays year * 86400 ≤ u := by
  obtain ⟨hmon0, hmon, hday0, hday, hhour0, hhour, hmin0, hmin, hsec0, hsec⟩ := gmtime_fields u
  obtain ⟨hlow, -, hhigh⟩ := timegm_bounds ⟨hmon0, hmon⟩ ⟨hday0, hday⟩ ⟨hhour0, hhour⟩ ⟨hmin0, hmin⟩ ⟨hsec0, hsec.trans (by decide)⟩
  rw [timegm_gmtime] at hlow hhigh
  constructor
  · intro h
    have := yearDays_mono h
    omega
  · intro h
    by_contra hlt
    have := yearDays_mono (show (gmtime u).year + 1 ≤ year by omega)
    have := hhigh hsec
    omega

end

end Rtp2httpd
