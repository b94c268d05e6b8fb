import DOpenWrt.Oaf.UciValue

/-!
# The time configuration of the daemon

`af_time_config_t` of `appfilter.h` and `af_load_time_config` of `main.c`.
-/

namespace Oaf
open CString (str)

structure AfTime where
  hour : ℤ := 0
  min : ℤ := 0
  deriving DecidableEq

/-- `time_config_t`. -/
structure TimePeriod where
  startTime : AfTime := {}
  endTime : AfTime := {}
  days : Fin 7 → ℤ := fun _ => 0
  deriving DecidableEq

structure DailyLimitConfig where
  enable : ℤ := 0
  amTime : ℤ := 0
  pmTime : ℤ := 0
  deriving DecidableEq

def maxTimeList : ℕ := 64
def maxTimeListLen : ℕ := 1024

/-- The size of `weekday_str`. -/
def weekdayStrLen : ℕ := 64

structure AfTimeConfig where
  timeMode : ℤ := 0
  segTime : TimePeriod := {}
  denyTime : ℤ := 0
  allowTime : ℤ := 0
  days : Fin 7 → ℤ := fun _ => 0
  timeNum : ℕ := 0
  timeList : Fin maxTimeList → TimePeriod := fun _ => {}
  dailyLimit : Fin 7 → DailyLimitConfig := fun _ => {}

/-! ### `af_load_time_config` -/

section
variable (unfit : ℤ → ℤ)

/-- The time that has been scanned, over what was there. -/
def AfTime.scanned (time : AfTime) (numbers : List ℤ) : AfTime where
  hour := numbers.getD 0 time.hour
  min := numbers.getD 1 time.min

/-- `t_config->days[atoi(p)] = 1`. -/
def setDay (days : Fin 7 → ℤ) (p : List UInt8) : Except OutOfBounds (Fin 7 → ℤ) :=
  if h : 0 ≤ atoi unfit p ∧ (atoi unfit p).toNat < 7 then .ok (Function.update days ⟨(atoi unfit p).toNat, h.2⟩ 1)
  else .error .write

/-- The weekdays of one period, which are checked. -/
def setWeekday (days : Fin 7 → ℤ) (wd : List UInt8) : Fin 7 → ℤ :=
  if h : 0 ≤ atoi unfit wd ∧ (atoi unfit wd).toNat < 7 then Function.update days ⟨(atoi unfit wd).toNat, h.2⟩ 1 else days

/-- One token of the time list: the configuration and `old_ver_config`. -/
def loadPeriod (state : AfTimeConfig × ℤ) (p : List UInt8) : Except OutOfBounds (AfTimeConfig × ℤ) :=
  let (tConfig, oldVerConfig) := state
  if h : tConfig.timeNum < maxTimeList then do
    let period := { tConfig.timeList ⟨tConfig.timeNum, h⟩ with days := tConfig.days }
    let (period, timePart, oldVerConfig) ←
      match p.findIdx? (· = ';'.toUInt8) with
      | some semicolon =>
        if weekdayStrLen ≤ semicolon then .error .write
        else
          let days := (tokens ',' (p.take semicolon)).foldl (setWeekday unfit) fun _ => 0
          .ok ({ period with days }, p.drop (semicolon + 1), oldVerConfig)
      | none => .ok (period, p, 1)
    let numbers := scanNumbers unfit [':', '-', ':'] timePart
    let period := { period with
      startTime := period.startTime.scanned (numbers.take 2), endTime := period.endTime.scanned (numbers.drop 2) }
    return ({ tConfig with
      timeList := Function.update tConfig.timeList ⟨tConfig.timeNum, h⟩ period
      timeNum := if numbers.length = 4 then tConfig.timeNum + 1 else tConfig.timeNum }, oldVerConfig)
  else .error .write

/-- The limit of a weekday: `enable:am_time:pm_time`, or without `enable`. -/
def dailyLimitOf (dailyLimitStr : List UInt8) : DailyLimitConfig :=
  if dailyLimitStr = [] then {}
  else
    match dailyLimitStr.findIdx? (· = ':'.toUInt8) with
    | none => { enable := 1, amTime := atoi unfit dailyLimitStr }
    | some firstColon =>
      let behind := dailyLimitStr.drop (firstColon + 1)
      match behind.findIdx? (· = ':'.toUInt8) with
      | some secondColon => {
          enable := atoi unfit dailyLimitStr
          amTime := atoi unfit behind
          pmTime := atoi unfit (behind.drop (secondColon + 1)) }
      | none => { enable := 1, amTime := atoi unfit dailyLimitStr, pmTime := atoi unfit behind }

/-- The text of an option, in a buffer of 128 bytes. -/
def optionText (uci : Uci) (key : String) : List UInt8 := (afUciGetValue (uci key) [] 128).2

/-- The tokens of `time_list_copy`. -/
def periodTokens (timeListBuf : List UInt8) : List (List UInt8) := tokens ' ' (timeListBuf.take (maxTimeListLen - 1))

def afLoadTimeConfig (uci : Uci) : Except OutOfBounds (ℤ × AfTimeConfig) := do
  let startTime := AfTime.scanned {} (scanNumbers unfit [':'] (optionText uci "appfilter.time.start_time"))
  let endTime := AfTime.scanned {} (scanNumbers unfit [':'] (optionText uci "appfilter.time.end_time"))
  let days ← (tokens ' ' (optionText uci "appfilter.time.days")).foldlM (setDay unfit) fun _ => 0
  let (_, timeListBuf) ← afUciGetListValue (uci "appfilter.time.time") [] maxTimeListLen (str " ")
  let tConfig : AfTimeConfig := {
    timeMode := afUciGetIntValue unfit (uci "appfilter.time.time_mode")
    denyTime := afUciGetIntValue unfit (uci "appfilter.time.deny_time")
    allowTime := afUciGetIntValue unfit (uci "appfilter.time.allow_time")
    segTime := { startTime, endTime }
    days := days }
  if periodTokens timeListBuf = [] then return (0, tConfig)
  else
    let (tConfig, oldVerConfig) ← (periodTokens timeListBuf).foldlM (loadPeriod unfit) (tConfig, 0)
    if tConfig.timeMode = 2 then
      return (oldVerConfig, { tConfig with
        dailyLimit := fun weekday =>
          dailyLimitOf unfit (optionText uci ("appfilter.time.daily_limit_" ++ toString weekday.val)) })
    else return (oldVerConfig, tConfig)

end

end Oaf
