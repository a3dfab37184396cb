import Mathlib.Tactic

/-!
# The hardware clock at boot

At boot the hardware clock is compared with the system time, which must not be
far ahead of it. Both times lose their last binary digits first, so that what is
compared is the block of seconds each of them is in. What the kernel answers is
an input.
-/

set_option autoImplicit false

namespace EosPayg.HardwareClock

abbrev Errno := ℕ

/-- A broken-down time. Months count from zero and years from 1900. -/
structure Tm where
  tmSec : ℤ
  tmMin : ℤ
  tmHour : ℤ
  tmMday : ℤ
  tmMon : ℤ
  tmYear : ℤ
  deriving DecidableEq

def leapYears (year : ℤ) : ℤ := year/4-year/100+year/400

def daysBeforeMonth : List ℤ := [0, 31, 59, 90, 120, 151, 181, 212, 243, 273, 304, 334]

/-- Months beyond the year are carried over; the other fields may be of any size. -/
def timegm (tm : Tm) : ℤ :=
  let year := 1900+tm.tmYear+tm.tmMon/12
  let month := (tm.tmMon%12).toNat
  let leaps := leapYears (if 2 ≤ month then year else year-1)-leapYears 1969
  let days := 365*(year-1970)+leaps+daysBeforeMonth.getD month 0+tm.tmMday-1
  days*86400+tm.tmHour*3600+tm.tmMin*60+tm.tmSec

example : timegm ⟨0, 0, 0, 1, 0, 70⟩ = 0 := by decide

/-- A day of which the next one is not in February. -/
example : timegm ⟨59, 59, 23, 29, 1, 100⟩+1 = timegm ⟨0, 0, 0, 1, 2, 100⟩ := by decide

structure Answers where
  openRtc : Except Errno ℕ
  rtcRdTime : Except Errno Tm
  time : ℤ

inductive Warning where
  | failedToOpenRtc (errno : Errno)
  | failedToReadRtc (errno : Errno)
  | rtcOutOfSync
  | rtcFailure (minutes : ℕ)
  deriving DecidableEq

inductive Callback where
  | sourceHwclockUpdate
  | paygSystemPoweroff
  deriving DecidableEq

/-- What a function leaves: the descriptor of the clock, the warnings it gave and
the timeouts it added, each with its seconds. -/
structure Boot where
  rtcFd : ℤ
  warnings : List Warning
  timeouts : List (ℕ × Callback)
  deriving DecidableEq

def gWarning (b : Boot) (w : Warning) : Boot := { b with warnings := b.warnings++[w] }

def gTimeoutAddSeconds (b : Boot) (secs : ℕ) (cb : Callback) : Boot :=
  { b with timeouts := b.timeouts++[(secs,cb)] }

def bootNew : Boot := ⟨-1, [], []⟩

def paygHwclockInit (b : Boot) (k : Answers) : Boot × Bool :=
  match k.openRtc with
  | .error errno => (gWarning { b with rtcFd := -1 } (.failedToOpenRtc errno), false)
  | .ok fd =>
    let b := { b with rtcFd := fd }
    match k.rtcRdTime with
    | .error errno => (gWarning b (.failedToReadRtc errno), false)
    | .ok tm =>
      let rtcSecs := timegm tm >>> (19 : ℕ)
      let sysSecs := k.time >>> (19 : ℕ)
      if rtcSecs < sysSecs then (gWarning b .rtcOutOfSync, false)
      else (gTimeoutAddSeconds b 659 .sourceHwclockUpdate, true)

def timeoutPoweroffOnErrorMinutes : ℕ := 20

def setupRtcUpdater (b : Boot) (enforcingMode : Bool) (k : Answers) : Boot :=
  if enforcingMode then
    let r := paygHwclockInit b k
    if r.2 then r.1
    else
      gTimeoutAddSeconds (gWarning r.1 (.rtcFailure timeoutPoweroffOnErrorMinutes))
        (timeoutPoweroffOnErrorMinutes*60) .paygSystemPoweroff
  else b

section Blocks
variable {d x y : ℤ} (hd : 0 < d)
include hd

theorem block_lt_iff : x/d < y/d ↔ ∃ m, x < m*d ∧ m*d ≤ y := by
  constructor
  · intro h
    exact ⟨y/d,(Int.ediv_lt_iff_lt_mul hd).mp h,(Int.le_ediv_iff_mul_le hd).mp le_rfl⟩
  · rintro ⟨m,hx,hy⟩
    have hxm : x/d < m := (Int.ediv_lt_iff_lt_mul hd).mpr hx
    have hmy : m ≤ y/d := (Int.le_ediv_iff_mul_le hd).mpr hy
    exact hxm.trans_le hmy

theorem not_block_lt_iff : ¬x/d < y/d ↔ x%d+(y-x) < d := by
  have hr := Int.emod_add_mul_ediv x d
  have hend : (x/d+1)*d = d*(x/d)+d := by ring
  rw [Int.lt_iff_add_one_le,Int.le_ediv_iff_mul_le hd,hend]
  omega

end Blocks

theorem init_reads (b : Boot) (fd : ℕ) (tm : Tm) (sys : ℤ) :
    paygHwclockInit b ⟨.ok fd, .ok tm, sys⟩ =
      if timegm tm/2^19 < sys/2^19 then (gWarning { b with rtcFd := fd } .rtcOutOfSync, false)
      else (gTimeoutAddSeconds { b with rtcFd := fd } 659 .sourceHwclockUpdate, true) := by
  simp only [paygHwclockInit,Int.shiftRight_eq_div_pow]
  rfl

theorem out_of_sync_iff (fd : ℕ) (tm : Tm) (sys : ℤ) :
    Warning.rtcOutOfSync ∈ (paygHwclockInit bootNew ⟨.ok fd, .ok tm, sys⟩).1.warnings ↔
      timegm tm/2^19 < sys/2^19 := by
  rw [init_reads]
  by_cases h : timegm tm/2^19 < sys/2^19
  · rw [if_pos h]
    exact iff_of_true (by simp [gWarning]) h
  · rw [if_neg h]
    exact iff_of_false (by simp [gTimeoutAddSeconds,bootNew]) h

theorem init_timeouts (k : Answers) :
    (paygHwclockInit bootNew k).1.timeouts =
      if (paygHwclockInit bootNew k).2 then [(659,.sourceHwclockUpdate)] else [] := by
  obtain ⟨o,r,sys⟩ := k
  cases o with
  | error errno => rfl
  | ok fd =>
    cases r with
    | error errno => rfl
    | ok tm =>
      rw [init_reads]
      by_cases h : timegm tm/2^19 < sys/2^19
      · rw [if_pos h]
        rfl
      · rw [if_neg h]
        rfl

theorem poweroff_iff (k : Answers) :
    (timeoutPoweroffOnErrorMinutes*60,.paygSystemPoweroff) ∈
        (setupRtcUpdater bootNew true k).timeouts ↔
      (paygHwclockInit bootNew k).2 = false := by
  have ht := init_timeouts k
  simp only [setupRtcUpdater,if_true]
  cases hr : (paygHwclockInit bootNew k).2 <;>
    simp_all [gTimeoutAddSeconds,gWarning]

/-- A clock is reported when the system time is past a multiple of 2^19 seconds
which it has not reached, however small the difference. -/
theorem reported_iff_multiple (fd : ℕ) (tm : Tm) (sys : ℤ) :
    Warning.rtcOutOfSync ∈ (paygHwclockInit bootNew ⟨.ok fd, .ok tm, sys⟩).1.warnings ↔
      ∃ m, timegm tm < m*2^19 ∧ m*2^19 ≤ sys := by
  rw [out_of_sync_iff,block_lt_iff (by norm_num)]

/-- A hardware clock is not reported, and does not power the machine off, exactly
when the system time is no further ahead of it than the end of its block of 2^19
seconds. -/
theorem slow_clock_tolerated_iff (fd : ℕ) (tm : Tm) (sys : ℤ) :
    (Warning.rtcOutOfSync ∉ (paygHwclockInit bootNew ⟨.ok fd, .ok tm, sys⟩).1.warnings ∧
        (timeoutPoweroffOnErrorMinutes*60,.paygSystemPoweroff) ∉
          (setupRtcUpdater bootNew true ⟨.ok fd, .ok tm, sys⟩).timeouts) ↔
      timegm tm%2^19+(sys-timegm tm) < 2^19 := by
  have hsucc : (paygHwclockInit bootNew ⟨.ok fd, .ok tm, sys⟩).2 = false ↔
      timegm tm/2^19 < sys/2^19 := by
    rw [init_reads]
    by_cases h : timegm tm/2^19 < sys/2^19
    · rw [if_pos h]
      exact iff_of_true rfl h
    · rw [if_neg h]
      exact iff_of_false Bool.noConfusion h
  rw [poweroff_iff,hsucc,out_of_sync_iff,and_self,not_block_lt_iff (by norm_num)]

/-- One second behind, on 2018-07-06 at 23:49:19, the clock powers the machine
off. -/
theorem slow_clock_powers_off :
    ¬ ∀ (fd : ℕ) (tm : Tm) (sys : ℤ), 0 ≤ timegm tm → timegm tm < sys → sys-timegm tm < 2^19 →
      Warning.rtcOutOfSync ∉ (paygHwclockInit bootNew ⟨.ok fd, .ok tm, sys⟩).1.warnings ∧
        (timeoutPoweroffOnErrorMinutes*60,.paygSystemPoweroff) ∉
          (setupRtcUpdater bootNew true ⟨.ok fd, .ok tm, sys⟩).timeouts := by
  intro h
  exact absurd (h 3 ⟨19, 49, 23, 6, 6, 118⟩ 1530920960 (by decide) (by decide) (by decide)).1
    (by decide)

end EosPayg.HardwareClock
