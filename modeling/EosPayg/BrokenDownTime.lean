import EosPayg.HardwareClock

/-!
# Broken-down times

A time is broken down into its day, the year the day is in, and the month of that
year. What is put together again from a broken-down time is the time it came from.
-/

set_option autoImplicit false

namespace EosPayg.BrokenDownTime
open EosPayg.HardwareClock

def isLeap (year : ℤ) : Bool := year%4 = 0 && (year%100 ≠ 0 || year%400 = 0)

def daysBeforeYear (year : ℤ) : ℤ := 365*(year-1970)+(leapYears (year-1)-leapYears 1969)

def daysInYear (year : ℤ) : ℤ := if isLeap year then 366 else 365

/-- A mean year is 146097/400 days long, which misses the year of a day by one at
most. -/
def yearOfDay (days : ℤ) : ℤ :=
  let guess := 1970+400*days/146097
  if days < daysBeforeYear guess then guess-1
  else if days < daysBeforeYear (guess+1) then guess
  else guess+1

def daysBefore (leap : Bool) (month : ℕ) : ℤ :=
  daysBeforeMonth.getD month 0+(if leap && 2 ≤ month then 1 else 0)

def monthOfDay (leap : Bool) (yday : ℤ) : ℕ :=
  ((List.range 12).reverse.find? (fun month => daysBefore leap month ≤ yday)).getD 0

def gmtime (time : ℤ) : Tm :=
  let days := time/86400
  let year := yearOfDay days
  let yday := days-daysBeforeYear year
  let month := monthOfDay (isLeap year) yday
  { tmSec := time%60
    tmMin := time%3600/60
    tmHour := time%86400/3600
    tmMday := yday-daysBefore (isLeap year) month+1
    tmMon := month
    tmYear := year-1900 }

example : gmtime 951868799 = ⟨59, 59, 23, 29, 1, 100⟩ := by decide

example : gmtime (-1) = ⟨59, 59, 23, 31, 11, 69⟩ := by decide

theorem leapYears_succ (year : ℤ) :
    leapYears year = leapYears (year-1)+(if isLeap year then 1 else 0) := by
  by_cases h : isLeap year = true
  · rw [if_pos h]
    simp only [isLeap,Bool.and_eq_true,Bool.or_eq_true,decide_eq_true_eq] at h
    unfold leapYears
    omega
  · rw [if_neg h]
    simp only [isLeap,Bool.and_eq_true,Bool.or_eq_true,decide_eq_true_eq] at h
    unfold leapYears
    omega

theorem daysBeforeYear_succ (year : ℤ) :
    daysBeforeYear (year+1) = daysBeforeYear year+daysInYear year := by
  have h := leapYears_succ year
  unfold daysBeforeYear daysInYear
  rw [add_sub_cancel_right,h]
  split_ifs <;> ring

theorem yearOfDay_spec (days : ℤ) : daysBeforeYear (yearOfDay days) ≤ days ∧
    days < daysBeforeYear (yearOfDay days+1) := by
  have hlow : daysBeforeYear (1970+400*days/146097-1) ≤ days := by
    unfold daysBeforeYear leapYears
    omega
  have hhigh : days < daysBeforeYear (1970+400*days/146097+1+1) := by
    unfold daysBeforeYear leapYears
    omega
  unfold yearOfDay
  dsimp only
  split_ifs with hlt hle
  · rw [sub_add_cancel]
    exact ⟨hlow,hlt⟩
  · exact ⟨not_lt.mp hlt,hle⟩
  · exact ⟨not_lt.mp hle,hhigh⟩

theorem yday_bounds (days : ℤ) : 0 ≤ days-daysBeforeYear (yearOfDay days) ∧
    days-daysBeforeYear (yearOfDay days) < daysInYear (yearOfDay days) := by
  obtain ⟨hlow,hhigh⟩ := yearOfDay_spec days
  rw [daysBeforeYear_succ] at hhigh
  exact ⟨sub_nonneg.mpr hlow,by omega⟩

theorem monthOfDay_lt (leap : Bool) (yday : ℤ) : monthOfDay leap yday < 12 := by
  unfold monthOfDay
  cases h : (List.range 12).reverse.find? (fun month => daysBefore leap month ≤ yday) with
  | none => decide
  | some month => exact List.mem_range.mp (List.mem_reverse.mp (List.mem_of_find?_eq_some h))

/-- The month that is not over puts its leap day where the count of the years has it. -/
theorem timegm_civil (year mday sec min hour : ℤ) (month : ℕ) (h : month < 12) :
    timegm ⟨sec, min, hour, mday-daysBefore (isLeap year) month+1, month, year-1900⟩ =
      (daysBeforeYear year+mday)*86400+hour*3600+min*60+sec := by
  have hdiv : (month : ℤ)/12 = 0 := by omega
  have hmod : ((month : ℤ)%12).toNat = month := by omega
  have hyear : 1900+(year-1900)+0 = year := by ring
  have hleap := leapYears_succ year
  simp only [timegm,hdiv,hmod,hyear,daysBefore,daysBeforeYear]
  by_cases hm : 2 ≤ month
  · rw [if_pos hm,hleap,decide_eq_true hm,Bool.and_true]
    ring
  · rw [if_neg hm,decide_eq_false hm,Bool.and_false]
    simp only [Bool.false_eq_true,if_false]
    ring

/-- Nothing is lost when a time is broken down. -/
theorem timegm_gmtime (time : ℤ) : timegm (gmtime time) = time := by
  unfold gmtime
  rw [timegm_civil _ _ _ _ _ _ (monthOfDay_lt _ _)]
  omega

def daysInMonth (leap : Bool) (month : ℕ) : ℤ :=
  (if month = 11 then (if leap then 366 else 365) else daysBefore leap (month+1))-
    daysBefore leap month

theorem monthOfDay_spec (leap : Bool) (yday : ℤ) (h0 : 0 ≤ yday)
    (hlt : yday < if leap then 366 else 365) :
    0 ≤ yday-daysBefore leap (monthOfDay leap yday) ∧
      yday-daysBefore leap (monthOfDay leap yday) < daysInMonth leap (monthOfDay leap yday) := by
  have hall : ∀ (leap : Bool) (n : Fin 366), (n : ℤ) < (if leap then 366 else 365) →
      0 ≤ (n : ℤ)-daysBefore leap (monthOfDay leap n) ∧
        (n : ℤ)-daysBefore leap (monthOfDay leap n) < daysInMonth leap (monthOfDay leap n) := by
    decide +kernel
  obtain ⟨n,rfl⟩ := Int.eq_ofNat_of_zero_le h0
  have hn : n < 366 := by split_ifs at hlt <;> omega
  exact hall leap ⟨n,hn⟩ hlt

structure Civil (tm : Tm) : Prop where
  tmSec : 0 ≤ tm.tmSec ∧ tm.tmSec < 60
  tmMin : 0 ≤ tm.tmMin ∧ tm.tmMin < 60
  tmHour : 0 ≤ tm.tmHour ∧ tm.tmHour < 24
  tmMon : 0 ≤ tm.tmMon ∧ tm.tmMon < 12
  tmMday : 1 ≤ tm.tmMday ∧ tm.tmMday ≤ daysInMonth (isLeap (1900+tm.tmYear)) tm.tmMon.toNat

theorem gmtime_civil (time : ℤ) : Civil (gmtime time) := by
  obtain ⟨h0,hlt⟩ := yday_bounds (time/86400)
  unfold daysInYear at hlt
  obtain ⟨hfirst,hlast⟩ := monthOfDay_spec _ _ h0 hlt
  have hmonth := monthOfDay_lt (isLeap (yearOfDay (time/86400)))
    (time/86400-daysBeforeYear (yearOfDay (time/86400)))
  refine ⟨?_,?_,?_,?_,?_⟩
  · show 0 ≤ time%60 ∧ time%60 < 60
    omega
  · show 0 ≤ time%3600/60 ∧ time%3600/60 < 60
    omega
  · show 0 ≤ time%86400/3600 ∧ time%86400/3600 < 24
    omega
  · exact ⟨Int.natCast_nonneg _,Int.ofNat_lt.mpr hmonth⟩
  · have hyear : 1900+(gmtime time).tmYear = yearOfDay (time/86400) := by
      show 1900+(yearOfDay (time/86400)-1900) = _
      ring
    rw [hyear]
    exact ⟨by simpa [gmtime] using hfirst,Int.add_one_le_iff.mpr hlast⟩

end EosPayg.BrokenDownTime
