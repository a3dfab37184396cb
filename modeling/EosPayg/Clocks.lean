import EosPayg.ExpiryTimer

/-!
# The two clocks and their sources

A clock makes sources that are to be ready once an interval has passed. The
real clock counts nanoseconds since boot, goes through milliseconds and arms a
timer of the kernel, which takes zero to mean that it is off. The fake clock
counts the seconds it was set to, and its sources keep the second they are
ready at in two halves.
-/

set_option autoImplicit false

namespace EosPayg.Clocks
open EosPayg.ManagerState EosPayg.PeriodicTimer
open EosPayg.ExpiryTimer (nsecPerSec msecPerSec intervalClamped)

/-- What a clock implements: the time its sources go by, a new source, and
whether a source is ready when it is checked. -/
structure EpgClockInterface (Clock Source : Type) where
  ticks : Clock → ℕ
  ticksPerSec : ℕ
  sourceNewSeconds : Clock → UInt32 → Option Source
  check : Clock → Source → Bool

/-- A source made for an interval is not ready before that many seconds have
passed, and is ready from then on, whenever it is checked before it is
dispatched. -/
def Honours {Clock Source : Type} (iface : EpgClockInterface Clock Source) (interval : UInt32)
    (secs : ℕ) : Prop :=
  ∀ clock later source, iface.sourceNewSeconds clock interval = some source →
    (iface.check later source = true ↔
      iface.ticks clock+secs*iface.ticksPerSec ≤ iface.ticks later)

structure Timespec where
  tvSec : ℕ
  tvNsec : ℕ

def Timespec.nsecs (t : Timespec) : ℕ := t.tvSec*nsecPerSec+t.tvNsec

structure Itimerspec where
  itInterval : Timespec
  itValue : Timespec

structure Timerfd where
  settime : ℕ
  its : Itimerspec
  lastRead : ℕ

/-- The first expiration is at the initial value, which turns the timer off if
it is zero; the others follow at the interval. -/
def timerfdExpirations (fd : Timerfd) (now : ℕ) : ℕ :=
  let value := fd.its.itValue.nsecs
  let interval := fd.its.itInterval.nsecs
  if value = 0 ∨ now < fd.settime+value then 0
  else if interval = 0 then 1
  else 1+(now-(fd.settime+value))/interval

def timerfdReadable (fd : Timerfd) (now : ℕ) : Bool :=
  timerfdExpirations fd fd.lastRead < timerfdExpirations fd now

structure EpgBoottimeSource where
  fd : Timerfd

structure EpgRealClock where
  boottimeNsecs : ℕ
  timerfdCreate : Bool

def boottimeSpec (intervalMs : UInt32) : Timespec where
  tvSec := (intervalMs/1000).toNat
  tvNsec := ((intervalMs%1000)*(1000*1000)).toNat

def epgBoottimeSourceNew (clock : EpgRealClock) (intervalMs : UInt32) :
    Option EpgBoottimeSource :=
  let its : Itimerspec := ⟨boottimeSpec intervalMs, boottimeSpec intervalMs⟩
  if clock.timerfdCreate then some ⟨⟨clock.boottimeNsecs, its, clock.boottimeNsecs⟩⟩ else none

def epgBoottimeSourceCheck (clock : EpgRealClock) (source : EpgBoottimeSource) : Bool :=
  timerfdReadable source.fd clock.boottimeNsecs

def realIntervalClamped (interval : UInt32) : UInt32 :=
  if interval < 4294967295/1000 then interval else 4294967295/1000

def epgRealClockSourceNewSeconds (clock : EpgRealClock) (interval : UInt32) :
    Option EpgBoottimeSource :=
  epgBoottimeSourceNew clock (realIntervalClamped interval*1000)

def realClockIface : EpgClockInterface EpgRealClock EpgBoottimeSource where
  ticks := EpgRealClock.boottimeNsecs
  ticksPerSec := nsecPerSec
  sourceNewSeconds := epgRealClockSourceNewSeconds
  check := epgBoottimeSourceCheck

theorem timerfd_periodic (fd : Timerfd) (h : fd.its.itValue = fd.its.itInterval) (now : ℕ) :
    timerfdExpirations fd now = (now-fd.settime)/fd.its.itInterval.nsecs := by
  unfold timerfdExpirations
  rw [h]
  generalize fd.its.itInterval.nsecs = period
  dsimp only
  by_cases hz : period = 0
  · rw [if_pos (Or.inl hz),hz,Nat.div_zero]
  · by_cases hb : now < fd.settime+period
    · rw [if_pos (Or.inr hb),Nat.div_eq_of_lt]
      omega
    · rw [if_neg (not_or.mpr ⟨hz,hb⟩),if_neg hz,← Nat.sub_sub]
      have hle : period ≤ now-fd.settime := by omega
      rw [Nat.div_eq_sub_div (Nat.pos_of_ne_zero hz) hle,Nat.add_comm]

theorem boottimeSpec_nsecs (intervalMs : UInt32) :
    (boottimeSpec intervalMs).nsecs = intervalMs.toNat*1000000 := by
  have h1 : (1000 : UInt32).toNat = 1000 := rfl
  have h2 : ((1000 : UInt32)*1000).toNat = 1000000 := rfl
  have hn : nsecPerSec = 1000000000 := rfl
  have hlt : intervalMs.toNat%1000*1000000 < 2^32 := by omega
  unfold boottimeSpec Timespec.nsecs
  rw [UInt32.toNat_div,UInt32.toNat_mul,UInt32.toNat_mod,h1,h2,Nat.mod_eq_of_lt hlt,hn]
  show intervalMs.toNat/1000*1000000000+intervalMs.toNat%1000*1000000 = _
  omega

theorem realIntervalClamped_toNat (interval : UInt32) :
    (realIntervalClamped interval).toNat = intervalClamped interval.toNat := by
  have hm : (4294967295/1000 : UInt32).toNat = 4294967 := rfl
  have hc : gMaxUint/msecPerSec = 4294967 := rfl
  unfold realIntervalClamped intervalClamped
  rw [hc]
  split_ifs with h
  · have := UInt32.lt_iff_toNat_lt.mp h
    omega
  · have := UInt32.le_iff_toNat_le.mp (UInt32.not_lt.mp h)
    omega

theorem real_source_ready {clock : EpgRealClock} {interval : UInt32} {source : EpgBoottimeSource}
    (h : epgRealClockSourceNewSeconds clock interval = some source) (later : EpgRealClock) :
    epgBoottimeSourceCheck later source = ready
      (arm clock.boottimeNsecs (intervalClamped interval.toNat*nsecPerSec)) later.boottimeNsecs := by
  have hms : (realIntervalClamped interval*1000).toNat = intervalClamped interval.toNat*1000 := by
    have hle : intervalClamped interval.toNat ≤ 4294967 := Nat.min_le_right _ _
    have h1 : (1000 : UInt32).toNat = 1000 := rfl
    rw [UInt32.toNat_mul,realIntervalClamped_toNat,h1,Nat.mod_eq_of_lt]
    omega
  unfold epgRealClockSourceNewSeconds epgBoottimeSourceNew at h
  dsimp only at h
  split_ifs at h
  cases h
  have hn : nsecPerSec = 1000*1000000 := rfl
  unfold epgBoottimeSourceCheck timerfdReadable
  rw [timerfd_periodic _ rfl,timerfd_periodic _ rfl,boottimeSpec_nsecs,hms,hn,← Nat.mul_assoc]
  rfl

theorem real_clock_honours (interval : UInt32) (h : 0 < interval.toNat) :
    Honours realClockIface interval (intervalClamped interval.toNat) := by
  intro clock later source hs
  have hc : intervalClamped interval.toNat = min interval.toNat 4294967 := rfl
  have hpos : 0 < intervalClamped interval.toNat*nsecPerSec := by
    apply Nat.mul_pos
    · omega
    · decide
  show epgBoottimeSourceCheck later source = true ↔ _
  rw [real_source_ready hs,ready_arm_iff]
  exact and_iff_right hpos

/-- A source of the real clock for no time at all is never ready. -/
theorem real_zero_never (clock later : EpgRealClock) (source : EpgBoottimeSource)
    (h : epgRealClockSourceNewSeconds clock 0 = some source) :
    epgBoottimeSourceCheck later source = false := by
  rw [real_source_ready h,Bool.eq_false_iff,Ne,ready_arm_iff]
  intro hh
  exact absurd hh.1 (by decide)

def gMaxInt64 : ℕ := 9223372036854775807

/-- The time is a signed word which is only ever set to a positive value. -/
structure EpgFakeClock where
  timeSecs : ℕ
  fits : timeSecs ≤ gMaxInt64

/-- Zero stands for a clock that has not been set. -/
def epgFakeClockGetTime (self : EpgFakeClock) : ℕ :=
  if self.timeSecs = 0 then 424242 else self.timeSecs

structure EpgFakeSource where
  readyTimeSecsHigh : UInt32
  readyTimeSecsLow : UInt32

def readyAt (readyTimeSecs : ℕ) : EpgFakeSource where
  readyTimeSecsHigh := UInt32.ofNat (readyTimeSecs >>> 32)
  readyTimeSecsLow := UInt32.ofNat (readyTimeSecs &&& 0xFFFFFFFF)

def epgFakeClockSourceNewSeconds (clock : EpgFakeClock) (interval : UInt32) :
    Option EpgFakeSource :=
  let currentTime := epgFakeClockGetTime clock
  if interval.toNat ≤ gMaxInt64-currentTime then some (readyAt (currentTime+interval.toNat))
  else none

def epgFakeSourceCheck (clock : EpgFakeClock) (source : EpgFakeSource) : Bool :=
  let readyTimeSecs := (source.readyTimeSecsHigh.toNat <<< 32)+source.readyTimeSecsLow.toNat
  epgFakeClockGetTime clock ≥ readyTimeSecs

def fakeClockIface : EpgClockInterface EpgFakeClock EpgFakeSource where
  ticks := epgFakeClockGetTime
  ticksPerSec := 1
  sourceNewSeconds := epgFakeClockSourceNewSeconds
  check := epgFakeSourceCheck

theorem fakeClock_time_le (self : EpgFakeClock) : epgFakeClockGetTime self ≤ gMaxInt64 := by
  have hfits := self.fits
  unfold epgFakeClockGetTime
  split_ifs
  · decide
  · exact hfits

theorem readyAt_check (clock : EpgFakeClock) (readyTimeSecs : ℕ) (h : readyTimeSecs ≤ gMaxInt64) :
    epgFakeSourceCheck clock (readyAt readyTimeSecs) = true ↔
      readyTimeSecs ≤ epgFakeClockGetTime clock := by
  have hmax : gMaxInt64 = 9223372036854775807 := rfl
  have hmask : readyTimeSecs &&& 0xFFFFFFFF = readyTimeSecs%2^32 :=
    Nat.and_two_pow_sub_one_eq_mod readyTimeSecs 32
  have hlow : readyTimeSecs%2^32%2^32 = readyTimeSecs%2^32 := Nat.mod_mod _ _
  have hhigh : readyTimeSecs/2^32%2^32 = readyTimeSecs/2^32 := Nat.mod_eq_of_lt (by omega)
  have hboth : ((readyAt readyTimeSecs).readyTimeSecsHigh.toNat <<< 32)+
      (readyAt readyTimeSecs).readyTimeSecsLow.toNat = readyTimeSecs := by
    show ((UInt32.ofNat (readyTimeSecs >>> 32)).toNat <<< 32)+
      (UInt32.ofNat (readyTimeSecs &&& 0xFFFFFFFF)).toNat = _
    rw [UInt32.toNat_ofNat',UInt32.toNat_ofNat',hmask,Nat.shiftLeft_eq,
      Nat.shiftRight_eq_div_pow,hlow,hhigh]
    omega
  show decide (_ ≥ _) = true ↔ _
  rw [decide_eq_true_iff,hboth]

theorem fake_clock_honours (interval : UInt32) :
    Honours fakeClockIface interval interval.toNat := by
  intro clock later source hs
  have htime := fakeClock_time_le clock
  have hnew : epgFakeClockSourceNewSeconds clock interval = some source := hs
  unfold epgFakeClockSourceNewSeconds at hnew
  dsimp only at hnew
  split_ifs at hnew with hc
  cases hnew
  show epgFakeSourceCheck later (readyAt _) = true ↔
    epgFakeClockGetTime clock+interval.toNat*1 ≤ epgFakeClockGetTime later
  rw [readyAt_check later _ (by omega),Nat.mul_one]

/-- Sources of the fake clock are ready exactly when their interval has passed;
those of the real clock when their interval, but no more than fits into
milliseconds, has passed, unless it is zero. -/
theorem timers_honoured (interval : UInt32) :
    Honours fakeClockIface interval interval.toNat ∧
      (0 < interval.toNat →
        Honours realClockIface interval (min interval.toNat (gMaxUint/msecPerSec))) :=
  ⟨fake_clock_honours interval,real_clock_honours interval⟩

theorem timers_honoured_minute :
    Honours fakeClockIface 60 60 ∧ Honours realClockIface 60 60 :=
  ⟨(timers_honoured 60).1,(timers_honoured 60).2 (by decide)⟩

/-- A longer interval is cut short on the real clock. -/
theorem clamped_interval_early :
    ¬ ∀ interval : UInt32, Honours fakeClockIface interval interval.toNat ∧
      Honours realClockIface interval interval.toNat := by
  intro h
  obtain ⟨source,hs⟩ : ∃ source, epgRealClockSourceNewSeconds ⟨0, true⟩ 4294968 = some source :=
    ⟨_,rfl⟩
  have hready := real_clock_honours 4294968 (by decide) ⟨0, true⟩ ⟨4294967*nsecPerSec, true⟩ source
    hs
  have hdue := (h 4294968).2 ⟨0, true⟩ ⟨4294967*nsecPerSec, true⟩ source hs
  exact absurd (hdue.mp (hready.mpr (by decide))) (by decide)

end EosPayg.Clocks
