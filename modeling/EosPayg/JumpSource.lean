import EosPayg.ClockCorrections

/-!
# How a jump of the wall clock is found

A timer of the kernel that is never to expire is cancelled whenever the wall clock is
set, which makes its descriptor ready until it is read. The service compares the two
clocks then, one after the other, while the wall clock may be set again at any moment.
-/

set_option autoImplicit false

namespace EosPayg.JumpSource
open EosPayg.GuardedRun EosPayg.ClockCorrections
open EosPayg.ExpiryTimer (nsecPerSec)
open EosPayg.ServiceShutdown (Readings clockJumpDelta)

inductive Errno where
  | canceled
  | again
  deriving DecidableEq

/-- A timer that is set for the end of time, and whether it was cancelled since it was
last read. -/
structure Timerfd where
  canceled : Bool
  deriving DecidableEq

def Timerfd.read (fd : Timerfd) : Errno × Timerfd :=
  (if fd.canceled then .canceled else .again,⟨false⟩)

def epgClockJumpSourceCheck (fd : Timerfd) : Bool := fd.canceled

/-- Whether the callback is called; the source is removed otherwise. -/
def epgClockJumpSourceDispatch (fd : Timerfd) : Bool × Timerfd :=
  let read := fd.read
  (read.1 = .canceled,read.2)

def epgClockJumpSourceNew (available : Bool) : Option Timerfd :=
  if available then some ⟨false⟩ else none

/-- Where the main thread is: it takes the first readings and makes the source, then
polls, dispatches, and takes each pair of readings. -/
inductive Phase where
  | initDetection
  | firstRealtime (realtimeSecs : Int64)
  | firstBoottime
  | polling
  | dispatching
  | clockJumpCb
  | secondRealtime (realtimeSecs : Int64)
  | removed
  | undetected
  deriving DecidableEq

/-- The account has the sum by which the wall clock was set since it was first read, the
time between the last two readings and between the first two, and whether it was set
before the source was there and no jump was found since. -/
structure System where
  boottime : ℕ
  realtime : ℕ
  available : Bool
  fd : Option Timerfd
  phase : Phase
  clockSecsV0 : Readings
  jumps : List Int64
  setBy : ℤ
  between : ℕ
  betweenFirst : ℕ
  unseen : Bool

def started (boottime realtime : ℕ) (available : Bool) : System where
  boottime := boottime
  realtime := realtime
  available := available
  fd := none
  phase := .initDetection
  clockSecsV0 := ⟨0, 0⟩
  jumps := []
  setBy := 0
  between := 0
  betweenFirst := 0
  unseen := false

inductive Operation where
  | timePasses (nsecs : ℕ)
  | setTime (realtime : ℕ)
  | mainThread
  deriving DecidableEq

def Phase.between : Phase → Bool
  | .firstRealtime _ => true
  | .secondRealtime _ => true
  | _ => false

def mainThread (s : System) : Option System :=
  match s.phase with
  | .initDetection =>
    some { s with
      phase := .firstRealtime (getClockSeconds s.realtime)
      setBy := 0
      between := 0
      unseen := false }
  | .firstRealtime realtimeSecs =>
    some { s with
      phase := .firstBoottime
      clockSecsV0 := ⟨realtimeSecs, getClockSeconds s.boottime⟩
      betweenFirst := s.between }
  | .firstBoottime =>
    let fd := epgClockJumpSourceNew s.available
    some { s with fd := fd, phase := if fd.isSome then .polling else .undetected }
  | .polling =>
    if s.fd.any epgClockJumpSourceCheck then some { s with phase := .dispatching } else none
  | .dispatching =>
    s.fd.map fun fd =>
      let dispatched := epgClockJumpSourceDispatch fd
      { s with
        fd := some dispatched.2
        phase := if dispatched.1 then .clockJumpCb else .removed
        unseen := s.unseen && !dispatched.1 }
  | .clockJumpCb =>
    some { s with phase := .secondRealtime (getClockSeconds s.realtime), between := 0 }
  | .secondRealtime realtimeSecs =>
    let clockSecsV1 : Readings := ⟨realtimeSecs, getClockSeconds s.boottime⟩
    some { s with
      phase := .polling
      jumps := s.jumps++[clockJumpDelta s.clockSecsV0 clockSecsV1]
      clockSecsV0 := clockSecsV1 }
  | .removed => none
  | .undetected => none

def System.elapse (s : System) (nsecs : ℕ) : System :=
  { s with
    boottime := s.boottime+nsecs
    realtime := s.realtime+nsecs
    between := if s.phase.between then s.between+nsecs else s.between }

def System.setTime (s : System) (realtime : ℕ) : System :=
  { s with
    realtime := realtime
    fd := s.fd.map fun _ => ⟨true⟩
    setBy := s.setBy+(realtime-s.realtime)
    unseen := s.unseen || s.fd.isNone }

def step (s : System) : Operation → Option System
  | .timePasses nsecs =>
    if s.boottime+nsecs ≤ ktimeMax ∧ s.realtime+nsecs ≤ ktimeMax then some (s.elapse nsecs)
    else none
  | .setTime realtime => if realtime ≤ ktimeMax then some (s.setTime realtime) else none
  | .mainThread => mainThread s

def Quiet (s : System) : Prop := s.phase = .polling ∧ s.fd = some ⟨false⟩

def System.offset (s : System) : ℤ := s.realtime-s.boottime

structure Kept (b₀ r₀ b r : ℕ) (s : System) : Prop where
  firstBoottime : b₀ ≤ ktimeMax
  firstRealtime : r₀ ≤ ktimeMax
  boottime : b ≤ ktimeMax
  realtime : r ≤ ktimeMax
  clockSecsV0 : s.clockSecsV0 = readings b r
  first : (r₀ : ℤ)-b₀ = s.offset-s.setBy-s.betweenFirst
  jumps : (s.jumps.map Int64.toInt).sum = ahead b r-ahead b₀ r₀
  unseen : s.unseen = true → s.jumps = []

variable {s s' : System} {b₀ r₀ b r : ℕ}

theorem kept_congr (h : Kept b₀ r₀ b r s) (hv : s'.clockSecsV0 = s.clockSecsV0)
    (ho : s'.offset-s'.setBy = s.offset-s.setBy) (hf : s'.betweenFirst = s.betweenFirst)
    (hj : s'.jumps = s.jumps) (hu : s'.unseen = true → s.jumps = []) : Kept b₀ r₀ b r s' := by
  refine ⟨h.firstBoottime,h.firstRealtime,h.boottime,h.realtime,hv.trans h.clockSecsV0,?_,?_,?_⟩
  · rw [ho,hf]
    exact h.first
  · rw [hj]
    exact h.jumps
  · rw [hj]
    exact hu

theorem elapse_offset (s : System) (nsecs : ℕ) : (s.elapse nsecs).offset = s.offset := by
  show ((s.realtime+nsecs : ℕ) : ℤ)-(s.boottime+nsecs : ℕ) = s.realtime-s.boottime
  omega

theorem elapse_between (s : System) (nsecs : ℕ) : (s.elapse nsecs).between =
    if s.phase.between then s.between+nsecs else s.between := rfl

theorem kept_elapse (h : Kept b₀ r₀ b r s) (nsecs : ℕ) : Kept b₀ r₀ b r (s.elapse nsecs) :=
  kept_congr h rfl (congrArg (·-s.setBy) (elapse_offset s nsecs)) rfl rfl h.unseen

theorem setTime_offset (s : System) (realtime : ℕ) :
    (s.setTime realtime).offset-(s.setTime realtime).setBy = s.offset-s.setBy := by
  show (realtime : ℤ)-s.boottime-(s.setBy+(realtime-s.realtime)) = s.realtime-s.boottime-s.setBy
  omega

theorem setTime_fd {fd : Timerfd} (h : s.fd = some fd) (realtime : ℕ) :
    (s.setTime realtime).fd = some ⟨true⟩ ∧ (s.setTime realtime).unseen = s.unseen := by
  unfold System.setTime
  rw [h]
  exact ⟨rfl,Bool.or_false _⟩

theorem setTime_none (h : s.fd = none) (realtime : ℕ) :
    (s.setTime realtime).fd = none ∧ (s.setTime realtime).unseen = true := by
  unfold System.setTime
  rw [h]
  exact ⟨rfl,Bool.or_true _⟩

theorem kept_setTime (h : Kept b₀ r₀ b r s) (realtime : ℕ) (hj : s.fd = none → s.jumps = []) :
    Kept b₀ r₀ b r (s.setTime realtime) := by
  refine kept_congr h rfl (setTime_offset s realtime) rfl rfl fun hu => ?_
  cases hfd : s.fd with
  | none => exact hj hfd
  | some fd => exact h.unseen ((setTime_fd hfd realtime).2 ▸ hu)

theorem kept_setTime_fd {fd : Timerfd} (h : Kept b₀ r₀ b r s) (hfd : s.fd = some fd)
    (realtime : ℕ) : Kept b₀ r₀ b r (s.setTime realtime) :=
  kept_setTime h realtime fun hn => absurd (hfd.symm.trans hn) (Option.some_ne_none fd)

def Phase.Knows (s : System) : Phase → Prop
  | .initDetection => s.fd = none ∧ s.jumps = []
  | .firstRealtime x => s.fd = none ∧ s.jumps = [] ∧ (s.unseen = false → s.setBy = 0) ∧
    ∃ r ≤ ktimeMax, x = getClockSeconds r ∧ (r : ℤ)+s.between+s.setBy = s.realtime
  | .firstBoottime => s.fd = none ∧ (s.unseen = false → s.setBy = 0) ∧
    s.betweenFirst = s.between ∧ ∃ b r, s.jumps = [] ∧ Kept b r b r s
  | .polling => ∃ fd, s.fd = some fd ∧ ∃ b₀ r₀ b r, Kept b₀ r₀ b r s ∧
    (fd.canceled = false → s.unseen = false → (r : ℤ)-b = s.offset-s.between)
  | .dispatching => s.fd = some ⟨true⟩ ∧ ∃ b₀ r₀ b r, Kept b₀ r₀ b r s
  | .clockJumpCb => (∃ fd, s.fd = some fd) ∧ s.unseen = false ∧ ∃ b₀ r₀ b r, Kept b₀ r₀ b r s
  | .secondRealtime x => s.unseen = false ∧ (∃ b₀ r₀ b r, Kept b₀ r₀ b r s) ∧
    ∃ fd, s.fd = some fd ∧ ∃ r ≤ ktimeMax, x = getClockSeconds r ∧
      (fd.canceled = false → (r : ℤ)+s.between = s.realtime)
  | .removed => False
  | .undetected => s.fd = none ∧ s.jumps = []

structure Following (s : System) : Prop where
  boottime : s.boottime ≤ ktimeMax
  realtime : s.realtime ≤ ktimeMax
  knows : s.phase.Knows s

theorem started_following {boottime realtime : ℕ} (hb : boottime ≤ ktimeMax)
    (hr : realtime ≤ ktimeMax) (available : Bool) :
    Following (started boottime realtime available) :=
  ⟨hb,hr,rfl,rfl⟩

theorem elapse_following (h : Following s) (nsecs : ℕ) (hb : s.boottime+nsecs ≤ ktimeMax)
    (hr : s.realtime+nsecs ≤ ktimeMax) : Following (s.elapse nsecs) := by
  refine ⟨hb,hr,?_⟩
  have hknows := h.knows
  have hbetween := elapse_between s nsecs
  have hreal : ((s.elapse nsecs).realtime : ℤ) = s.realtime+nsecs := Nat.cast_add _ _
  show s.phase.Knows _
  cases hp : s.phase with
  | initDetection =>
    rw [hp] at hknows
    exact hknows
  | firstRealtime x =>
    rw [hp] at hknows hbetween
    obtain ⟨hfd,hj,hset,r,hr,hx,hold⟩ := hknows
    have hgap : (s.elapse nsecs).between = s.between+nsecs := hbetween
    refine ⟨hfd,hj,hset,r,hr,hx,?_⟩
    show (r : ℤ)+(s.elapse nsecs).between+s.setBy = _
    omega
  | firstBoottime =>
    rw [hp] at hknows hbetween
    obtain ⟨hfd,hset,hfirst,b,r,hj,hk⟩ := hknows
    exact ⟨hfd,hset,hfirst.trans hbetween.symm,b,r,hj,kept_elapse hk nsecs⟩
  | polling =>
    rw [hp] at hknows hbetween
    obtain ⟨fd,hfd,b₀,r₀,b,r,hk,hcurrent⟩ := hknows
    refine ⟨fd,hfd,b₀,r₀,b,r,kept_elapse hk nsecs,fun hc hu => ?_⟩
    rw [elapse_offset,hbetween]
    exact hcurrent hc hu
  | dispatching =>
    rw [hp] at hknows
    obtain ⟨hfd,b₀,r₀,b,r,hk⟩ := hknows
    exact ⟨hfd,b₀,r₀,b,r,kept_elapse hk nsecs⟩
  | clockJumpCb =>
    rw [hp] at hknows
    obtain ⟨hfd,hu,b₀,r₀,b,r,hk⟩ := hknows
    exact ⟨hfd,hu,b₀,r₀,b,r,kept_elapse hk nsecs⟩
  | secondRealtime x =>
    rw [hp] at hknows hbetween
    obtain ⟨hu,⟨b₀,r₀,b,r,hk⟩,fd,hfd,r',hr',hx,hold⟩ := hknows
    have hgap : (s.elapse nsecs).between = s.between+nsecs := hbetween
    refine ⟨hu,⟨b₀,r₀,b,r,kept_elapse hk nsecs⟩,fd,hfd,r',hr',hx,fun hc => ?_⟩
    have hreading := hold hc
    omega
  | removed =>
    rw [hp] at hknows
    exact hknows
  | undetected =>
    rw [hp] at hknows
    exact hknows

theorem setTime_following (h : Following s) (realtime : ℕ) (hr : realtime ≤ ktimeMax) :
    Following (s.setTime realtime) := by
  refine ⟨h.boottime,hr,?_⟩
  have hknows := h.knows
  show s.phase.Knows _
  cases hp : s.phase with
  | initDetection =>
    rw [hp] at hknows
    exact ⟨(setTime_none hknows.1 realtime).1,hknows.2⟩
  | firstRealtime x =>
    rw [hp] at hknows
    obtain ⟨hfd,hj,-,r,hr,hx,hold⟩ := hknows
    obtain ⟨hfd',hu⟩ := setTime_none hfd realtime
    refine ⟨hfd',hj,fun hseen => ?_,r,hr,hx,?_⟩
    · rw [hu] at hseen
      cases hseen
    · show (r : ℤ)+s.between+(s.setBy+(realtime-s.realtime)) = realtime
      omega
  | firstBoottime =>
    rw [hp] at hknows
    obtain ⟨hfd,-,hfirst,b,r,hj,hk⟩ := hknows
    obtain ⟨hfd',hu⟩ := setTime_none hfd realtime
    refine ⟨hfd',fun hseen => ?_,hfirst,b,r,hj,kept_setTime hk realtime fun _ => hj⟩
    rw [hu] at hseen
    cases hseen
  | polling =>
    rw [hp] at hknows
    obtain ⟨fd,hfd,b₀,r₀,b,r,hk,-⟩ := hknows
    refine ⟨⟨true⟩,(setTime_fd hfd realtime).1,b₀,r₀,b,r,kept_setTime_fd hk hfd realtime,
      fun hc => ?_⟩
    cases hc
  | dispatching =>
    rw [hp] at hknows
    obtain ⟨hfd,b₀,r₀,b,r,hk⟩ := hknows
    exact ⟨(setTime_fd hfd realtime).1,b₀,r₀,b,r,kept_setTime_fd hk hfd realtime⟩
  | clockJumpCb =>
    rw [hp] at hknows
    obtain ⟨⟨fd,hfd⟩,hu,b₀,r₀,b,r,hk⟩ := hknows
    obtain ⟨hfd',hu'⟩ := setTime_fd hfd realtime
    exact ⟨⟨_,hfd'⟩,hu'.trans hu,b₀,r₀,b,r,kept_setTime_fd hk hfd realtime⟩
  | secondRealtime x =>
    rw [hp] at hknows
    obtain ⟨hu,⟨b₀,r₀,b,r,hk⟩,fd,hfd,r',hr',hx,-⟩ := hknows
    obtain ⟨hfd',hu'⟩ := setTime_fd hfd realtime
    refine ⟨hu'.trans hu,⟨b₀,r₀,b,r,kept_setTime_fd hk hfd realtime⟩,_,hfd',r',hr',hx,
      fun hc => ?_⟩
    cases hc
  | removed =>
    rw [hp] at hknows
    exact hknows
  | undetected =>
    rw [hp] at hknows
    exact ⟨(setTime_none hknows.1 realtime).1,hknows.2⟩

theorem mainThread_following (h : Following s) (hs : mainThread s = some s') :
    Following s' := by
  have hknows := h.knows
  unfold mainThread at hs
  cases hp : s.phase with
  | initDetection =>
    rw [hp] at hknows hs
    cases hs
    exact ⟨h.boottime,h.realtime,hknows.1,hknows.2,fun _ => rfl,s.realtime,h.realtime,rfl,
      by simp⟩
  | firstRealtime x =>
    rw [hp] at hknows hs
    cases hs
    obtain ⟨hfd,hj,hset,r,hr,rfl,hold⟩ := hknows
    refine ⟨h.boottime,h.realtime,hfd,hset,rfl,s.boottime,r,hj,h.boottime,hr,h.boottime,hr,rfl,
      ?_,?_,fun _ => hj⟩
    · show (r : ℤ)-s.boottime = s.realtime-s.boottime-s.setBy-s.between
      omega
    · show (s.jumps.map Int64.toInt).sum = _
      rw [hj,sub_self]
      rfl
  | firstBoottime =>
    rw [hp] at hknows hs
    obtain ⟨hfd,hset,hfirst,b,r,hj,hk⟩ := hknows
    cases ha : s.available with
    | false =>
      simp only [ha,epgClockJumpSourceNew,Bool.false_eq_true,if_false,Option.isSome_none] at hs
      cases hs
      exact ⟨h.boottime,h.realtime,rfl,hj⟩
    | true =>
      simp only [ha,epgClockJumpSourceNew,if_true,Option.isSome_some] at hs
      cases hs
      refine ⟨h.boottime,h.realtime,_,rfl,b,r,b,r,kept_congr hk rfl rfl rfl rfl fun _ => hj,
        fun _ hu => ?_⟩
      have hold := hk.first
      rw [hset hu,hfirst,sub_zero] at hold
      exact hold
  | polling =>
    rw [hp] at hknows hs
    obtain ⟨⟨canceled⟩,hfd,b₀,r₀,b,r,hk,-⟩ := hknows
    cases canceled with
    | false => simp [hfd,epgClockJumpSourceCheck] at hs
    | true =>
      simp only [hfd,epgClockJumpSourceCheck,Option.any_some,if_true] at hs
      cases hs
      exact ⟨h.boottime,h.realtime,rfl,b₀,r₀,b,r,kept_congr hk rfl rfl rfl rfl hk.unseen⟩
  | dispatching =>
    rw [hp] at hknows hs
    obtain ⟨hfd,b₀,r₀,b,r,hk⟩ := hknows
    simp only [hfd,Option.map_some] at hs
    cases hs
    have hu : (s.unseen && !true) = false := Bool.and_false _
    refine ⟨h.boottime,h.realtime,⟨_,rfl⟩,hu,b₀,r₀,b,r,
      kept_congr hk rfl rfl rfl rfl fun hn => ?_⟩
    exact absurd (hu.symm.trans hn) Bool.false_ne_true
  | clockJumpCb =>
    rw [hp] at hknows hs
    cases hs
    obtain ⟨⟨fd,hfd⟩,hu,b₀,r₀,b,r,hk⟩ := hknows
    exact ⟨h.boottime,h.realtime,hu,⟨b₀,r₀,b,r,kept_congr hk rfl rfl rfl rfl hk.unseen⟩,fd,hfd,
      s.realtime,h.realtime,rfl,fun _ => by simp⟩
  | secondRealtime x =>
    rw [hp] at hknows hs
    cases hs
    -- the new jump takes the sum from the readings that were kept to the new ones
    obtain ⟨hu,⟨b₀,r₀,b,r,hk⟩,fd,hfd,r',hr',rfl,hold⟩ := hknows
    have hdelta := clockJumpDelta_toInt hk.boottime hk.realtime h.boottime hr'
    refine ⟨h.boottime,h.realtime,fd,hfd,b₀,r₀,s.boottime,r',
      ⟨hk.firstBoottime,hk.firstRealtime,h.boottime,hr',rfl,hk.first,?_,?_⟩,fun hc _ => ?_⟩
    · show ((s.jumps++[clockJumpDelta s.clockSecsV0 (readings s.boottime r')]).map
        Int64.toInt).sum = _
      rw [List.map_append,List.sum_append,hk.jumps,hk.clockSecsV0]
      show _+((clockJumpDelta (readings b r) (readings s.boottime r')).toInt+0) = _
      rw [hdelta]
      ring
    · intro hn
      exact absurd (hu.symm.trans hn) Bool.false_ne_true
    · have hreading := hold hc
      show (r' : ℤ)-s.boottime = s.realtime-s.boottime-s.between
      omega
  | removed =>
    rw [hp] at hs
    cases hs
  | undetected =>
    rw [hp] at hs
    cases hs

theorem step_following (op : Operation) (h : Following s) (hs : step s op = some s') :
    Following s' := by
  cases op with
  | timePasses nsecs =>
    simp only [step] at hs
    split_ifs at hs with hg
    cases hs
    exact elapse_following h nsecs hg.1 hg.2
  | setTime realtime =>
    simp only [step] at hs
    split_ifs at hs with hg
    cases hs
    exact setTime_following h realtime hg
  | mainThread => exact mainThread_following h hs

def System.stepsLeft (s : System) : ℕ :=
  let again := if s.fd = some ⟨true⟩ then 4 else 0
  match s.phase with
  | .polling => again
  | .dispatching => 3
  | .clockJumpCb => 2+again
  | .secondRealtime _ => 1+again
  | _ => 0

theorem stepsLeft_le (s : System) : s.stepsLeft ≤ 6 := by
  have hagain : (if s.fd = some ⟨true⟩ then 4 else 0) ≤ 4 := by split_ifs <;> decide
  unfold System.stepsLeft
  cases s.phase <;> dsimp only <;> omega

def Detecting (s : System) : Prop := Following s ∧ ∃ fd, s.fd = some fd

theorem detecting_moves (h : Detecting s) :
    Quiet s ∨ ∃ s', step s .mainThread = some s' ∧ Detecting s' ∧ s'.stepsLeft < s.stepsLeft := by
  obtain ⟨hf,⟨canceled⟩,hfd⟩ := h
  have hmoves (s' : System) (hs : mainThread s = some s') (hfd' : ∃ fd, s'.fd = some fd)
      (hless : s'.stepsLeft < s.stepsLeft) :
      ∃ s', step s .mainThread = some s' ∧ Detecting s' ∧ s'.stepsLeft < s.stepsLeft :=
    ⟨s',hs,⟨mainThread_following hf hs,hfd'⟩,hless⟩
  have hnone (hn : s.fd = none) : False := Option.some_ne_none _ (hfd.symm.trans hn)
  have hknows := hf.knows
  cases hp : s.phase with
  | initDetection =>
    rw [hp] at hknows
    exact (hnone hknows.1).elim
  | firstRealtime x =>
    rw [hp] at hknows
    exact (hnone hknows.1).elim
  | firstBoottime =>
    rw [hp] at hknows
    exact (hnone hknows.1).elim
  | polling =>
    cases canceled with
    | false => exact Or.inl ⟨hp,hfd⟩
    | true =>
      right
      refine hmoves { s with phase := .dispatching } ?_ ⟨_,hfd⟩ ?_
      · unfold mainThread
        rw [hp]
        simp [hfd,epgClockJumpSourceCheck]
      · simp [System.stepsLeft,hp,hfd]
  | dispatching =>
    rw [hp] at hknows
    right
    refine hmoves { s with
      fd := some ⟨false⟩
      phase := .clockJumpCb
      unseen := s.unseen && !true } ?_ ⟨_,rfl⟩ ?_
    · unfold mainThread
      rw [hp]
      simp only [hknows.1,Option.map_some]
      rfl
    · simp [System.stepsLeft,hp]
  | clockJumpCb =>
    right
    refine hmoves { s with phase := .secondRealtime (getClockSeconds s.realtime), between := 0 }
      ?_ ⟨_,hfd⟩ ?_
    · unfold mainThread
      rw [hp]
    · simp [System.stepsLeft,hp,hfd]
  | secondRealtime x =>
    right
    refine hmoves { s with
      phase := .polling
      jumps := s.jumps++[clockJumpDelta s.clockSecsV0 ⟨x, getClockSeconds s.boottime⟩]
      clockSecsV0 := ⟨x, getClockSeconds s.boottime⟩ } ?_ ⟨_,hfd⟩ ?_
    · unfold mainThread
      rw [hp]
    · simp [System.stepsLeft,hp,hfd]
  | removed =>
    rw [hp] at hknows
    exact hknows.elim
  | undetected =>
    rw [hp] at hknows
    exact (hnone hknows.1).elim

theorem unseen_no_jumps (h : Following s) (hu : s.unseen = true) : s.jumps = [] := by
  have hknows := h.knows
  have hseen (hn : s.unseen = false) : False := Bool.false_ne_true (hn.symm.trans hu)
  cases hp : s.phase with
  | initDetection =>
    rw [hp] at hknows
    exact hknows.2
  | firstRealtime x =>
    rw [hp] at hknows
    exact hknows.2.1
  | firstBoottime =>
    rw [hp] at hknows
    obtain ⟨_,_,_,_,_,hj,_⟩ := hknows
    exact hj
  | polling =>
    rw [hp] at hknows
    obtain ⟨_,_,_,_,_,_,hk,_⟩ := hknows
    exact hk.unseen hu
  | dispatching =>
    rw [hp] at hknows
    obtain ⟨_,_,_,_,_,hk⟩ := hknows
    exact hk.unseen hu
  | clockJumpCb =>
    rw [hp] at hknows
    exact (hseen hknows.2.1).elim
  | secondRealtime x =>
    rw [hp] at hknows
    exact (hseen hknows.1).elim
  | removed =>
    rw [hp] at hknows
    exact hknows.elim
  | undetected =>
    rw [hp] at hknows
    exact hknows.2

theorem quiet_sum (h : Following s) (hq : Quiet s) (hu : s.unseen = false) :
    |(s.jumps.map Int64.toInt).sum*nsecPerSec-(s.setBy-(s.between-s.betweenFirst))| ≤
      2*(nsecPerSec : ℤ)-2 := by
  have hknows := h.knows
  rw [hq.1] at hknows
  obtain ⟨fd,hfd,b₀,r₀,b,r,hk,hcurrent⟩ := hknows
  obtain rfl := Option.some.inj (hfd.symm.trans hq.2)
  have hnow := hcurrent rfl hu
  have hfirst := hk.first
  have hup := ahead_sub_le b₀ r₀ b r
  have hdown := ahead_sub_le b r b₀ r₀
  rw [hk.jumps,abs_le]
  rw [hnow,hfirst] at hup hdown
  have hneg : (ahead b₀ r₀-ahead b r)*(nsecPerSec : ℤ) =
      -((ahead b r-ahead b₀ r₀)*nsecPerSec) := by ring
  constructor <;> linarith

/-- However time passes and the wall clock is set between the steps of the main thread, no
jump is lost. The source is never removed, and in six steps or fewer the main loop waits
again; then the jumps that were found add up to what the wall clock was set by since it
was first read, to within two seconds and the time between the readings. Only a setting
before the source was there is not found before the next one is. -/
theorem jumps_found (boottime realtime : ℕ) (available : Bool) (hb : boottime ≤ ktimeMax)
    (hr : realtime ≤ ktimeMax) (ops : List Operation) (t : System)
    (hrun : run step ops (started boottime realtime available) = some t) :
    t.phase ≠ .removed ∧
      (t.fd.isSome → ∃ n ≤ 6, ∃ u, run step (List.replicate n .mainThread) t = some u ∧
        Quiet u) ∧
      (t.jumps ≠ [] → t.unseen = false) ∧
      (Quiet t → t.unseen = false →
        |(t.jumps.map Int64.toInt).sum*nsecPerSec-(t.setBy-(t.between-t.betweenFirst))| ≤
          2*(nsecPerSec : ℤ)-2) := by
  have h : Following t :=
    run_invariant (fun _ op _ hi hs => step_following op hi hs) (started_following hb hr available)
      hrun
  refine ⟨fun hp => ?_,fun hfd => ?_,fun hj => ?_,fun hq hu => quiet_sum h hq hu⟩
  · have hknows := h.knows
    rw [hp] at hknows
    exact hknows
  · obtain ⟨n,hn,u,hu,hq⟩ := exists_run_replicate (fun _ => detecting_moves)
      ⟨h,Option.isSome_iff_exists.mp hfd⟩
    exact ⟨n,hn.trans (stepsLeft_le t),u,hu,hq⟩
  · by_contra hu
    exact hj (unseen_no_jumps h (Bool.of_not_eq_false hu))

def lateSource : List Operation :=
  [.mainThread, .mainThread, .setTime (8600*nsecPerSec), .mainThread,
    .timePasses (60*nsecPerSec), .setTime (8650*nsecPerSec), .mainThread, .mainThread,
    .mainThread, .timePasses nsecPerSec, .setTime (9000*nsecPerSec), .mainThread, .mainThread,
    .mainThread, .mainThread, .mainThread]

theorem jumps_found_example :
    ∃ t, run step lateSource (started (30*nsecPerSec) (5000*nsecPerSec) true) = some t ∧
      t.jumps.map Int64.toInt = [3589, 350] ∧ t.setBy = (3939 : ℤ)*nsecPerSec ∧
      |(t.jumps.map Int64.toInt).sum*nsecPerSec-(t.setBy-(t.between-t.betweenFirst))| ≤
        2*(nsecPerSec : ℤ)-2 := by
  have h : (run step lateSource (started (30*nsecPerSec) (5000*nsecPerSec) true)).any (fun t =>
      t.jumps.map Int64.toInt = [3589, 350] ∧ t.setBy = (3939 : ℤ)*nsecPerSec ∧
        (t.phase = .polling ∧ t.fd = some ⟨false⟩) ∧ t.unseen = false) = true := by
    decide +kernel
  obtain ⟨t,ht,hp⟩ := (Option.any_eq_true _ _).mp h
  obtain ⟨hjumps,hset,hquiet,hunseen⟩ := of_decide_eq_true hp
  exact ⟨t,ht,hjumps,hset,
    (jumps_found (30*nsecPerSec) (5000*nsecPerSec) true (by decide) (by decide) lateSource t
      ht).2.2.2 hquiet hunseen⟩

end EosPayg.JumpSource
