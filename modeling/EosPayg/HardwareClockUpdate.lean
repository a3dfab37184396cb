import EosPayg.BrokenDownTime
import EosPayg.GuardedRun

/-!
# Keeping the hardware clock

While the daemon runs, a timer and every jump of the system time queue an update of
the hardware clock, which an idle source then makes. Between them both clocks run at
one pace. The clock takes a broken-down time, and refuses one that is no date.
-/

set_option autoImplicit false

namespace EosPayg.HardwareClockUpdate
open EosPayg.HardwareClock EosPayg.BrokenDownTime EosPayg.GuardedRun

instance (tm : Tm) : Decidable (Civil tm) :=
  decidable_of_iff
    ((0 ≤ tm.tmSec ∧ tm.tmSec < 60) ∧ (0 ≤ tm.tmMin ∧ tm.tmMin < 60) ∧
      (0 ≤ tm.tmHour ∧ tm.tmHour < 24) ∧ (0 ≤ tm.tmMon ∧ tm.tmMon < 12) ∧
      (1 ≤ tm.tmMday ∧ tm.tmMday ≤ daysInMonth (isLeap (1900+tm.tmYear)) tm.tmMon.toNat))
    ⟨fun h => ⟨h.1,h.2.1,h.2.2.1,h.2.2.2.1,h.2.2.2.2⟩,
      fun h => ⟨h.tmSec,h.tmMin,h.tmHour,h.tmMon,h.tmMday⟩⟩

inductive Message where
  | failedToUpdate (errno : Errno)
  | updated (tm : Tm)
  deriving DecidableEq

structure Clock where
  rtcFd : ℤ
  queued : Bool
  warned : Bool
  updater : Bool
  idles : ℕ
  sys : ℤ
  rtc : ℤ
  log : List Message

def einval : Errno := 22

def rtcSetTime (rtc : ℤ) (tm : Tm) (answer : Option Errno) : ℤ × Option Errno :=
  match answer with
  | some errno => (rtc, some errno)
  | none => if Civil tm ∧ 70 ≤ tm.tmYear then (timegm tm, none) else (rtc, some einval)

/-- Once it has warned, a failure is reported like an update. -/
def paygHwclockUpdate (c : Clock) (answer : Option Errno) : Clock :=
  let c := { c with queued := false }
  let nowTm := gmtime c.sys
  let r := rtcSetTime c.rtc nowTm answer
  let c := { c with rtc := r.1 }
  match r.2, c.warned with
  | some errno, false => { c with warned := true, log := c.log++[.failedToUpdate errno] }
  | _, _ => { c with log := c.log++[.updated nowTm] }

def paygHwclockQueueUpdate (c : Clock) : Clock :=
  if c.rtcFd = -1 then c
  else if c.queued then c
  else { c with queued := true, idles := c.idles+1 }

def start (k : Answers) (rtc : ℤ) : Clock :=
  let b := (paygHwclockInit bootNew k).1
  { rtcFd := b.rtcFd
    queued := false
    warned := false
    updater := b.timeouts.any (fun t => t.2 = .sourceHwclockUpdate)
    idles := 0
    sys := k.time
    rtc := rtc
    log := [] }

inductive Event where
  | pass (secs : ℕ)
  | setTime (sys : ℤ)
  | sourceHwclockUpdate
  | clockJumpCb
  | paygHwclockUpdate (answer : Option Errno)
  deriving DecidableEq

/-- An idle source is gone when it has run; the time is never before 1970. -/
def step (c : Clock) : Event → Option Clock
  | .pass secs => some { c with sys := c.sys+secs, rtc := c.rtc+secs }
  | .setTime sys => if 0 ≤ sys then some { c with sys := sys } else none
  | .sourceHwclockUpdate => if c.updater then some (paygHwclockQueueUpdate c) else none
  | .clockJumpCb => some (paygHwclockQueueUpdate c)
  | .paygHwclockUpdate answer =>
    if 0 < c.idles then some (paygHwclockUpdate { c with idles := c.idles-1 } answer) else none

theorem gmtime_year (time : ℤ) (h : 0 ≤ time) : 70 ≤ (gmtime time).tmYear := by
  obtain ⟨-,hlt⟩ := yearOfDay_spec (time/86400)
  have hday : 0 ≤ time/86400 := by omega
  show 70 ≤ yearOfDay (time/86400)-1900
  by_contra hn
  have hbefore : daysBeforeYear (yearOfDay (time/86400)+1) ≤ 0 := by
    unfold daysBeforeYear leapYears
    omega
  omega

theorem rtcSetTime_gmtime (rtc sys : ℤ) (h : 0 ≤ sys) (answer : Option Errno) :
    rtcSetTime rtc (gmtime sys) answer = (if answer = none then sys else rtc, answer) := by
  cases answer with
  | some errno => rfl
  | none =>
    unfold rtcSetTime
    dsimp only
    rw [if_pos ⟨gmtime_civil sys,gmtime_year sys h⟩,timegm_gmtime]
    rfl

theorem update_eq (c : Clock) (h : 0 ≤ c.sys) (answer : Option Errno) :
    paygHwclockUpdate c answer =
      { c with
        queued := false
        rtc := if answer = none then c.sys else c.rtc
        warned := c.warned || answer.isSome
        log := c.log++[if c.warned then .updated (gmtime c.sys)
          else answer.elim (.updated (gmtime c.sys)) .failedToUpdate] } := by
  unfold paygHwclockUpdate
  dsimp only
  rw [rtcSetTime_gmtime c.rtc c.sys h]
  cases answer with
  | none => cases hw : c.warned <;> simp
  | some errno => cases hw : c.warned <;> simp

structure Queue (c : Clock) : Prop where
  idles : c.idles = if c.queued then 1 else 0
  sys : 0 ≤ c.sys

theorem queueUpdate_queue {c : Clock} (h : Queue c) : Queue (paygHwclockQueueUpdate c) := by
  unfold paygHwclockQueueUpdate
  split_ifs with hfd hq
  · exact h
  · exact h
  · refine ⟨?_,h.sys⟩
    show c.idles+1 = 1
    rw [h.idles,if_neg hq]

theorem step_queue {c c' : Clock} {event : Event} (h : Queue c) (hs : step c event = some c') :
    Queue c' := by
  cases event with
  | pass secs =>
    cases hs
    exact ⟨h.idles,add_nonneg h.sys (Int.natCast_nonneg secs)⟩
  | setTime sys =>
    simp only [step] at hs
    split_ifs at hs with h0
    cases hs
    exact ⟨h.idles,h0⟩
  | sourceHwclockUpdate =>
    simp only [step] at hs
    split_ifs at hs
    cases hs
    exact queueUpdate_queue h
  | clockJumpCb =>
    cases hs
    exact queueUpdate_queue h
  | paygHwclockUpdate answer =>
    simp only [step] at hs
    split_ifs at hs with hi
    cases hs
    rw [update_eq { c with idles := c.idles-1 } h.sys answer]
    refine ⟨?_,h.sys⟩
    show c.idles-1 = 0
    rw [h.idles]
    split_ifs <;> rfl

def Event.Keeps : Event → Prop
  | .setTime _ => False
  | .paygHwclockUpdate answer => answer = none
  | _ => True

structure Promised (c : Clock) : Prop where
  queue : Queue c
  update : c.queued = true ∨ c.rtc = c.sys

theorem queueUpdate_promised {c : Clock} (h : Promised c) :
    Promised (paygHwclockQueueUpdate c) := by
  refine ⟨queueUpdate_queue h.queue,?_⟩
  unfold paygHwclockQueueUpdate
  split_ifs
  · exact h.update
  · exact h.update
  · exact Or.inl rfl

theorem request_promised {c c' : Clock} {event : Event} (h : Queue c) (hfd : c.rtcFd ≠ -1)
    (he : event = .sourceHwclockUpdate ∨ event = .clockJumpCb) (hs : step c event = some c') :
    Promised c' := by
  have hc : c' = paygHwclockQueueUpdate c := by
    rcases he with rfl | rfl
    · simp only [step] at hs
      split_ifs at hs
      exact (Option.some.inj hs).symm
    · exact (Option.some.inj hs).symm
  rw [hc]
  refine ⟨queueUpdate_queue h,Or.inl ?_⟩
  unfold paygHwclockQueueUpdate
  rw [if_neg hfd]
  split_ifs with hq
  · exact hq
  · rfl

theorem step_promised {c c' : Clock} {event : Event} (h : Promised c) (hk : event.Keeps)
    (hs : step c event = some c') : Promised c' := by
  refine ⟨step_queue h.queue hs,?_⟩
  cases event with
  | pass secs =>
    cases hs
    exact h.update.imp_right (congrArg (· + (secs : ℤ)))
  | setTime sys => exact hk.elim
  | sourceHwclockUpdate =>
    simp only [step] at hs
    split_ifs at hs
    cases hs
    exact (queueUpdate_promised h).update
  | clockJumpCb =>
    cases hs
    exact (queueUpdate_promised h).update
  | paygHwclockUpdate answer =>
    obtain rfl : answer = none := hk
    simp only [step] at hs
    split_ifs at hs
    cases hs
    rw [update_eq { c with idles := c.idles-1 } h.queue.sys none]
    exact Or.inr rfl

theorem step_rtcFd {c c' : Clock} {event : Event} (hs : step c event = some c') :
    c'.rtcFd = c.rtcFd := by
  have hq : (paygHwclockQueueUpdate c).rtcFd = c.rtcFd := by
    unfold paygHwclockQueueUpdate
    split_ifs <;> rfl
  cases event with
  | pass secs =>
    cases hs
    rfl
  | setTime sys =>
    simp only [step] at hs
    split_ifs at hs
    cases hs
    rfl
  | sourceHwclockUpdate =>
    simp only [step] at hs
    split_ifs at hs
    cases hs
    exact hq
  | clockJumpCb =>
    cases hs
    exact hq
  | paygHwclockUpdate answer =>
    simp only [step] at hs
    split_ifs at hs
    cases hs
    unfold paygHwclockUpdate
    dsimp only
    split <;> rfl

theorem init_rtcFd (k : Answers) (h : (paygHwclockInit bootNew k).2 = true) :
    (paygHwclockInit bootNew k).1.rtcFd ≠ -1 := by
  obtain ⟨o,r,sys⟩ := k
  cases o with
  | error errno => cases h
  | ok fd =>
    cases r with
    | error errno => cases h
    | ok tm =>
      have hfd : (fd : ℤ) ≠ -1 := by omega
      rw [init_reads]
      split_ifs
      · exact hfd
      · exact hfd

theorem init_in_sync (fd : ℕ) (rtc sys : ℤ) (h : sys ≤ rtc) :
    (paygHwclockInit bootNew ⟨.ok fd, .ok (gmtime rtc), sys⟩).2 = true := by
  rw [init_reads,timegm_gmtime,if_neg]
  exact not_lt.mpr (Int.ediv_le_ediv (by norm_num) h)

/-- No request for an update is lost: whatever was queued before it, when the loop has
nothing left to do and no update has failed since, the hardware clock shows the system
time, and no later boot that does not start ahead of it finds it out of sync. -/
theorem update_not_lost (k : Answers) (rtc : ℤ) (hk : (paygHwclockInit bootNew k).2 = true)
    (h0 : 0 ≤ k.time) (before after : List Event) (request : Event)
    (hreq : request = .sourceHwclockUpdate ∨ request = .clockJumpCb)
    (hafter : ∀ e ∈ after, e.Keeps) (t : Clock)
    (hr : run step (before++request::after) (start k rtc) = some t) (hidle : t.idles = 0) :
    t.rtc = t.sys ∧ ∀ (off fd : ℕ) (sys : ℤ), sys ≤ t.rtc+off →
      (paygHwclockInit bootNew ⟨.ok fd, .ok (gmtime (t.rtc+off)), sys⟩).2 = true := by
  obtain ⟨c,hc,hrest⟩ := run_append_some.mp hr
  obtain ⟨c',hs,ht⟩ := run_cons.mp hrest
  have hfd : Queue c ∧ c.rtcFd ≠ -1 := by
    refine run_invariant (I := fun c => Queue c ∧ c.rtcFd ≠ -1) ?_
      ⟨⟨rfl,h0⟩,init_rtcFd k hk⟩ hc
    exact fun _ _ _ h hs => ⟨step_queue h.1 hs,(step_rtcFd hs).trans_ne h.2⟩
  have hp : Promised t :=
    run_invariant_along (P := fun _ e => e.Keeps) (fun _ _ _ h hk hs => step_promised h hk hs)
      (request_promised hfd.1 hfd.2 hreq hs) (along_of_forall hafter c') ht
  refine ⟨?_,fun off fd sys hle => init_in_sync fd (t.rtc+off) sys hle⟩
  refine hp.update.resolve_left fun hq => ?_
  rw [hp.queue.idles,if_pos hq] at hidle
  cases hidle

def jumped : Answers := ⟨.ok 3, .ok ⟨0, 0, 0, 1, 0, 123⟩, 1672531200⟩

theorem update_not_lost_example :
    ∃ t, run step ([.setTime 1704067199, .clockJumpCb, .sourceHwclockUpdate, .pass 1]++
        .clockJumpCb::[.pass 2, .paygHwclockUpdate none, .pass 600]) (start jumped 1672531200) =
          some t ∧ t.rtc = t.sys := by
  have hafter : ∀ e ∈ [Event.pass 2, .paygHwclockUpdate none, .pass 600], e.Keeps := by
    simp [Event.Keeps]
  exact ⟨_,rfl,(update_not_lost jumped 1672531200 (by decide) (by decide)
    [.setTime 1704067199, .clockJumpCb, .sourceHwclockUpdate, .pass 1]
    [.pass 2, .paygHwclockUpdate none, .pass 600] .clockJumpCb (Or.inr rfl) hafter _ rfl rfl).1⟩

def Message.warns : Message → Bool
  | .failedToUpdate _ => true
  | .updated _ => false

def Event.updates : Event → Bool
  | .paygHwclockUpdate _ => true
  | _ => false

def Event.fails : Event → Bool
  | .paygHwclockUpdate answer => answer.isSome
  | _ => false

theorem step_log {c c' : Clock} {event : Event} (h : Queue c) (hs : step c event = some c') :
    c'.warned = (c.warned || event.fails) ∧
      c'.log.length = c.log.length+(if event.updates then 1 else 0) ∧
      c'.log.countP Message.warns =
        c.log.countP Message.warns+(if event.fails && !c.warned then 1 else 0) := by
  have hq : (paygHwclockQueueUpdate c).warned = c.warned ∧
      (paygHwclockQueueUpdate c).log = c.log := by
    unfold paygHwclockQueueUpdate
    split_ifs <;> exact ⟨rfl,rfl⟩
  cases event with
  | pass secs =>
    cases hs
    exact ⟨(Bool.or_false _).symm,rfl,rfl⟩
  | setTime sys =>
    simp only [step] at hs
    split_ifs at hs
    cases hs
    exact ⟨(Bool.or_false _).symm,rfl,rfl⟩
  | sourceHwclockUpdate =>
    simp only [step] at hs
    split_ifs at hs
    cases hs
    rw [hq.1,hq.2]
    exact ⟨(Bool.or_false _).symm,rfl,rfl⟩
  | clockJumpCb =>
    cases hs
    rw [hq.1,hq.2]
    exact ⟨(Bool.or_false _).symm,rfl,rfl⟩
  | paygHwclockUpdate answer =>
    simp only [step] at hs
    split_ifs at hs
    cases hs
    rw [update_eq { c with idles := c.idles-1 } h.sys answer]
    refine ⟨rfl,List.length_append,?_⟩
    show (c.log++[_]).countP Message.warns = _
    rw [List.countP_append,List.countP_singleton]
    cases answer with
    | none => cases hw : c.warned <;> rfl
    | some errno => cases hw : c.warned <;> rfl

/-- Every update is reported, but of those that fail only the first as a failure: from
then on the log says that the clock was set, whether it was or not. -/
theorem failures_reported_once (k : Answers) (rtc : ℤ) (h0 : 0 ≤ k.time) (events : List Event)
    (t : Clock) (hr : run step events (start k rtc) = some t) :
    t.log.length = events.countP Event.updates ∧
      t.log.countP Message.warns = min (events.countP Event.fails) 1 := by
  have hgen : ∀ (events : List Event) (c : Clock), Queue c → run step events c = some t →
      t.log.length = c.log.length+events.countP Event.updates ∧
        t.log.countP Message.warns = c.log.countP Message.warns+
          (if c.warned then 0 else min (events.countP Event.fails) 1) := by
    intro events
    induction events with
    | nil =>
      intro c _ hr
      cases hr
      exact ⟨rfl,by simp⟩
    | cons event events ih =>
      intro c hc hr
      obtain ⟨c',hs,ht⟩ := run_cons.mp hr
      obtain ⟨hw,hl,hn⟩ := step_log hc hs
      obtain ⟨hl',hn'⟩ := ih c' (step_queue hc hs) ht
      rw [List.countP_cons,List.countP_cons,hl',hl,hn',hn,hw]
      refine ⟨by omega,?_⟩
      cases hcw : c.warned with
      | true => simp
      | false =>
        cases hf : event.fails with
        | true => simp
        | false => simp
  have h := hgen events (start k rtc) ⟨rfl,h0⟩ hr
  exact ⟨h.1.trans (Nat.zero_add _),h.2.trans (Nat.zero_add _)⟩

def failingUpdates : List Event :=
  [.clockJumpCb, .paygHwclockUpdate (some 5), .clockJumpCb, .paygHwclockUpdate (some 5)]

theorem failures_reported_once_example :
    ∃ t, run step failingUpdates (start jumped 1672531200) = some t ∧
      t.log.length = 2 ∧ t.log.countP Message.warns = 1 := by
  obtain ⟨t,ht⟩ := Option.isSome_iff_exists.mp
    (show (run step failingUpdates (start jumped 1672531200)).isSome by decide +kernel)
  exact ⟨t,ht,failures_reported_once jumped 1672531200 (by decide) failingUpdates t ht⟩

end EosPayg.HardwareClockUpdate
