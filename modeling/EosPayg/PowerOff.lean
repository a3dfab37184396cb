import EosPayg.ExpiryTimer
import EosPayg.ShutdownTimer

/-!
# From the end of the credit to the power-off

The manager on the real clock and the service on the bus run in one main loop. The
manager looks for the expiry on the boot clock, the service counts down on the monotonic
clock, which stands still while the machine is asleep. The loop may come to either late;
what is said of a moment at which it is idle is that nothing was left undone.
-/

set_option autoImplicit false

namespace EosPayg.PowerOff
open EosPayg.WordArithmetic EosPayg.PaygCodes EosPayg.ManagerState EosPayg.ManagerCode
  EosPayg.ManagerFiles EosPayg.ManagerService EosPayg.ShutdownTimer EosPayg.GuardedRun
open EosPayg.ExpiryTimer (nsecPerSec boottimeLimit clockOf Effect.isExpired Effect.setsExpiry
  Kept SetFrom)

structure Countdown where
  id : ℕ
  started : ℕ
  due : ℕ
  deriving DecidableEq

structure System where
  manager : ExpiryTimer.System
  service : EpgManagerService
  monotonic : ℕ
  countdowns : List Countdown
  requested : List Countdown

/-- Timers in whole seconds are moved by the loop, less than a second, so that several
fire together. -/
def Aligned (align : ℕ → ℕ) : Prop :=
  ∀ t, t ≤ align t+nsecPerSec ∧ align t ≤ t+nsecPerSec

def gTimeoutAddSeconds (align : ℕ → ℕ) (now secs id : ℕ) : Countdown :=
  ⟨id, now, align (now+secs*nsecPerSec)⟩

def countdown (align : ℕ → ℕ) (now : ℕ) (countdowns : List Countdown) (id : ℕ) : Countdown :=
  (countdowns.find? (fun c => c.id = id)).getD
    (gTimeoutAddSeconds align now (60*timeoutPoweroffNoCreditMinutes) id)

def hear (align : ℕ → ℕ) (w : System) (manager : ExpiryTimer.System) (effects : List Effect) :
    System :=
  let service := handleAll (clockOf w.manager).time effects { w.service with cancelled := [] }
  { w with
    manager := manager
    service := service
    countdowns := service.timers.map (countdown align w.monotonic w.countdowns) }

def emitted (hmac : Hmac) (s : ExpiryTimer.System) : ExpiryTimer.Operation → List Effect
  | .addCode codeStr => (addCode hmac s.manager (clockOf s) codeStr).2.2
  | .clearCode => (clearCode s.manager (clockOf s)).2.2
  | .wallclockTimeChanged delta => (wallclockTimeChanged s.manager (clockOf s) delta).2
  | .timerDispatch => (checkExpiredCb s.manager (clockOf s)).2
  | .fileLoad _ _ => []
  | .timePasses _ _ => []

def afterLoad : ExpiryTimer.Operation → Bool
  | .fileLoad _ _ => false
  | .timePasses _ _ => false
  | _ => true

inductive Operation where
  | manager (op : ExpiryTimer.Operation)
  | timePasses (awake asleep : ℕ) (wallclock : UInt64)
  | poweroffDispatch (c : Countdown)

def step (hmac : Hmac) (align : ℕ → ℕ) (w : System) : Operation → Option System
  | .manager op =>
    if afterLoad op then
      (ExpiryTimer.step hmac w.manager op).map
        (fun manager => hear align w manager (emitted hmac w.manager op))
    else none
  | .timePasses awake asleep wallclock =>
    (ExpiryTimer.step hmac w.manager
        (.timePasses (w.manager.now+awake+asleep) wallclock)).map
      (fun manager => { w with manager := manager, monotonic := w.monotonic+awake })
  | .poweroffDispatch c =>
    if c ∈ w.countdowns ∧ c.due ≤ w.monotonic then
      some { w with
        service := timerFires w.service c.id
        countdowns := w.countdowns.erase c
        requested := c::w.requested }
    else none

/-- An expiry that has passed by the time the service is created is noticed then. -/
def constructed (align : ℕ → ℕ) (s : ExpiryTimer.System) (monotonic : ℕ) : System :=
  let service := (ManagerService.constructed s.manager (clockOf s) s.timer.isSome).service
  ⟨s, service, monotonic, service.timers.map (countdown align monotonic []), []⟩

def Idle (w : System) : Prop :=
  ExpiryTimer.idle w.manager = true ∧ ∀ c ∈ w.countdowns, w.monotonic < c.due

def SetsInTime (hmac : Hmac) (w : System) : Operation → Prop
  | .manager op => ExpiryTimer.SetsInTime hmac w.manager op
  | _ => True

def Timed (c : Countdown) : Prop :=
  c.started+599*nsecPerSec ≤ c.due ∧ c.due ≤ c.started+601*nsecPerSec

def OutOfCredit (s : ExpiryTimer.System) : Prop :=
  s.manager.expiryTimeSecs ≤ (clockOf s).time

theorem unexpired_andThen {first : Outcome} {next : EpgManager → Outcome}
    (h : first.2.any Effect.isExpired = false)
    (hn : (next first.1).2.any Effect.isExpired = false) :
    (andThen first next).2.any Effect.isExpired = false := by
  rw [andThen_effects,List.any_append,h,hn]
  rfl

theorem internalSave_unexpired (self : EpgManager) (clock : EpgClock) (task : Bool) :
    (internalSave self clock task).2.any Effect.isExpired = false := by
  cases task <;> rfl

theorem clearExpiryTimer_unexpired (self : EpgManager) :
    (clearExpiryTimer self).2.any Effect.isExpired = false := by
  unfold clearExpiryTimer
  split <;> rfl

theorem setExpiryTime_unexpired (self : EpgManager) (clock : EpgClock) (task save : Bool)
    (base span : UInt64) (hk : clock.sourceNewSeconds = true) :
    (setExpiryTime self clock task save base span).2.any Effect.isExpired = false := by
  refine unexpired_andThen (unexpired_andThen (clearExpiryTimer_unexpired _) ?_) ?_
  · unfold armExpiryTimer
    split_ifs <;> rfl
  · unfold announceExpiryTime
    split_ifs
    · exact unexpired_andThen rfl (internalSave_unexpired _ _ _)
    · rfl
    · rfl

theorem addCode_unexpired (hmac : Hmac) (self : EpgManager) (clock : EpgClock)
    (codeStr : List UInt8) (hk : clock.sourceNewSeconds = true) :
    (addCode hmac self clock codeStr).2.2.any Effect.isExpired = false := by
  cases h : acceptedCode hmac self clock codeStr with
  | none =>
    rcases addCode_refused_effects hmac self clock codeStr h with he | he <;> rw [he] <;> rfl
  | some used =>
    rw [addCode_accepted hmac self clock codeStr used h]
    refine unexpired_andThen (unexpired_andThen (setExpiryTime_unexpired _ _ _ _ _ _ hk) ?_)
      (internalSave_unexpired _ _ _)
    unfold clearRateLimiting
    split_ifs <;> rfl

theorem clearCode_unexpired (self : EpgManager) (clock : EpgClock) :
    (clearCode self clock).2.2.any Effect.isExpired = false := by
  rcases clearCode_cases self clock with ⟨he,hn⟩ | h
  · rw [clearCode_ok self clock he hn]
    refine unexpired_andThen (unexpired_andThen ?_ (clearExpiryTimer_unexpired _))
      (internalSave_unexpired _ _ _)
    unfold zeroExpiryTime
    split_ifs <;> rfl
  · rw [h]
    rfl

theorem wallclockTimeChanged_unexpired (self : EpgManager) (clock : EpgClock) (delta : Int64)
    (hk : clock.sourceNewSeconds = true) :
    (wallclockTimeChanged self clock delta).2.any Effect.isExpired = false := by
  unfold wallclockTimeChanged
  split_ifs
  · rfl
  · refine unexpired_andThen ?_ (internalSave_unexpired _ _ _)
    rw [consumeJump_eq]
    split_ifs
    · exact setExpiryTime_unexpired _ _ _ _ _ _ hk
    · rfl
  · exact unexpired_andThen rfl (internalSave_unexpired _ _ _)

theorem loadFile_unexpired (self : EpgManager) (clock : EpgClock) (file : StateFile)
    (data : Option (List UInt8)) (hk : clock.sourceNewSeconds = true) :
    (loadFile self clock file data).2.2.any Effect.isExpired = false := by
  cases file with
  | clockTime =>
    simp only [loadFile,loadWallclockTime]
    split_ifs <;> rfl
  | expirySeconds =>
    simp only [loadFile,loadExpirySeconds]
    split_ifs
    · exact setExpiryTime_unexpired _ _ _ _ _ _ hk
    · rfl
    · rfl
  | expiryTime =>
    simp only [loadFile,loadExpiryTime]
    split_ifs
    · exact setExpiryTime_unexpired _ _ _ _ _ _ hk
    · rfl
    · exact unexpired_andThen (setExpiryTime_unexpired _ _ _ _ _ _ hk) rfl
    · exact unexpired_andThen (setExpiryTime_unexpired _ _ _ _ _ _ hk) rfl
  | usedCodes =>
    simp only [loadFile,loadUsedCodes]
    split <;> rfl
  | key =>
    cases data <;> rfl
  | accountId =>
    cases data <;> rfl

theorem fileLoadCb_unexpired (self : EpgManager) (clock : EpgClock) (file : StateFile)
    (result : LoadResult) (hk : clock.sourceNewSeconds = true) :
    (fileLoadCb self clock false file result).2.any Effect.isExpired = false := by
  rcases ExpiryTimer.fileLoadCb_bytes self clock file result with ⟨e,-,he⟩ | ⟨data,-,he⟩
  · rw [he]
    rfl
  · rw [he]
    unfold updateFromFile
    simp only
    split_ifs
    · refine unexpired_andThen (unexpired_andThen (loadFile_unexpired _ _ _ _ hk) ?_) rfl
      rw [ExpiryTimer.deduceExpiryTime_span]
      split
      · exact setExpiryTime_unexpired _ _ _ _ _ _ hk
      · rfl
    · exact loadFile_unexpired _ _ _ _ hk

structure Settled (m : EpgManager) (out : Outcome) : Prop where
  unexpired : out.2.any Effect.isExpired = false
  kept : out.2.any Effect.setsExpiry = false →
    out.1.expiryTimeSecs = m.expiryTimeSecs ∨ out.1.expiryTimeSecs = maxWord

theorem settled_of_kept {m : EpgManager} {out : Outcome} (hk : Kept m out)
    (hu : out.2.any Effect.isExpired = false) : Settled m out :=
  ⟨hu,fun _ => Or.inl hk.1⟩

theorem settled_of_setFrom {m : EpgManager} {out : Outcome} {base span : UInt64}
    (hs : SetFrom base span out) (hu : out.2.any Effect.isExpired = false) : Settled m out := by
  refine ⟨hu,fun hset => Or.inr ?_⟩
  rw [hs.1]
  by_contra hm
  obtain ⟨before,after,he,-⟩ := hs.2 hm
  simp [he,Effect.setsExpiry] at hset

theorem addCode_settled (hmac : Hmac) (s : ExpiryTimer.System) (codeStr : List UInt8) :
    Settled s.manager (addCode hmac s.manager (clockOf s) codeStr).2 := by
  have hu := addCode_unexpired hmac s.manager (clockOf s) codeStr rfl
  cases h : acceptedCode hmac s.manager (clockOf s) codeStr with
  | none => exact settled_of_kept (ExpiryTimer.addCode_kept hmac _ _ _ h) hu
  | some used => exact settled_of_setFrom (ExpiryTimer.addCode_setFrom hmac _ _ _ _ rfl h) hu

theorem clearCode_settled (s : ExpiryTimer.System) :
    Settled s.manager (clearCode s.manager (clockOf s)).2 := by
  refine ⟨clearCode_unexpired s.manager (clockOf s),fun hset => Or.inl ?_⟩
  rcases clearCode_cases s.manager (clockOf s) with ⟨he,hn⟩ | h
  · rw [clearCode_state s.manager (clockOf s) he hn]
    by_contra hz
    have hz' : s.manager.expiryTimeSecs ≠ 0 := fun h => hz h.symm
    rw [clearCode_ok s.manager (clockOf s) he hn,andThen_effects,andThen_effects,zeroExpiryTime,
      if_pos hz'] at hset
    simp [Effect.setsExpiry] at hset
  · rw [h]

theorem wallclockTimeChanged_settled (s : ExpiryTimer.System) (delta : Int64) :
    Settled s.manager (wallclockTimeChanged s.manager (clockOf s) delta) := by
  have hu := wallclockTimeChanged_unexpired s.manager (clockOf s) delta rfl
  by_cases hd : 0 < delta ∧ (clockOf s).time < s.manager.expiryTimeSecs
  · exact settled_of_setFrom (ExpiryTimer.wallclockTimeChanged_setFrom _ _ _ rfl hd) hu
  · exact settled_of_kept (ExpiryTimer.wallclockTimeChanged_kept _ _ _ hd) hu

theorem fileLoadCb_settled (s : ExpiryTimer.System) (file : StateFile) (result : LoadResult) :
    Settled s.manager (fileLoadCb s.manager (clockOf s) false file result) := by
  have hu := fileLoadCb_unexpired s.manager (clockOf s) file result rfl
  cases h : ExpiryTimer.loadSpan s.manager (clockOf s) file result with
  | none => exact settled_of_kept (ExpiryTimer.fileLoadCb_kept _ _ _ _ h) hu
  | some span => exact settled_of_setFrom (ExpiryTimer.fileLoadCb_setFrom _ _ _ _ _ rfl h) hu

def Noticed (s : ExpiryTimer.System) : Prop :=
  s.emitted = true → OutOfCredit s ∨ s.manager.expiryTimeSecs = maxWord

theorem serve_emitted {s : ExpiryTimer.System} {out : Outcome} (h : Settled s.manager out)
    (he : (ExpiryTimer.serve s out).emitted = true) :
    out.2.any Effect.setsExpiry = false ∧ s.emitted = true := by
  simp only [ExpiryTimer.serve,h.unexpired,Bool.or_false] at he
  split_ifs at he with hs
  exact ⟨(Bool.not_eq_true _).mp hs,he⟩

theorem serve_noticed {s : ExpiryTimer.System} {out : Outcome} (h : Settled s.manager out)
    (hn : Noticed s) : Noticed (ExpiryTimer.serve s out) := by
  intro he
  obtain ⟨hs,he⟩ := serve_emitted h he
  rcases h.kept hs with hk | hm
  · rcases hn he with ho | hm
    · left
      show out.1.expiryTimeSecs ≤ _
      rw [hk]
      exact ho
    · exact Or.inr (hk.trans hm)
  · exact Or.inr hm

theorem clock_mono {s t : ExpiryTimer.System} (h : s.now ≤ t.now) (hb : t.now < boottimeLimit) :
    (clockOf s).time ≤ (clockOf t).time := by
  rw [UInt64.le_iff_toNat_le,ExpiryTimer.clockOf_time s (h.trans_lt hb),
    ExpiryTimer.clockOf_time t hb]
  exact Nat.div_le_div_right h

theorem dispatch_noticed {s : ExpiryTimer.System} {tm : PeriodicTimer.Timer} (hn : Noticed s) :
    Noticed (ExpiryTimer.dispatch s tm) := by
  intro he
  rcases Bool.or_eq_true_iff.mp he with ho | hx
  · exact hn ho
  · left
    unfold checkExpiredCb at hx
    split_ifs at hx with hd ht
    · cases hx
    · exact ht
    · cases hx

theorem step_noticed {hmac : Hmac} {s s' : ExpiryTimer.System} {op : ExpiryTimer.Operation}
    (hn : Noticed s) (hs : ExpiryTimer.step hmac s op = some s') : Noticed s' := by
  cases op with
  | fileLoad file result =>
    simp only [ExpiryTimer.step] at hs
    split_ifs at hs
    cases hs
    exact serve_noticed (fileLoadCb_settled s file result) hn
  | addCode codeStr =>
    cases hs
    exact serve_noticed (addCode_settled hmac s codeStr) hn
  | wallclockTimeChanged delta =>
    cases hs
    exact serve_noticed (wallclockTimeChanged_settled s delta) hn
  | clearCode =>
    cases hs
    exact serve_noticed (clearCode_settled s) hn
  | timePasses now wallclock =>
    simp only [ExpiryTimer.step] at hs
    split_ifs at hs with ht
    cases hs
    exact fun he => (hn he).imp_left
      (fun ho => UInt64.le_trans ho (clock_mono (t := { s with now := now }) ht.1 ht.2))
  | timerDispatch =>
    simp only [ExpiryTimer.step] at hs
    split at hs
    · cases hs
    · split_ifs at hs
      cases hs
      exact dispatch_noticed hn

def Holds (s t : EpgManagerService) : Prop :=
  t.shutdownTimerId = 0 ∨ t.shutdownTimerId ∈ t.timers ∨
    t.shutdownTimerId = s.shutdownTimerId ∧ t.timers = s.timers

theorem handle_tracked {s : EpgManagerService} (h : Tracked s) (now : UInt64) (e : Effect) :
    Tracked (handle now s e) := by
  unfold handle
  split
  · exact step_tracked s .expired _ h rfl
  · exact step_tracked s (.notifyExpiryTime _ now) _ h rfl
  · exact h

theorem handle_holds (s : EpgManagerService) (now : UInt64) (e : Effect) :
    Holds s (handle now s e) := by
  unfold handle
  split
  · by_cases hz : s.shutdownTimerId = 0
    · obtain ⟨hid,ht⟩ := expiredCb_starts hz
      right
      left
      rw [hid,ht]
      exact List.mem_cons_self
    · exact Or.inr (Or.inr (expiredCb_declines hz))
  · rename_i seen
    rcases notifyExpiryTimeCb_cases s seen now with he | ⟨-,hz,-⟩
    · rw [he]
      exact Or.inr (Or.inr ⟨rfl,rfl⟩)
    · exact Or.inl hz
  · exact Or.inr (Or.inr ⟨rfl,rfl⟩)

theorem holds_trans {s t u : EpgManagerService} (hst : Holds s t) (htu : Holds t u) :
    Holds s u := by
  rcases htu with hz | hm | ⟨hid,ht⟩
  · exact Or.inl hz
  · exact Or.inr (Or.inl hm)
  · unfold Holds
    rw [hid,ht]
    exact hst

theorem handleAll_kept (effects : List Effect) {s : EpgManagerService} (h : Tracked s)
    (now : UInt64) : Tracked (handleAll now effects s) ∧ Holds s (handleAll now effects s) := by
  induction effects generalizing s with
  | nil => exact ⟨h,Or.inr (Or.inr ⟨rfl,rfl⟩)⟩
  | cons e effects ih =>
    obtain ⟨ht,hh⟩ := ih (handle_tracked h now e)
    exact ⟨ht,holds_trans (handle_holds s now e) hh⟩

theorem countdown_id (align : ℕ → ℕ) (now : ℕ) (cs : List Countdown) (id : ℕ) :
    (countdown align now cs id).id = id := by
  unfold countdown
  cases hf : cs.find? (fun c => c.id = id) with
  | none => rfl
  | some c =>
    exact of_decide_eq_true (List.find?_some (p := fun c : Countdown => decide (c.id = id)) hf)

theorem countdown_cases (align : ℕ → ℕ) (now : ℕ) (cs : List Countdown) (id : ℕ) :
    countdown align now cs id ∈ cs ∨
      countdown align now cs id =
        gTimeoutAddSeconds align now (60*timeoutPoweroffNoCreditMinutes) id := by
  unfold countdown
  cases hf : cs.find? (fun c => c.id = id) with
  | none => exact Or.inr rfl
  | some c => exact Or.inl (List.mem_of_find?_eq_some hf)

variable {align : ℕ → ℕ}

theorem gTimeoutAddSeconds_timed (halign : Aligned align) (now id : ℕ) :
    Timed (gTimeoutAddSeconds align now (60*timeoutPoweroffNoCreditMinutes) id) := by
  have h := halign (now+60*timeoutPoweroffNoCreditMinutes*nsecPerSec)
  have hm : 60*timeoutPoweroffNoCreditMinutes = 600 := rfl
  rw [hm] at h
  show now+599*nsecPerSec ≤ align (now+600*nsecPerSec) ∧
    align (now+600*nsecPerSec) ≤ now+601*nsecPerSec
  omega

/-- Each timer of the service has its countdown, and the id that is kept is of one that
runs or has fired. -/
structure Counted (w : System) : Prop where
  enabled : w.manager.manager.enabled = true
  bounded : w.manager.now < boottimeLimit
  out : w.service.shutdownTimerId ≠ 0 → OutOfCredit w.manager
  tracked : Tracked w.service
  ids : w.countdowns.map Countdown.id = w.service.timers
  timed : ∀ c, c ∈ w.countdowns ∨ c ∈ w.requested → c.started ≤ w.monotonic ∧ Timed c
  kept : w.service.shutdownTimerId ≠ 0 →
    ∃ c, (c ∈ w.countdowns ∨ c ∈ w.requested) ∧ c.id = w.service.shutdownTimerId
  fired : ∀ c ∈ w.requested, c.due ≤ w.monotonic

theorem hear_counted (halign : Aligned align) {w : System} (h : Counted w)
    (manager : ExpiryTimer.System) (effects : List Effect)
    (he : manager.manager.enabled = true) (hn : manager.now = w.manager.now)
    (ho : (hear align w manager effects).service.shutdownTimerId ≠ 0 → OutOfCredit manager) :
    Counted (hear align w manager effects) := by
  obtain ⟨htracked,hholds⟩ := handleAll_kept effects (s := { w.service with cancelled := [] })
    h.tracked (clockOf w.manager).time
  have hids : (hear align w manager effects).countdowns.map Countdown.id =
      (hear align w manager effects).service.timers := by
    show List.map _ (List.map _ _) = _
    rw [List.map_map]
    exact (List.map_congr_left (fun id _ => countdown_id _ _ _ id)).trans (List.map_id _)
  refine ⟨he,hn ▸ h.bounded,ho,htracked,hids,?_,fun hid => ?_,h.fired⟩
  · rintro c (hc | hc)
    · obtain ⟨id,-,rfl⟩ := List.mem_map.mp hc
      rcases countdown_cases align w.monotonic w.countdowns id with hold | hnew
      · exact h.timed _ (Or.inl hold)
      · rw [hnew]
        exact ⟨le_rfl,gTimeoutAddSeconds_timed halign w.monotonic id⟩
    · exact h.timed c (Or.inr hc)
  · have hrunning : (hear align w manager effects).service.shutdownTimerId ∈
        (hear align w manager effects).service.timers →
        ∃ c, (c ∈ (hear align w manager effects).countdowns ∨ c ∈ w.requested) ∧
          c.id = (hear align w manager effects).service.shutdownTimerId := by
      intro hm
      rw [← hids] at hm
      obtain ⟨c,hc,hcid⟩ := List.mem_map.mp hm
      exact ⟨c,Or.inl hc,hcid⟩
    rcases hholds with hz | hm | ⟨hsame,htimers⟩
    · exact absurd hz hid
    · exact hrunning hm
    · have hsame' : (hear align w manager effects).service.shutdownTimerId =
          w.service.shutdownTimerId := hsame
      obtain ⟨c,hc,hcid⟩ := h.kept (hsame' ▸ hid)
      rcases hc with hc | hc
      · apply hrunning
        rw [hsame',← hcid]
        show c.id ∈ (handleAll _ _ _).timers
        rw [htimers,← h.ids]
        exact List.mem_map_of_mem hc
      · exact ⟨c,Or.inr hc,hcid.trans hsame'.symm⟩

def onBus (w : System) : ManagerService.System :=
  ⟨w.manager.manager, { w.service with cancelled := [] }, clockOf w.manager,
    w.manager.timer.isSome⟩

theorem onBus_enforced {w : System} (h : Counted w) : Enforced (onBus w) :=
  ⟨h.enabled,h.out,fun hc => absurd rfl hc⟩

theorem heard_out {w : System} {out : Outcome}
    (he : Enforced (ManagerService.serve (onBus w) out))
    (hid : (hear align w (ExpiryTimer.serve w.manager out) out.2).service.shutdownTimerId ≠ 0) :
    OutOfCredit (ExpiryTimer.serve w.manager out) :=
  he.2.1 hid

theorem addCode_out {hmac : Hmac} {w : System} (h : Counted w) (codeStr : List UInt8) :
    Enforced (ManagerService.serve (onBus w)
      (addCode hmac w.manager.manager (clockOf w.manager) codeStr).2) :=
  attempt_enforced hmac (onBus w) codeStr (onBus_enforced h)

theorem jump_out {w : System} (h : Counted w) (delta : Int64) :
    Enforced (ManagerService.serve (onBus w)
      (wallclockTimeChanged w.manager.manager (clockOf w.manager) delta)) := by
  refine jump_enforced (onBus w) delta (onBus_enforced h) ?_
  rintro ⟨-,-,-,hs⟩
  cases hs

theorem clearCode_out {w : System} (h : Counted w)
    (hid : (hear align w (ExpiryTimer.serve w.manager
        (clearCode w.manager.manager (clockOf w.manager)).2)
      (clearCode w.manager.manager (clockOf w.manager)).2.2).service.shutdownTimerId ≠ 0) :
    OutOfCredit (ExpiryTimer.serve w.manager
      (clearCode w.manager.manager (clockOf w.manager)).2) := by
  by_cases hz : ZeroesExpiry (onBus w) .clearCode
  · have he : (clearCode w.manager.manager (clockOf w.manager)).2.1.expiryTimeSecs = 0 := by
      rw [clearCode_state w.manager.manager (clockOf w.manager) h.enabled hz.1]
    show (clearCode w.manager.manager (clockOf w.manager)).2.1.expiryTimeSecs ≤ _
    rw [he]
    exact UInt64.zero_le
  · exact heard_out (clear_enforced (onBus w) (onBus_enforced h) hz) hid

theorem checkExpired_out {w : System} (h : Counted w) (tm : PeriodicTimer.Timer)
    (hid : (hear align w (ExpiryTimer.dispatch w.manager tm)
      (checkExpiredCb w.manager.manager (clockOf w.manager)).2).service.shutdownTimerId ≠ 0) :
    OutOfCredit (ExpiryTimer.dispatch w.manager tm) := by
  by_cases hx : OutOfCredit w.manager
  · exact hx
  · refine h.out ?_
    have hc : (checkExpiredCb w.manager.manager (clockOf w.manager)).2 = [] := by
      unfold checkExpiredCb
      unfold OutOfCredit at hx
      rw [if_neg (by simp [h.enabled]),if_neg hx]
    rw [hc] at hid
    exact hid

theorem step_counted (halign : Aligned align) {hmac : Hmac} {w w' : System} {op : Operation}
    (h : Counted w) (hs : step hmac align w op = some w') : Counted w' := by
  cases op with
  | manager op =>
    simp only [step] at hs
    split_ifs at hs with ha
    obtain ⟨m,hm,rfl⟩ := Option.map_eq_some_iff.mp hs
    cases op with
    | fileLoad file result => cases ha
    | timePasses now wallclock => cases ha
    | addCode codeStr =>
      cases hm
      exact hear_counted halign h _ _ ((addCode_settings hmac _ _ _).1.trans h.enabled) rfl
        (heard_out (addCode_out h codeStr))
    | wallclockTimeChanged delta =>
      cases hm
      exact hear_counted halign h _ _ ((wallclockTimeChanged_enabled _ _ _).trans h.enabled) rfl
        (heard_out (jump_out h delta))
    | clearCode =>
      cases hm
      exact hear_counted halign h _ _ ((clearCode_enabled _ _).trans h.enabled) rfl
        (clearCode_out h)
    | timerDispatch =>
      simp only [ExpiryTimer.step] at hm
      split at hm
      · cases hm
      · split_ifs at hm
        cases hm
        exact hear_counted halign h _ _ h.enabled rfl (checkExpired_out h _)
  | timePasses awake asleep wallclock =>
    obtain ⟨m,hm,rfl⟩ := Option.map_eq_some_iff.mp hs
    simp only [ExpiryTimer.step] at hm
    split_ifs at hm with ht
    cases hm
    exact ⟨h.enabled,ht.2,fun hid => UInt64.le_trans (h.out hid)
        (clock_mono (t := { w.manager with now := w.manager.now+awake+asleep }) ht.1 ht.2),
      h.tracked,h.ids,
      fun c hc => (h.timed c hc).imp_left (fun hle => hle.trans (Nat.le_add_right _ _)),h.kept,
      fun c hc => (h.fired c hc).trans (Nat.le_add_right _ _)⟩
  | poweroffDispatch c =>
    simp only [step] at hs
    split_ifs at hs with hc
    cases hs
    have hmem : c.id ∈ w.service.timers := h.ids ▸ List.mem_map_of_mem hc.1
    obtain ⟨hid,-,hnil⟩ := timerFires_tracked h.tracked hmem
    have hone : w.countdowns = [c] := by
      rcases h.tracked with ht | ⟨ht,-⟩
      · rw [ht] at hmem
        cases hmem
      · have hlen : w.countdowns.length = 1 := by
          rw [← List.length_map Countdown.id,h.ids,ht]
          rfl
        obtain ⟨d,hd⟩ := List.length_eq_one_iff.mp hlen
        rw [hd] at hc ⊢
        rw [List.mem_singleton.mp hc.1]
    refine ⟨h.enabled,h.bounded,h.out,Or.inl hnil,?_,?_,fun _ => ?_,?_⟩
    · show (w.countdowns.erase c).map Countdown.id = _
      rw [hnil,hone,List.erase_cons_head]
      rfl
    · rintro d (hd | hd)
      · exact h.timed d (Or.inl (List.mem_of_mem_erase hd))
      · rcases List.mem_cons.mp hd with rfl | hd
        · exact h.timed _ (Or.inl hc.1)
        · exact h.timed d (Or.inr hd)
    · obtain ⟨d,hd,hdid⟩ := h.kept hid
      refine ⟨d,Or.inr ?_,hdid⟩
      rcases hd with hd | hd
      · rw [hone] at hd
        exact List.mem_cons.mpr (Or.inl (List.mem_singleton.mp hd))
      · exact List.mem_cons_of_mem _ hd
    · intro d hd
      rcases List.mem_cons.mp hd with rfl | hd
      · exact hc.2
      · exact h.fired d hd

theorem constructed_counted (halign : Aligned align) {s : ExpiryTimer.System}
    (he : s.manager.enabled = true) (hb : s.now < boottimeLimit) (monotonic : ℕ) :
    Counted (constructed align s monotonic) := by
  have hids : (constructed align s monotonic).countdowns.map Countdown.id =
      (constructed align s monotonic).service.timers := by
    show List.map _ (List.map _ _) = _
    rw [List.map_map]
    exact (List.map_congr_left (fun id _ => countdown_id _ _ _ id)).trans (List.map_id _)
  have hservice : (constructed align s monotonic).service = epgManagerServiceInit ∨
      (constructed align s monotonic).service = expiredCb epgManagerServiceInit := by
    show (if _ then _ else _) = _ ∨ (if _ then _ else _) = _
    split_ifs
    · exact Or.inr rfl
    · exact Or.inl rfl
  have hheld : (constructed align s monotonic).service.shutdownTimerId = 0 ∨
      (constructed align s monotonic).service.shutdownTimerId ∈
        (constructed align s monotonic).service.timers := by
    rcases hservice with h | h
    · exact Or.inl (congrArg EpgManagerService.shutdownTimerId h)
    · rw [h]
      decide
  refine ⟨he,hb,(constructed_enforced s.manager (clockOf s) s.timer.isSome he).2.1,?_,hids,?_,
    fun hid => ?_,nofun⟩
  · rcases hservice with h | h <;> rw [h]
    · exact Or.inl rfl
    · exact step_tracked epgManagerServiceInit .expired _ (Or.inl rfl) rfl
  · rintro c (hc | hc)
    · obtain ⟨id,-,rfl⟩ := List.mem_map.mp hc
      rcases countdown_cases align monotonic [] id with hold | hnew
      · cases hold
      · rw [hnew]
        exact ⟨le_rfl,gTimeoutAddSeconds_timed halign monotonic id⟩
    · cases hc
  · have hm := hheld.resolve_left hid
    rw [← hids] at hm
    obtain ⟨c,hc,hcid⟩ := List.mem_map.mp hm
    exact ⟨c,Or.inl hc,hcid⟩

def Told (w : System) : Prop :=
  w.manager.emitted = true →
    w.service.shutdownTimerId ≠ 0 ∨ w.manager.manager.expiryTimeSecs = maxWord

theorem quiet_of {effects : List Effect} (hu : effects.any Effect.isExpired = false)
    (hs : effects.any Effect.setsExpiry = false) : effects.all quiet = true := by
  rw [List.all_eq_true]
  intro e he
  have hue := List.any_eq_false.mp hu e he
  have hse := List.any_eq_false.mp hs e he
  cases e with
  | notify p seen => cases p <;> first | rfl | exact absurd rfl hse
  | expired seen => exact absurd rfl hue
  | _ => rfl

theorem hear_told {w : System} {out : Outcome} (hs : Settled w.manager.manager out)
    (ht : Told w) : Told (hear align w (ExpiryTimer.serve w.manager out) out.2) := by
  intro he
  obtain ⟨hset,he⟩ := serve_emitted hs he
  rcases hs.kept hset with hk | hm
  · refine (ht he).imp (fun hid => ?_) hk.trans
    show (handleAll _ _ _).shutdownTimerId ≠ 0
    rw [handleAll_quiet _ _ _ (quiet_of hs.unexpired hset)]
    exact hid
  · exact Or.inr hm

theorem expiredCb_held (s : EpgManagerService) : (expiredCb s).shutdownTimerId ≠ 0 := by
  by_cases hz : s.shutdownTimerId = 0
  · rw [(expiredCb_starts hz).1]
    exact Nat.succ_ne_zero _
  · rw [(expiredCb_declines hz).1]
    exact hz

theorem dispatch_told {w : System} {tm : PeriodicTimer.Timer} (ht : Told w) :
    Told (hear align w (ExpiryTimer.dispatch w.manager tm)
      (checkExpiredCb w.manager.manager (clockOf w.manager)).2) := by
  intro he
  unfold hear
  rcases Bool.or_eq_true_iff.mp he with ho | hx
  · refine (ht ho).imp_left (fun hid => ?_)
    show (handleAll _ _ _).shutdownTimerId ≠ 0
    unfold checkExpiredCb
    split_ifs
    · exact hid
    · exact expiredCb_held _
    · exact hid
  · left
    show (handleAll _ _ _).shutdownTimerId ≠ 0
    unfold checkExpiredCb at hx ⊢
    split_ifs at hx ⊢
    · cases hx
    · exact expiredCb_held _
    · cases hx

theorem step_told {hmac : Hmac} {w w' : System} {op : Operation} (ht : Told w)
    (hs : step hmac align w op = some w') : Told w' := by
  cases op with
  | manager op =>
    simp only [step] at hs
    split_ifs at hs with ha
    obtain ⟨m,hm,rfl⟩ := Option.map_eq_some_iff.mp hs
    cases op with
    | fileLoad file result => cases ha
    | timePasses now wallclock => cases ha
    | addCode codeStr =>
      cases hm
      exact hear_told (addCode_settled hmac w.manager codeStr) ht
    | wallclockTimeChanged delta =>
      cases hm
      exact hear_told (wallclockTimeChanged_settled w.manager delta) ht
    | clearCode =>
      cases hm
      exact hear_told (clearCode_settled w.manager) ht
    | timerDispatch =>
      simp only [ExpiryTimer.step] at hm
      split at hm
      · cases hm
      · split_ifs at hm
        cases hm
        exact dispatch_told ht
  | timePasses awake asleep wallclock =>
    obtain ⟨m,hm,rfl⟩ := Option.map_eq_some_iff.mp hs
    simp only [ExpiryTimer.step] at hm
    split_ifs at hm
    cases hm
    exact ht
  | poweroffDispatch c =>
    simp only [step] at hs
    split_ifs at hs
    cases hs
    exact ht

theorem constructed_told {s : ExpiryTimer.System} (he : s.manager.enabled = true)
    (hn : Noticed s) (monotonic : ℕ) : Told (constructed align s monotonic) := by
  intro hem
  refine (hn hem).imp_left (fun ho => ?_)
  show (if _ then _ else _ : EpgManagerService).shutdownTimerId ≠ 0
  have hx : getExpiryTime s.manager ≤ (clockOf s).time := by
    rw [getExpiryTime,if_pos he]
    exact ho
  rw [if_pos hx]
  exact expiredCb_held _

structure Watching (w : System) : Prop where
  counted : Counted w
  watched : ExpiryTimer.Invariant w.manager
  told : Told w

theorem step_manager {hmac : Hmac} {w w' : System} {op : Operation}
    (hi : ExpiryTimer.Invariant w.manager) (hp : SetsInTime hmac w op)
    (hs : step hmac align w op = some w') : ExpiryTimer.Invariant w'.manager := by
  cases op with
  | manager op =>
    simp only [step] at hs
    split_ifs at hs
    obtain ⟨m,hm,rfl⟩ := Option.map_eq_some_iff.mp hs
    exact ExpiryTimer.step_invariant hmac w.manager m op hi hp hm
  | timePasses awake asleep wallclock =>
    obtain ⟨m,hm,rfl⟩ := Option.map_eq_some_iff.mp hs
    refine ExpiryTimer.step_invariant hmac w.manager m _ hi ⟨fun base span h => ?_,fun h => ?_⟩ hm
    · cases h
    · cases h
  | poweroffDispatch c =>
    simp only [step] at hs
    split_ifs at hs
    cases hs
    exact hi

theorem step_watching (halign : Aligned align) {hmac : Hmac} {w w' : System} {op : Operation}
    (h : Watching w) (hp : SetsInTime hmac w op) (hs : step hmac align w op = some w') :
    Watching w' :=
  ⟨step_counted halign h.counted hs,step_manager h.watched hp hs,step_told h.told hs⟩

theorem watched_emitted {s : ExpiryTimer.System} (h : ExpiryTimer.Invariant s)
    (hidle : ExpiryTimer.idle s = true) (hm : s.manager.expiryTimeSecs ≠ maxWord) {c : ℕ}
    (hc : s.setAt = some c) (hset : c+nsecPerSec ≤ s.now)
    (hlate : (s.manager.expiryTimeSecs.toNat+1)*nsecPerSec ≤ s.now) : s.emitted = true := by
  by_contra he
  obtain ⟨-,tm,t,ht,hpend,-,hhi⟩ := h.watched c hc ((Bool.not_eq_true _).mp he) hm
  rw [Nat.add_mul,Nat.one_mul] at hlate
  have hready := PeriodicTimer.ready_of_pending hpend (show t ≤ s.now by omega)
  simp [ExpiryTimer.idle,ht,hready] at hidle

/-- Where every expiry time is set so that its timer sees it, and no code is cleared
before its credit is gone: when the loop is idle a second after the expiry, a countdown
has been started, and the power-off has been requested if and only if its ten minutes
awake, give or take a second, are over. -/
theorem power_off_follows (hmac : Hmac) (align : ℕ → ℕ) (halign : Aligned align)
    (manager : EpgManager) (now : ℕ) (wallclock : UInt64) (loads : List ExpiryTimer.Operation)
    (s : ExpiryTimer.System) (he : manager.enabled = true) (hb : now < boottimeLimit)
    (hloads : Along (ExpiryTimer.step hmac) (ExpiryTimer.SetsInTime hmac) loads
      (ExpiryTimer.started manager now wallclock))
    (hs : run (ExpiryTimer.step hmac) loads (ExpiryTimer.started manager now wallclock) = some s)
    (monotonic : ℕ) (ops : List Operation) (t : System)
    (hp : Along (step hmac align) (SetsInTime hmac) ops (constructed align s monotonic))
    (hr : run (step hmac align) ops (constructed align s monotonic) = some t) (hidle : Idle t)
    (hm : t.manager.manager.expiryTimeSecs ≠ maxWord) (c : ℕ) (hc : t.manager.setAt = some c)
    (hset : c+nsecPerSec ≤ t.manager.now)
    (hlate : (t.manager.manager.expiryTimeSecs.toNat+1)*nsecPerSec ≤ t.manager.now) :
    ∃ d, d.id = t.service.shutdownTimerId ∧ d.started ≤ t.monotonic ∧ Timed d ∧
      (d ∈ t.countdowns ∧ t.monotonic < d.due ∨ d ∈ t.requested ∧ d.due ≤ t.monotonic) := by
  have hstart : ExpiryTimer.Invariant (ExpiryTimer.started manager now wallclock) :=
    ⟨he,hb,fun c hc => by cases hc⟩
  have hinv : ExpiryTimer.Invariant s :=
    run_invariant_along (fun u op u' => ExpiryTimer.step_invariant hmac u u' op) hstart hloads hs
  have hnoticed : Noticed s :=
    run_invariant (I := Noticed) (fun _ _ _ h hs => step_noticed h hs) (fun h => by cases h) hs
  have h : Watching t :=
    run_invariant_along (fun _ _ _ h hp hs => step_watching halign h hp hs)
      ⟨constructed_counted halign hinv.enabled hinv.bounded monotonic,hinv,
        constructed_told hinv.enabled hnoticed monotonic⟩ hp hr
  have hemitted := watched_emitted h.watched hidle.1 hm hc hset hlate
  obtain ⟨d,hd,hid⟩ := h.counted.kept ((h.told hemitted).resolve_right hm)
  obtain ⟨hle,htimed⟩ := h.counted.timed d hd
  exact ⟨d,hid,hle,htimed,
    hd.imp (fun hd => ⟨hd,hidle.2 d hd⟩) (fun hd => ⟨hd,h.counted.fired d hd⟩)⟩

def tenSeconds : List ExpiryTimer.Operation := [.fileLoad .expirySeconds (.contents (wordBytes 10))]

def ranOut : List Operation :=
  [.timePasses 10000000000 0 5010, .manager .timerDispatch, .timePasses 600000000000 0 5610]

def firstCountdown : Countdown := ⟨1, 110000000000, 710000000000⟩

theorem id_aligned : Aligned id := fun _ => ⟨Nat.le_add_right _ _,Nat.le_add_right _ _⟩

theorem power_off_follows_example :
    ∃ s t, run (ExpiryTimer.step zeroHmac) tenSeconds
        (ExpiryTimer.started ExpiryTimer.halfLoaded 100000000000 5000) = some s ∧
      run (step zeroHmac id) (ranOut++[.poweroffDispatch firstCountdown])
        (constructed id s 100000000000) = some t ∧
      ∃ d, d.id = t.service.shutdownTimerId ∧ d.started ≤ t.monotonic ∧ Timed d ∧
        (d ∈ t.countdowns ∧ t.monotonic < d.due ∨ d ∈ t.requested ∧ d.due ≤ t.monotonic) := by
  have hsetting : ExpiryTimer.setting zeroHmac
      (ExpiryTimer.started ExpiryTimer.halfLoaded 100000000000 5000)
      (.fileLoad .expirySeconds (.contents (wordBytes 10))) = some (100,10) := by decide +kernel
  have hloads : Along (ExpiryTimer.step zeroHmac) (ExpiryTimer.SetsInTime zeroHmac) tenSeconds
      (ExpiryTimer.started ExpiryTimer.halfLoaded 100000000000 5000) := by
    refine ⟨⟨fun base span h => ?_,fun h => ?_⟩,fun _ _ => trivial⟩
    · rw [hsetting] at h
      cases h
      exact Or.inr ⟨by decide,1,by decide,by decide,by decide⟩
    · cases h
  obtain ⟨s,hs⟩ := Option.isSome_iff_exists.mp (show (run (ExpiryTimer.step zeroHmac) tenSeconds
    (ExpiryTimer.started ExpiryTimer.halfLoaded 100000000000 5000)).isSome by decide +kernel)
  have hdata : (run (ExpiryTimer.step zeroHmac) tenSeconds
      (ExpiryTimer.started ExpiryTimer.halfLoaded 100000000000 5000)).bind (fun s =>
        (run (step zeroHmac id) (ranOut++[.poweroffDispatch firstCountdown])
          (constructed id s 100000000000)).map (fun t => (ExpiryTimer.idle t.manager,t.countdowns,
            t.manager.manager.expiryTimeSecs,t.manager.setAt,t.manager.now))) =
      some (true,[],110,some 100000000000,710000000000) := by decide +kernel
  rw [hs] at hdata
  obtain ⟨t,ht,hd⟩ := Option.map_eq_some_iff.mp hdata
  obtain ⟨hidle,hd⟩ := Prod.ext_iff.mp hd
  obtain ⟨hnone,hd⟩ := Prod.ext_iff.mp hd
  obtain ⟨hexpiry,hd⟩ := Prod.ext_iff.mp hd
  obtain ⟨hset,hnow⟩ := Prod.ext_iff.mp hd
  simp only at hidle hnone hexpiry hset hnow
  have hp : Along (step zeroHmac id) (SetsInTime zeroHmac)
      (ranOut++[.poweroffDispatch firstCountdown]) (constructed id s 100000000000) := by
    refine ⟨trivial,fun _ _ => ⟨⟨fun base span h => ?_,fun h => ?_⟩,fun _ _ =>
      ⟨trivial,fun _ _ => ⟨trivial,fun _ _ => trivial⟩⟩⟩⟩
    · cases h
    · cases h
  refine ⟨s,t,hs,ht,power_off_follows zeroHmac id id_aligned ExpiryTimer.halfLoaded 100000000000 5000
    tenSeconds s rfl (by decide) hloads hs 100000000000 _ t hp ht ⟨hidle,?_⟩ ?_ 100000000000 hset
    ?_ ?_⟩
  · rw [hnone]
    exact fun c hc => by cases hc
  · rw [hexpiry]
    decide
  · rw [hnow]
    decide
  · rw [hexpiry,hnow]
    decide

theorem step_monotonic {hmac : Hmac} {w w' : System} {op : Operation}
    (hs : step hmac align w op = some w') : w.monotonic ≤ w'.monotonic ∧
      ∀ c ∈ w'.countdowns, c ∈ w.countdowns ∨ c.started = w.monotonic := by
  cases op with
  | manager op =>
    simp only [step] at hs
    split_ifs at hs
    obtain ⟨m,-,rfl⟩ := Option.map_eq_some_iff.mp hs
    refine ⟨le_rfl,fun c hc => ?_⟩
    obtain ⟨id,-,rfl⟩ := List.mem_map.mp hc
    refine (countdown_cases align w.monotonic w.countdowns id).imp_right (fun hnew => ?_)
    rw [hnew]
    rfl
  | timePasses awake asleep wallclock =>
    obtain ⟨m,-,rfl⟩ := Option.map_eq_some_iff.mp hs
    exact ⟨Nat.le_add_right _ _,fun c hc => Or.inl hc⟩
  | poweroffDispatch c =>
    simp only [step] at hs
    split_ifs at hs
    cases hs
    exact ⟨le_rfl,fun d hd => Or.inl (List.mem_of_mem_erase hd)⟩

theorem run_ran {hmac : Hmac} {u t : System} {ops : List Operation}
    (hr : run (step hmac align) ops u = some t) {c : Countdown} (hc : c ∈ t.countdowns)
    (hlt : c.started < u.monotonic) : c ∈ u.countdowns := by
  have h : u.monotonic ≤ t.monotonic ∧
      ∀ c ∈ t.countdowns, c ∈ u.countdowns ∨ u.monotonic ≤ c.started := by
    refine run_invariant (I := fun t => u.monotonic ≤ t.monotonic ∧
      ∀ c ∈ t.countdowns, c ∈ u.countdowns ∨ u.monotonic ≤ c.started) ?_
      ⟨le_rfl,fun c hc => Or.inl hc⟩ hr
    rintro v op v' ⟨hle,hv⟩ hs
    obtain ⟨hmono,hnew⟩ := step_monotonic hs
    refine ⟨hle.trans hmono,fun c hc => ?_⟩
    rcases hnew c hc with hold | hst
    · exact hv c hold
    · exact Or.inr (hst ▸ hle)
  exact (h.2 c hc).resolve_right (Nat.not_le.mpr hlt)

theorem ran_out {w : System} (h : Counted w) {c : Countdown} (hc : c ∈ w.countdowns) :
    OutOfCredit w.manager := by
  have hm : c.id ∈ w.service.timers := h.ids ▸ List.mem_map_of_mem hc
  exact h.out (timerFires_tracked h.tracked hm).1

/-- However an enabled manager is used, a power-off is only requested ten minutes awake,
give or take a second, after its countdown was started, and there was no credit at any
moment in between. -/
theorem ten_minutes_given (hmac : Hmac) (align : ℕ → ℕ) (halign : Aligned align)
    (s : ExpiryTimer.System) (he : s.manager.enabled = true) (hb : s.now < boottimeLimit)
    (monotonic : ℕ) (before after : List Operation) (u t t' : System)
    (hu : run (step hmac align) before (constructed align s monotonic) = some u)
    (ht : run (step hmac align) after u = some t) (c : Countdown)
    (hs : step hmac align t (.poweroffDispatch c) = some t') :
    c.started+599*nsecPerSec ≤ t.monotonic ∧ OutOfCredit t.manager ∧
      (c.started < u.monotonic → OutOfCredit u.manager) := by
  have hcu : Counted u :=
    run_invariant (fun _ _ _ h hs => step_counted halign h hs)
      (constructed_counted halign he hb monotonic) hu
  have hct : Counted t := run_invariant (fun _ _ _ h hs => step_counted halign h hs) hcu ht
  simp only [step] at hs
  split_ifs at hs with hc
  exact ⟨(hct.timed c (Or.inl hc.1)).2.1.trans hc.2,ran_out hct hc.1,
    fun hlt => ran_out hcu (run_ran ht hc.1 hlt)⟩

theorem ten_minutes_given_example :
    ∃ u t, run (step zeroHmac id) [.manager .timerDispatch]
        (constructed id ⟨{ freshManager with expiryTimeSecs := 110 }, 110000000000, 5000,
          some (PeriodicTimer.arm 100000000000 10000000000), none, false⟩ 110000000000) = some u ∧
      run (step zeroHmac id) [.timePasses 600000000000 0 5610] u = some t ∧
      (step zeroHmac id t (.poweroffDispatch firstCountdown)).isSome ∧
      firstCountdown.started+599*nsecPerSec ≤ t.monotonic ∧ OutOfCredit t.manager := by
  have hall : (run (step zeroHmac id) ([.manager .timerDispatch]++
      ([.timePasses 600000000000 0 5610]++[.poweroffDispatch firstCountdown]))
      (constructed id ⟨{ freshManager with expiryTimeSecs := 110 }, 110000000000, 5000,
        some (PeriodicTimer.arm 100000000000 10000000000), none, false⟩ 110000000000)).isSome := by
    decide +kernel
  obtain ⟨t',hrun⟩ := Option.isSome_iff_exists.mp hall
  obtain ⟨u,hu,hrest⟩ := run_append_some.mp hrun
  obtain ⟨t,ht,hs⟩ := run_snoc.mp hrest
  obtain ⟨htime,hout,-⟩ := ten_minutes_given zeroHmac id id_aligned _ rfl (by decide) 110000000000
    _ _ u t t' hu ht firstCountdown hs
  exact ⟨u,t,hu,ht,by rw [hs]; rfl,htime,hout⟩

end EosPayg.PowerOff
