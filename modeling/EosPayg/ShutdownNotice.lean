import EosPayg.ManagerService

/-!
# What the bus is told about an impending shutdown

A client that follows the signals counts down when it is told that credit has expired
and stops when it is told that credit was extended. It is always where the service is.
-/

set_option autoImplicit false

namespace EosPayg.ShutdownNotice
open EosPayg.PaygCodes EosPayg.ManagerState EosPayg.ManagerCode EosPayg.ManagerService
  EosPayg.GuardedRun

inductive Listener where
  | idle
  | expired
  | countingDown
  deriving DecidableEq

def listen : Listener → Signal → Option Listener
  | .idle, .expired => some .expired
  | .expired, .impendingShutdown 600 "PAYG credit expired" => some .countingDown
  | .countingDown, .expired => some .countingDown
  | .countingDown, .impendingShutdown (-1) "PAYG credit extended" => some .idle
  | _, _ => none

def listener (service : EpgManagerService) : Listener :=
  if service.shutdownTimerId = 0 then .idle else .countingDown

/-- Who heard everything knows whether a timer was started that was not cancelled. -/
def Told (service : EpgManagerService) : Prop :=
  run listen service.emitted .idle = some (listener service)

theorem told_of_eq {s t : EpgManagerService} (h : Told s)
    (hi : t.shutdownTimerId = s.shutdownTimerId) (he : t.emitted = s.emitted) : Told t := by
  unfold Told listener
  rw [he,hi]
  exact h

theorem expiredCb_told {s : EpgManagerService} (h : Told s) : Told (expiredCb s) := by
  by_cases hz : s.shutdownTimerId = 0
  · have hidle : run listen s.emitted .idle = some .idle := h.trans (by rw [listener,if_pos hz])
    have he : (expiredCb s).emitted = s.emitted++[.expired]++[.impendingShutdown 600
        "PAYG credit expired"] := by
      simp [expiredCb,hz,timeoutPoweroffNoCreditMinutes]
    have hid : (expiredCb s).shutdownTimerId = s.lastSourceId+1 := by simp [expiredCb,hz]
    have hl : listener (expiredCb s) = .countingDown := if_neg (by omega)
    rw [Told,hl,he,run_snoc]
    exact ⟨.expired,run_snoc.mpr ⟨.idle,hidle,rfl⟩,rfl⟩
  · have hcount : run listen s.emitted .idle = some .countingDown :=
      h.trans (by rw [listener,if_neg hz])
    have he : expiredCb s = { s with emitted := s.emitted++[.expired] } := by simp [expiredCb,hz]
    have hl : listener (expiredCb s) = .countingDown := by
      rw [he]
      exact if_neg hz
    rw [Told,hl,he]
    exact run_snoc.mpr ⟨.countingDown,hcount,rfl⟩

theorem notifyExpiryTimeCb_told {s : EpgManagerService} (h : Told s) (seen : Published)
    (currentTime : UInt64) : Told (notifyExpiryTimeCb s seen currentTime) := by
  unfold notifyExpiryTimeCb
  by_cases hz : s.shutdownTimerId = 0
  · rw [if_pos hz]
    exact h
  · have hcount : run listen s.emitted .idle = some .countingDown :=
      h.trans (by rw [listener,if_neg hz])
    rw [if_neg hz]
    by_cases hc : seen.expiryTime = 0 ∨ seen.expiryTime > currentTime
    · rw [if_pos hc]
      exact run_snoc.mpr ⟨.countingDown,hcount,rfl⟩
    · rw [if_neg hc]
      exact h

theorem handleAll_told {s : EpgManagerService} (h : Told s) (currentTime : UInt64)
    (effects : List Effect) : Told (handleAll currentTime effects s) := by
  induction effects generalizing s with
  | nil => exact h
  | cons e effects ih =>
    refine ih (s := handle currentTime s e) ?_
    unfold handle
    split
    · exact expiredCb_told h
    · exact notifyExpiryTimeCb_told h _ currentTime
    · exact h

theorem serve_told {s : System} (h : Told s.service) (out : Outcome) :
    Told (serve s out).service :=
  handleAll_told (s := { s.service with cancelled := [] }) (told_of_eq h rfl rfl) s.clock.time out.2

theorem step_told {hmac : Hmac} {s s' : System} {op : Operation} (h : Told s.service)
    (hs : step hmac s op = some s') : Told s'.service := by
  cases op with
  | addCode codeStr =>
    cases hs
    exact serve_told h _
  | clearCode =>
    cases hs
    exact serve_told h _
  | wallclockTimeChanged delta =>
    cases hs
    exact serve_told h _
  | timePasses clock =>
    simp only [step] at hs
    split_ifs at hs
    cases hs
    exact told_of_eq h rfl rfl
  | expiryDispatch =>
    simp only [step] at hs
    split_ifs at hs
    cases hs
    exact serve_told h _
  | poweroffDispatch id =>
    simp only [step] at hs
    split_ifs at hs
    cases hs
    exact told_of_eq h rfl rfl

/-- Whatever is called and dispatched, and in which order, the signals on the bus follow
their protocol: a shutdown is announced with ten minutes to go right after the signal
that credit has expired, not announced again before it is called off, and called off
only when it was announced. At every moment a client that heard them counts down if and
only if the service holds the id of a shutdown timer. -/
theorem notices_follow_timer (hmac : Hmac) (manager : EpgManager) (clock : EpgClock)
    (attached : Bool) (ops : List Operation) (t : System)
    (hr : run (step hmac) ops (constructed manager clock attached) = some t) :
    run listen t.service.emitted .idle =
      some (if t.service.shutdownTimerId = 0 then .idle else .countingDown) := by
  have hinit : Told epgManagerServiceInit := rfl
  have hstart : Told (constructed manager clock attached).service := by
    show Told (if getExpiryTime manager ≤ clock.time then _ else _)
    split_ifs
    · exact expiredCb_told hinit
    · exact hinit
  exact run_invariant (I := fun s => Told s.service) (fun _ _ _ h hs => step_told h hs) hstart hr

def lastSeconds : List Operation :=
  [.addCode fiveSeconds, .timePasses ⟨2010, 5010, true⟩, .expiryDispatch,
    .clearCode]

theorem notices_follow_timer_example :
    ∃ t, run (step zeroHmac) lastSeconds
        (constructed freshManager ⟨2000, 5000, true⟩ false) = some t ∧
      t.service.emitted.length = 6 ∧ (run listen t.service.emitted .idle).isSome := by
  obtain ⟨t,ht⟩ := Option.isSome_iff_exists.mp (show (run (step zeroHmac) lastSeconds
    (constructed freshManager ⟨2000, 5000, true⟩ false)).isSome by decide +kernel)
  have hd : (run (step zeroHmac) lastSeconds (constructed freshManager ⟨2000, 5000, true⟩ false)).map
      (fun t => t.service.emitted.length) = some 6 := by decide +kernel
  rw [ht] at hd
  refine ⟨t,ht,Option.some.inj hd,?_⟩
  rw [notices_follow_timer zeroHmac freshManager ⟨2000, 5000, true⟩ false lastSeconds t ht]
  rfl

end EosPayg.ShutdownNotice
