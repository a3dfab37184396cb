import EosPayg.ManagerCode
import EosPayg.GuardedRun

/-!
# The bus service and its shutdown timer

The service is called back synchronously for every signal the manager emits.
It keeps the id of the shutdown timer it started last; the ids of the timers
that still run, and of those the last operation removed before they fired,
belong to the main loop.
-/

set_option autoImplicit false

namespace EosPayg.ManagerService
open EosPayg.WordArithmetic EosPayg.PaygCodes EosPayg.ManagerState EosPayg.ManagerCode
  EosPayg.GuardedRun

inductive Signal where
  | expired
  | impendingShutdown (seconds : ℤ) (reason : String)
  deriving DecidableEq, Repr

structure EpgManagerService where
  shutdownTimerId : ℕ
  lastSourceId : ℕ
  timers : List ℕ
  cancelled : List ℕ
  emitted : List Signal
  deriving DecidableEq

def epgManagerServiceInit : EpgManagerService := ⟨0, 0, [], [], []⟩

def timeoutPoweroffNoCreditMinutes : ℕ := 10

def expiredCb (self : EpgManagerService) : EpgManagerService :=
  let told := { self with emitted := self.emitted ++ [.expired] }
  if self.shutdownTimerId ≠ 0 then told
  else
    { told with
      shutdownTimerId := self.lastSourceId+1
      lastSourceId := self.lastSourceId+1
      timers := (self.lastSourceId+1)::self.timers
      emitted := told.emitted ++ [.impendingShutdown (60*timeoutPoweroffNoCreditMinutes)
        "PAYG credit expired"] }

/-- An expiry time of zero is taken to mean that the provider is disabled. -/
def notifyExpiryTimeCb (self : EpgManagerService) (seen : Published) (currentTime : UInt64) :
    EpgManagerService :=
  if self.shutdownTimerId = 0 then self
  else if seen.expiryTime = 0 ∨ seen.expiryTime > currentTime then
    { self with
      shutdownTimerId := 0
      timers := self.timers.erase self.shutdownTimerId
      cancelled := if self.shutdownTimerId ∈ self.timers then
        self.shutdownTimerId::self.cancelled else self.cancelled
      emitted := self.emitted ++ [.impendingShutdown (-1) "PAYG credit extended"] }
  else self

def handle (currentTime : UInt64) (self : EpgManagerService) : Effect → EpgManagerService
  | .expired _ => expiredCb self
  | .notify .expiryTime seen => notifyExpiryTimeCb self seen currentTime
  | _ => self

def handleAll (currentTime : UInt64) (effects : List Effect) (self : EpgManagerService) :
    EpgManagerService :=
  effects.foldl (handle currentTime) self

/-- The manager, its service, the readings of the moment and whether the
source that checks for expiry is still attached. -/
structure System where
  manager : EpgManager
  service : EpgManagerService
  clock : EpgClock
  expiryAttached : Bool
  deriving DecidableEq

def attachedAfter (attached : Bool) (effects : List Effect) : Bool :=
  effects.foldl (fun b e => match e with
    | .sourceAttach _ => true
    | .sourceDestroy => false
    | _ => b) attached

inductive Operation where
  | addCode (codeStr : List UInt8)
  | clearCode
  | wallclockTimeChanged (delta : Int64)
  | timePasses (clock : EpgClock)
  | expiryDispatch
  | poweroffDispatch (id : ℕ)
  deriving DecidableEq

def serve (s : System) (out : Outcome) : System where
  manager := out.1
  service := handleAll s.clock.time out.2 { s.service with cancelled := [] }
  clock := s.clock
  expiryAttached := attachedAfter s.expiryAttached out.2

def step (hmac : Hmac) (s : System) : Operation → Option System
  | .addCode codeStr => some (serve s (addCode hmac s.manager s.clock codeStr).2)
  | .clearCode => some (serve s (clearCode s.manager s.clock).2)
  | .wallclockTimeChanged delta => some (serve s (wallclockTimeChanged s.manager s.clock delta))
  | .timePasses clock =>
    if s.clock.time ≤ clock.time then
      some { s with clock := clock, service := { s.service with cancelled := [] } }
    else none
  | .expiryDispatch =>
    if s.expiryAttached then
      some { serve s (s.manager,(checkExpiredCb s.manager s.clock).2) with
        expiryAttached := (checkExpiredCb s.manager s.clock).1 }
    else none
  | .poweroffDispatch id =>
    if id ∈ s.service.timers then
      some { s with
        service := { s.service with timers := s.service.timers.erase id, cancelled := [] } }
    else none

def constructed (manager : EpgManager) (clock : EpgClock) (attached : Bool) : System where
  manager := manager
  service :=
    if getExpiryTime manager ≤ clock.time then expiredCb epgManagerServiceInit
    else epgManagerServiceInit
  clock := clock
  expiryAttached := attached

/-- The two ways to write a zero expiry time while a countdown runs: a code
cleared before its credit was, and a forward jump in the first second after
boot for which no timer could be had. -/
def ZeroesExpiry (s : System) : Operation → Prop
  | .clearCode => s.manager.cancelled = false ∧ s.manager.expiryTimeSecs ≠ 0 ∧
      s.service.shutdownTimerId ∈ s.service.timers
  | .wallclockTimeChanged delta => 0 < delta ∧ s.clock.time = 0 ∧
      s.manager.expiryTimeSecs ≠ 0 ∧ s.clock.sourceNewSeconds = false
  | _ => False

instance (s : System) (op : Operation) : Decidable (ZeroesExpiry s op) :=
  match op with
  | .clearCode => inferInstanceAs (Decidable (_ ∧ _))
  | .wallclockTimeChanged _ => inferInstanceAs (Decidable (_ ∧ _))
  | .addCode _ => isFalse id
  | .timePasses _ => isFalse id
  | .expiryDispatch => isFalse id
  | .poweroffDispatch _ => isFalse id

/-- A countdown is only remembered while nothing is left, and a timer is
removed only when there is credit. -/
def Fine (service : EpgManagerService) (now expiry : UInt64) : Prop :=
  (service.shutdownTimerId ≠ 0 → expiry ≤ now) ∧ (service.cancelled ≠ [] → now < expiry)

def Enforced (s : System) : Prop :=
  s.manager.enabled = true ∧ Fine s.service s.clock.time s.manager.expiryTimeSecs

theorem handleAll_append (now : UInt64) (xs ys : List Effect) (s : EpgManagerService) :
    handleAll now (xs ++ ys) s = handleAll now ys (handleAll now xs s) :=
  List.foldl_append

def quiet : Effect → Bool
  | .expired _ => false
  | .notify .expiryTime _ => false
  | _ => true

theorem handleAll_quiet (now : UInt64) (effects : List Effect) (s : EpgManagerService)
    (h : effects.all quiet = true) : handleAll now effects s = s := by
  induction effects generalizing s with
  | nil => rfl
  | cons e es ih =>
    obtain ⟨he,hes⟩ := Bool.and_eq_true_iff.mp h
    have hs : handle now s e = s := by
      cases e with
      | notify p seen => cases p <;> first | rfl | cases he
      | expired seen => cases he
      | _ => rfl
    show handleAll now es (handle now s e) = s
    rw [hs,ih s hes]

theorem expiredCb_fine (s : EpgManagerService) (now expiry : UInt64) (hc : s.cancelled = [])
    (hx : expiry ≤ now) : Fine (expiredCb s) now expiry := by
  refine ⟨fun _ => hx,fun h => absurd ?_ h⟩
  unfold expiredCb
  split_ifs <;> exact hc

theorem notifyExpiryTimeCb_fine (s : EpgManagerService) (seen : Published) (now : UInt64)
    (hc : s.cancelled = [])
    (hx : seen.expiryTime ≠ 0 ∨ s.shutdownTimerId = 0 ∨ s.shutdownTimerId ∉ s.timers) :
    Fine (notifyExpiryTimeCb s seen now) now seen.expiryTime := by
  unfold notifyExpiryTimeCb
  by_cases hi : s.shutdownTimerId = 0
  · rw [if_pos hi]
    exact ⟨fun h => absurd hi h,fun h => absurd hc h⟩
  · rw [if_neg hi]
    by_cases hs : seen.expiryTime = 0 ∨ seen.expiryTime > now
    · rw [if_pos hs]
      refine ⟨fun h => absurd rfl h,fun h => ?_⟩
      by_cases ht : s.shutdownTimerId ∈ s.timers
      · rcases hs with hz | hz
        · exact absurd ht (by simpa [hz,hi] using hx)
        · exact hz
      · simp [ht,hc] at h
    · rw [if_neg hs]
      exact ⟨fun _ => UInt64.not_lt.mp (fun h => hs (Or.inr h)),fun h => absurd hc h⟩

theorem armExpiryTimer_effects (clock : EpgClock) (base span : UInt64) (m : EpgManager)
    (hm : m.expiryTimeSecs = saturatingAdd base span) :
    (armExpiryTimer clock base m).2.all quiet = true ∨
      ((∃ seen, (armExpiryTimer clock base m).2 = [.expired seen]) ∧
        clock.sourceNewSeconds = false ∧ expiryAfter clock base span ≤ clock.time) := by
  unfold armExpiryTimer checkExpiredCb expiryAfter
  rw [hm]
  by_cases hs : saturatingAdd base span ≠ maxWord
  · cases hk : clock.sourceNewSeconds with
    | true => simp [hs,quiet]
    | false =>
      by_cases he : m.enabled = false
      · simp [hs,he]
      · by_cases hb : base ≤ clock.time
        · simp [hs,he,hb]
        · simp [hs,he,hb]
  · simp [hs]

theorem internalSave_quiet (m : EpgManager) (clock : EpgClock) (task : Bool) :
    (internalSave m clock task).2.all quiet = true := by
  cases task <;> rfl

theorem clearExpiryTimer_quiet (m : EpgManager) :
    (clearExpiryTimer m).2.all quiet = true := by
  unfold clearExpiryTimer
  split <;> rfl

theorem expiredCb_cancelled (s : EpgManagerService) : (expiredCb s).cancelled = s.cancelled := by
  unfold expiredCb
  split_ifs <;> rfl

theorem announceExpiryTime_heard (m : EpgManager) (clock : EpgClock) (old : UInt64)
    (s : EpgManagerService) (he : m.enabled = true) :
    handleAll clock.time (announceExpiryTime clock false false old m).2 s =
      if old ≠ m.expiryTimeSecs then notifyExpiryTimeCb s (published m) clock.time else s := by
  unfold announceExpiryTime
  by_cases ho : old ≠ m.expiryTimeSecs
  · rw [if_pos ⟨ho,he⟩,if_pos ho]
    rfl
  · rw [if_neg (fun h => ho h.1),if_neg ho]
    rfl

theorem setExpiryTime_fine (m : EpgManager) (clock : EpgClock) (base span : UInt64)
    (s : EpgManagerService) (he : m.enabled = true) (hc : s.cancelled = [])
    (hf : Fine s clock.time m.expiryTimeSecs)
    (hx : expiryAfter clock base span ≠ 0 ∨
      m.expiryTimeSecs = expiryAfter clock base span ∨
      (s.shutdownTimerId = 0 ∧ clock.sourceNewSeconds = true)) :
    Fine (handleAll clock.time (setExpiryTime m clock false false base span).2 s) clock.time
      (expiryAfter clock base span) := by
  let m1 := (clearExpiryTimer { m with expiryTimeSecs := saturatingAdd base span }).1
  let m2 := (armExpiryTimer clock base m1).1
  let s1 := handleAll clock.time (armExpiryTimer clock base m1).2 s
  have hx1 : m1.expiryTimeSecs = saturatingAdd base span := by simp [m1]
  have hm2 : m2 = { m1 with
      expiryTimeSecs := expiryAfter clock base span
      expiry := timerAfter clock base span } :=
    armExpiryTimer_state m1 clock base span hx1 (by simp [m1])
  have he2 : m2.enabled = true := by rw [hm2]; simpa [m1] using he
  have hseen : (published m2).expiryTime = expiryAfter clock base span := by
    show getExpiryTime m2 = _
    rw [getExpiryTime,if_pos he2,hm2]
  have hall : handleAll clock.time (setExpiryTime m clock false false base span).2 s =
      if m.expiryTimeSecs ≠ expiryAfter clock base span then
        notifyExpiryTimeCb s1 (published m2) clock.time else s1 := by
    show handleAll clock.time (((clearExpiryTimer _).2 ++ (armExpiryTimer clock base m1).2) ++
      (announceExpiryTime clock false false m.expiryTimeSecs m2).2) s = _
    rw [handleAll_append,handleAll_append,handleAll_quiet _ _ _ (clearExpiryTimer_quiet _),
      announceExpiryTime_heard m2 clock _ s1 he2]
    simp only [hm2]
  have harm := armExpiryTimer_effects clock base span m1 hx1
  have hs1 : s1.cancelled = [] := by
    rcases harm with hq | ⟨⟨seen,hq⟩,-,-⟩
    · show (handleAll clock.time _ s).cancelled = []
      rw [handleAll_quiet _ _ _ hq,hc]
    · show (handleAll clock.time _ s).cancelled = []
      rw [hq]
      exact (expiredCb_cancelled s).trans hc
  rw [hall]
  by_cases ho : m.expiryTimeSecs ≠ expiryAfter clock base span
  · rw [if_pos ho,← hseen]
    apply notifyExpiryTimeCb_fine s1 _ _ hs1
    rcases hx with h | h | ⟨hi,hk⟩
    · exact Or.inl (by rwa [hseen])
    · exact absurd h ho
    · rcases harm with hq | ⟨-,hk',-⟩
      · have hs : s1 = s := handleAll_quiet _ _ _ hq
        exact Or.inr (Or.inl (by rw [hs,hi]))
      · rw [hk] at hk'
        cases hk'
  · rw [if_neg ho]
    rcases harm with hq | ⟨⟨seen,hq⟩,-,hle⟩
    · have hs : s1 = s := handleAll_quiet _ _ _ hq
      rw [hs,← not_not.mp ho]
      exact hf
    · have hs : s1 = expiredCb s := by
        show handleAll clock.time _ s = _
        rw [hq]
        rfl
      rw [hs]
      exact expiredCb_fine s _ _ hc hle

theorem attempt_enforced (hmac : Hmac) (s : System) (codeStr : List UInt8) (h : Enforced s) :
    Enforced (serve s (addCode hmac s.manager s.clock codeStr).2) := by
  obtain ⟨he,hf⟩ := h
  have hf0 : Fine { s.service with cancelled := [] } s.clock.time s.manager.expiryTimeSecs :=
    ⟨hf.1,fun hc => absurd rfl hc⟩
  cases hk : acceptedCode hmac s.manager s.clock codeStr with
  | none =>
    have hm := (addCode_refused hmac s.manager s.clock codeStr hk).2
    have hq : (addCode hmac s.manager s.clock codeStr).2.2.all quiet = true := by
      rcases addCode_refused_effects hmac s.manager s.clock codeStr hk with hh | hh <;>
        rw [hh] <;> rfl
    rw [if_pos he] at hm
    unfold Enforced serve
    rw [handleAll_quiet _ _ _ hq,hm]
    exact ⟨he,hf0⟩
  | some used =>
    have hm := addCode_accepted_state hmac s.manager s.clock codeStr used hk
    have heff := congrArg (fun r => r.2.2) (addCode_accepted hmac s.manager s.clock codeStr used hk)
    let marked : EpgManager := { recordAttempt s.manager s.clock.time with
      usedCodes := gArraySort (s.manager.usedCodes.codes ++ [used]) }
    let out := setExpiryTime marked s.clock false false (baseSecs s.manager s.clock.time)
      (spanSecs used.period)
    have hheard : handleAll s.clock.time (addCode hmac s.manager s.clock codeStr).2.2
        { s.service with cancelled := [] } =
        handleAll s.clock.time out.2 { s.service with cancelled := [] } := by
      have hsplit : (addCode hmac s.manager s.clock codeStr).2.2 =
          (out.2 ++ (clearRateLimiting out.1).2) ++
            (internalSave (clearRateLimiting out.1).1 s.clock false).2 := heff
      have hq : (clearRateLimiting out.1).2.all quiet = true := by
        unfold clearRateLimiting
        split_ifs <;> rfl
      rw [hsplit,handleAll_append,handleAll_append,handleAll_quiet _ _ _ hq,
        handleAll_quiet _ _ _ (internalSave_quiet _ _ _)]
    unfold Enforced serve
    rw [hm,hheard]
    refine ⟨he,setExpiryTime_fine marked s.clock _ _ _ he rfl hf0 ?_⟩
    by_cases hz : expiryAfter s.clock (baseSecs s.manager s.clock.time) (spanSecs used.period) = 0
    · have hge := expiryAfter_ge s.clock (baseSecs s.manager s.clock.time) (spanSecs used.period)
      have hb : s.manager.expiryTimeSecs.toNat ≤ (baseSecs s.manager s.clock.time).toNat := by
        unfold baseSecs
        split_ifs with hlt
        · exact le_rfl
        · exact UInt64.le_iff_toNat_le.mp (UInt64.not_lt.mp hlt)
      rw [hz,UInt64.toNat_zero] at hge
      right
      left
      show s.manager.expiryTimeSecs = _
      rw [hz,word_ext_iff,UInt64.toNat_zero]
      omega
    · exact Or.inl hz

theorem jump_enforced (s : System) (delta : Int64) (h : Enforced s)
    (hp : ¬ ZeroesExpiry s (.wallclockTimeChanged delta)) :
    Enforced (serve s (wallclockTimeChanged s.manager s.clock delta)) := by
  obtain ⟨he,hf⟩ := h
  have hf0 : Fine { s.service with cancelled := [] } s.clock.time s.manager.expiryTimeSecs :=
    ⟨hf.1,fun hc => absurd rfl hc⟩
  have hm := wallclockTimeChanged_state s.manager s.clock delta
  unfold Enforced serve
  rw [hm]
  by_cases hz : delta = 0
  · rw [if_pos hz]
    refine ⟨he,?_⟩
    simpa [wallclockTimeChanged,hz,handleAll] using hf0
  · rw [if_neg hz]
    by_cases hd : 0 < delta ∧ s.clock.time < s.manager.expiryTimeSecs
    · rw [if_pos hd]
      have hheard : handleAll s.clock.time (wallclockTimeChanged s.manager s.clock delta).2
          { s.service with cancelled := [] } = handleAll s.clock.time
          (setExpiryTime s.manager s.clock false false s.clock.time
            (spanAfterJump s.manager s.clock delta.toUInt64)).2
          { s.service with cancelled := [] } := by
        unfold wallclockTimeChanged
        rw [if_neg hz,if_pos hd.1,andThen_effects,consumeJump_eq,if_pos hd.2,handleAll_append,
          handleAll_quiet _ _ _ (internalSave_quiet _ _ _)]
      rw [hheard]
      refine ⟨he,setExpiryTime_fine s.manager s.clock _ _ _ he rfl hf0 ?_⟩
      have hlt := UInt64.lt_iff_toNat_lt.mp hd.2
      have hid : s.service.shutdownTimerId = 0 := by
        by_contra hi
        have := UInt64.le_iff_toNat_le.mp (hf.1 hi)
        omega
      by_cases hk : s.clock.sourceNewSeconds = true
      · exact Or.inr (Or.inr ⟨hid,hk⟩)
      · left
        intro hx
        have hge := expiryAfter_ge s.clock s.clock.time
          (spanAfterJump s.manager s.clock delta.toUInt64)
        rw [hx,UInt64.toNat_zero] at hge
        apply hp
        refine ⟨hd.1,?_,?_,by simpa using hk⟩
        · rw [word_ext_iff,UInt64.toNat_zero]
          omega
        · rw [word_ne_iff,UInt64.toNat_zero]
          omega
    · rw [if_neg hd]
      have hq : (wallclockTimeChanged s.manager s.clock delta).2.all quiet = true := by
        unfold wallclockTimeChanged
        rw [if_neg hz]
        by_cases hpos : 0 < delta
        · rw [if_pos hpos,consumeJump_eq,if_neg (fun ht => hd ⟨hpos,ht⟩)]
          exact internalSave_quiet _ _ _
        · rw [if_neg hpos]
          exact internalSave_quiet _ _ _
      rw [handleAll_quiet _ _ _ hq]
      exact ⟨he,hf0⟩

theorem clear_enforced (s : System) (h : Enforced s) (hp : ¬ ZeroesExpiry s .clearCode) :
    Enforced (serve s (clearCode s.manager s.clock).2) := by
  obtain ⟨he,hf⟩ := h
  have hf0 : Fine { s.service with cancelled := [] } s.clock.time s.manager.expiryTimeSecs :=
    ⟨hf.1,fun hc => absurd rfl hc⟩
  cases hn : s.manager.cancelled with
  | true =>
    rw [(clearCode_refused s.manager s.clock (Or.inr hn)).2]
    exact ⟨he,hf0⟩
  | false =>
    have hm := clearCode_state s.manager s.clock he hn
    have hheard : handleAll s.clock.time (clearCode s.manager s.clock).2.2
        { s.service with cancelled := [] } = handleAll s.clock.time
        (zeroExpiryTime s.manager).2 { s.service with cancelled := [] } := by
      rw [clearCode_ok s.manager s.clock he hn,andThen_effects,andThen_effects,handleAll_append,
        handleAll_append,handleAll_quiet _ _ _ (clearExpiryTimer_quiet _),
        handleAll_quiet _ _ _ (internalSave_quiet _ _ _)]
    unfold Enforced serve
    rw [hm,hheard]
    refine ⟨he,?_⟩
    unfold zeroExpiryTime
    by_cases hz : s.manager.expiryTimeSecs ≠ 0
    · let zeroed := { s.manager with expiryTimeSecs := 0 }
      have hseen : (published zeroed).expiryTime = 0 := if_pos he
      rw [if_pos hz]
      show Fine (notifyExpiryTimeCb _ (published zeroed) s.clock.time) s.clock.time 0
      rw [← hseen]
      apply notifyExpiryTimeCb_fine _ _ _ rfl
      exact Or.inr (Or.inr (fun ht => hp ⟨hn,hz,ht⟩))
    · rw [if_neg hz]
      rw [not_not.mp hz] at hf0
      exact hf0

theorem step_enforced (hmac : Hmac) (s s' : System) (op : Operation) (h : Enforced s)
    (hp : ¬ ZeroesExpiry s op) (hs : step hmac s op = some s') : Enforced s' := by
  cases op with
  | addCode codeStr =>
    cases hs
    exact attempt_enforced hmac s codeStr h
  | clearCode =>
    cases hs
    exact clear_enforced s h hp
  | wallclockTimeChanged delta =>
    cases hs
    exact jump_enforced s delta h hp
  | timePasses clock =>
    simp only [step] at hs
    split_ifs at hs with ht
    cases hs
    exact ⟨h.1,fun hi => UInt64.le_trans (h.2.1 hi) ht,fun hc => absurd rfl hc⟩
  | expiryDispatch =>
    simp only [step] at hs
    split_ifs at hs with ha
    cases hs
    refine ⟨h.1,?_⟩
    have hf0 : Fine { s.service with cancelled := [] } s.clock.time s.manager.expiryTimeSecs :=
      ⟨h.2.1,fun hc => absurd rfl hc⟩
    show Fine (handleAll s.clock.time (checkExpiredCb s.manager s.clock).2 _) s.clock.time
      s.manager.expiryTimeSecs
    unfold checkExpiredCb
    split_ifs with hd hx
    · exact hf0
    · exact expiredCb_fine _ _ _ rfl hx
    · exact hf0
  | poweroffDispatch id =>
    simp only [step] at hs
    split_ifs at hs with ht
    cases hs
    exact ⟨h.1,h.2.1,fun hc => absurd rfl hc⟩

theorem constructed_enforced (manager : EpgManager) (clock : EpgClock) (attached : Bool)
    (he : manager.enabled = true) : Enforced (constructed manager clock attached) := by
  refine ⟨he,?_⟩
  have hx : getExpiryTime manager = manager.expiryTimeSecs := if_pos he
  unfold constructed
  rw [hx]
  split_ifs with hle
  · exact expiredCb_fine _ _ _ rfl hle
  · exact ⟨fun hi => absurd rfl hi,fun hc => absurd rfl hc⟩

/-- In every run in which no operation writes a zero expiry time during a
countdown, a shutdown timer is removed only by an operation after which there
is credit. -/
theorem countdown_enforced (hmac : Hmac) (manager : EpgManager) (clock : EpgClock)
    (attached : Bool) (ops : List Operation) (s : System) (he : manager.enabled = true)
    (hp : Along (step hmac) (fun s op => ¬ ZeroesExpiry s op) ops
      (constructed manager clock attached))
    (hr : run (step hmac) ops (constructed manager clock attached) = some s) :
    s.service.cancelled ≠ [] → s.clock.time < s.manager.expiryTimeSecs :=
  (run_invariant_along (fun t op t' => step_enforced hmac t t' op)
    (constructed_enforced manager clock attached he) hp hr).2.2

/-- A minute after the credit ran out the five-second code is entered. -/
theorem countdown_enforced_example :
    let ops : List Operation := [.timePasses ⟨110, 5010, true⟩, .expiryDispatch,
      .addCode [48, 48, 48, 48, 56, 49, 57, 50]]
    ∃ s, run (step zeroHmac) ops
        (constructed { freshManager with expiryTimeSecs := 50 } ⟨100, 5000, true⟩ true) = some s ∧
      (s.service.cancelled ≠ [] → s.clock.time < s.manager.expiryTimeSecs) := by
  intro ops
  have h : (run (step zeroHmac) ops (constructed { freshManager with expiryTimeSecs := 50 }
      ⟨100, 5000, true⟩ true)).isSome = true := by decide +kernel
  obtain ⟨s,hs⟩ := Option.isSome_iff_exists.mp h
  exact ⟨s,hs,countdown_enforced zeroHmac _ _ true ops s rfl (by decide +kernel) hs⟩

/-- Any local client stops the countdown by clearing the code. -/
theorem cleared_countdown :
    ¬ ∀ (ops : List Operation) (s : System), run (step zeroHmac) ops
        (constructed { freshManager with expiryTimeSecs := 50 } ⟨100, 5000, true⟩ true) = some s →
      s.service.cancelled ≠ [] → s.clock.time < s.manager.expiryTimeSecs := by
  intro h
  have hs : (run (step zeroHmac) [.clearCode] (constructed
      { freshManager with expiryTimeSecs := 50 } ⟨100, 5000, true⟩ true)).isSome = true := by
    decide +kernel
  obtain ⟨s,hr⟩ := Option.isSome_iff_exists.mp hs
  have hc := h [.clearCode] s hr
  cases hr
  revert hc
  decide +kernel

end EosPayg.ManagerService
