import EosPayg.ManagerState

/-!
# Entering codes, clearing the code and moving the wall clock

The three operations through which the running manager changes its expiry
time. An attempt to enter a code is judged by one pure function of state,
clock and string; the operation changes nothing but the attempt history unless
that judgement names a used code to be credited.
-/

set_option autoImplicit false

namespace EosPayg.ManagerCode
open EosPayg.WordArithmetic EosPayg.PaygCodes EosPayg.ManagerState

inductive EpgManagerError where
  | invalidCode | codeAlreadyUsed | tooManyAttempts | disabled | displayAccountId
  deriving DecidableEq, Repr

inductive ProviderError where
  | manager (code : EpgManagerError) (message : String)
  | io (code : GIOError) (message : String)
  deriving DecidableEq, Repr

def disabledError : ProviderError :=
  .manager .disabled "Pay as you go is disabled on this computer."

def tooManyAttemptsError : ProviderError :=
  .manager .tooManyAttempts "Too many invalid codes entered recently; please wait"

def codeAlreadyUsedError : ProviderError :=
  .manager .codeAlreadyUsed "This pay as you go code has already been used."

def cancelledError : ProviderError := .io .cancelled "Operation was cancelled"

def checkEnabled (self : EpgManager) : Except ProviderError Unit :=
  if self.enabled then .ok () else .error disabledError

def attemptsInLastPeriod (r : RateLimiting) (nowSecs : UInt64) : ℕ :=
  r.history.countP (fun t => t ≥ nowSecs-rateLimitingTimePeriodSecs)

/-- Shift the history by one, push the new attempt and derive the end time
from the oldest attempt kept. -/
def pushAttempt (r : RateLimiting) (nowSecs : UInt64) : RateLimiting where
  history := nowSecs :: r.history.take (rateLimitingNAttempts-1)
  endTimeSecs :=
    let oldest := (nowSecs :: r.history.take (rateLimitingNAttempts-1)).getLastD 0
    if oldest > 0 then oldest+rateLimitingTimePeriodSecs else 0
  full := by simp [r.full,rateLimitingNAttempts]

def recordAttempt (self : EpgManager) (nowSecs : UInt64) : EpgManager :=
  { self with rateLimiting := pushAttempt self.rateLimiting nowSecs }

def checkRateLimiting (self : EpgManager) (nowSecs : UInt64) :
    Except ProviderError Unit × Outcome :=
  let recorded := recordAttempt self nowSecs
  if attemptsInLastPeriod self.rateLimiting nowSecs ≥ rateLimitingNAttempts then
    (.error tooManyAttemptsError, recorded,
      if self.enabled then [.notify .rateLimitEndTime (published recorded)] else [])
  else (.ok (), recorded, [])

def clearRateLimiting (self : EpgManager) : Outcome :=
  let cleared := { self with rateLimiting := noAttempts }
  (cleared, if self.enabled then [.notify .rateLimitEndTime (published cleared)] else [])

def checkIsCounterUnused (self : EpgManager) (used : UsedCode) : Except ProviderError Unit :=
  if self.usedCodes.codes.any (fun c => used.counter = c.counter ∧ used.period = c.period) then
    .error codeAlreadyUsedError
  else .ok ()

def spanSecs : EpcPeriod → UInt64
  | .period5Seconds => 5
  | .period1Minute => 60
  | .period5Minutes => 5*60
  | .period30Minutes => 30*60
  | .period1Hour => 60*60
  | .period8Hours => 8*60*60
  | .period1Day => 24*60*60
  | .period2Days => 2*24*60*60
  | .period3Days => 3*24*60*60
  | .period4Days => 4*24*60*60
  | .period5Days => 5*24*60*60
  | .period6Days => 6*24*60*60
  | .period7Days => 7*24*60*60
  | .period8Days => 8*24*60*60
  | .period9Days => 9*24*60*60
  | .period10Days => 10*24*60*60
  | .period11Days => 11*24*60*60
  | .period12Days => 12*24*60*60
  | .period13Days => 13*24*60*60
  | .period14Days => 14*24*60*60
  | .period30Days => 30*24*60*60
  | .period31Days => 31*24*60*60
  | .period60Days => 60*24*60*60
  | .period90Days => 90*24*60*60
  | .period120Days => 120*24*60*60
  | .period365Days => 365*24*60*60
  | .infinite => maxWord

def baseSecs (self : EpgManager) (nowSecs : UInt64) : UInt64 :=
  if nowSecs < self.expiryTimeSecs then self.expiryTimeSecs else nowSecs

/-- `MIN(span_secs, G_MAXINT64)`, which no signed word changes. -/
def timeAdded (period : EpcPeriod) : ℕ := min (spanSecs period).toNat 9223372036854775807

def extendExpiryTime (self : EpgManager) (clock : EpgClock) (nowSecs : UInt64)
    (period : EpcPeriod) : ℕ × Outcome :=
  (timeAdded period,
    setExpiryTime self clock false false (baseSecs self nowSecs) (spanSecs period))

def invalidCode {α : Type} : Except CodeError α → Except ProviderError α
  | .ok a => .ok a
  | .error e => .error (.manager .invalidCode e.message)

def checkCode (hmac : Hmac) (self : EpgManager) (codeStr : List UInt8) :
    Except ProviderError UsedCode := do
  let code ← invalidCode (epcParseCode codeStr)
  let (period, counter) ← invalidCode (epcVerifyCode hmac code self.keyBytes)
  checkIsCounterUnused self ⟨counter, period⟩
  return ⟨counter, period⟩

def creditCode (self : EpgManager) (clock : EpgClock) (used : UsedCode) : ℕ × Outcome :=
  let marked := { self with usedCodes := gArraySort (self.usedCodes.codes ++ [used]) }
  let extended := extendExpiryTime marked clock clock.time used.period
  (extended.1, andThen (andThen extended.2 clearRateLimiting)
    (fun m => internalSave m clock false))

def addCode (hmac : Hmac) (self : EpgManager) (clock : EpgClock) (codeStr : List UInt8) :
    Except ProviderError ℕ × Outcome :=
  match checkEnabled self with
  | .error e => (.error e, self, [])
  | .ok () =>
    let limited := checkRateLimiting self clock.time
    match limited.1 with
    | .error e => (.error e, limited.2)
    | .ok () =>
      if limited.2.1.cancelled then (.error cancelledError, limited.2)
      else match checkCode hmac limited.2.1 codeStr with
        | .error e => (.error e, limited.2)
        | .ok used =>
          let credited := creditCode limited.2.1 clock used
          (.ok credited.1, andThen limited.2 (fun _ => credited.2))

def zeroExpiryTime (self : EpgManager) : Outcome :=
  if self.expiryTimeSecs ≠ 0 then
    let zeroed := { self with expiryTimeSecs := 0 }
    (zeroed, [.notify .expiryTime (published zeroed)])
  else (self, [])

def clearCode (self : EpgManager) (clock : EpgClock) : Except ProviderError Unit × Outcome :=
  match checkEnabled self with
  | .error e => (.error e, self, [])
  | .ok () =>
    if self.cancelled then (.error cancelledError, self, [])
    else (.ok (), andThen (andThen (zeroExpiryTime self) clearExpiryTimer)
      (fun m => internalSave m clock false))

def consumeJump (self : EpgManager) (clock : EpgClock) (delta : UInt64) : Outcome :=
  if clock.time < self.expiryTimeSecs then
    if delta > self.expiryTimeSecs-clock.time then
      setExpiryTime self clock false false clock.time 0
    else
      setExpiryTime self clock false false clock.time (self.expiryTimeSecs-clock.time-delta)
  else (self, [])

def wallclockTimeChanged (self : EpgManager) (clock : EpgClock) (delta : Int64) : Outcome :=
  if delta = 0 then (self, [])
  else andThen (if 0 < delta then consumeJump self clock delta.toUInt64 else (self, []))
    (fun m => internalSave m clock false)

def zeroHmac : Hmac := fun _ _ _ => 0

def freshManager : EpgManager := { epgManagerInit true with keyBytes := List.replicate 64 0 }

/-- The code of five seconds with counter one, for a message code of zeros. -/
def fiveSeconds : List UInt8 := [48,48,48,48,56,49,57,50]

def acceptedCode (hmac : Hmac) (self : EpgManager) (clock : EpgClock) (codeStr : List UInt8) :
    Option UsedCode :=
  if self.enabled = true ∧ self.cancelled = false ∧
      attemptsInLastPeriod self.rateLimiting clock.time < rateLimitingNAttempts then
    (checkCode hmac self codeStr).toOption
  else none

theorem checkIsCounterUnused_eq (self : EpgManager) (used : UsedCode) :
    checkIsCounterUnused self used =
      if used ∈ self.usedCodes.codes then .error codeAlreadyUsedError else .ok () := by
  have h : (self.usedCodes.codes.any
      (fun c => used.counter = c.counter ∧ used.period = c.period)) = true ↔
      used ∈ self.usedCodes.codes := by
    rw [List.any_eq_true]
    constructor
    · rintro ⟨c,hc,he⟩
      have hu : used = c := by
        cases used
        cases c
        simp_all
      rwa [hu]
    · intro hu
      exact ⟨used,hu,by simp⟩
  unfold checkIsCounterUnused
  by_cases hu : used ∈ self.usedCodes.codes
  · rw [if_pos (h.mpr hu),if_pos hu]
  · rw [if_neg (fun hh => hu (h.mp hh)),if_neg hu]

/-- A string passes the checks exactly when it is a code string, its code
verifies under the key and the pair has not been used. -/
theorem checkCode_ok_iff (hmac : Hmac) (self : EpgManager) (s : List UInt8) (used : UsedCode) :
    checkCode hmac self s = .ok used ↔
      ∃ code, epcParseCode s = .ok code ∧
        epcVerifyCode hmac code self.keyBytes = .ok (used.period,used.counter) ∧
        used ∉ self.usedCodes.codes := by
  unfold checkCode
  cases hp : epcParseCode s with
  | error e => simp [invalidCode,bind,Except.bind]
  | ok code =>
    cases hv : epcVerifyCode hmac code self.keyBytes with
    | error e => simp [invalidCode,bind,Except.bind,hv]
    | ok pc =>
      obtain ⟨period,counter⟩ := pc
      by_cases hu : (⟨counter,period⟩ : UsedCode) ∈ self.usedCodes.codes
      · simp only [invalidCode,hv,bind,Except.bind,checkIsCounterUnused_eq,if_pos hu]
        constructor
        · intro h
          cases h
        · rintro ⟨c,⟨⟩,hv',hn⟩
          rw [hv] at hv'
          cases hv'
          exact absurd hu hn
      · simp only [invalidCode,hv,bind,Except.bind,checkIsCounterUnused_eq,if_neg hu]
        constructor
        · intro h
          cases h
          exact ⟨code,rfl,hv,hu⟩
        · rintro ⟨c,⟨⟩,hv',hn⟩
          rw [hv] at hv'
          cases hv'
          rfl

theorem checkCode_error {hmac : Hmac} {self : EpgManager} {s : List UInt8}
    {e : ProviderError} (h : checkCode hmac self s = .error e) :
    ∃ code message, e = .manager code message ∧ (code = .invalidCode ∨ code = .codeAlreadyUsed) := by
  unfold checkCode at h
  cases hp : epcParseCode s with
  | error d =>
    simp only [hp,invalidCode,bind,Except.bind] at h
    cases h
    exact ⟨_,_,rfl,Or.inl rfl⟩
  | ok code =>
    cases hv : epcVerifyCode hmac code self.keyBytes with
    | error d =>
      simp only [hp,hv,invalidCode,bind,Except.bind] at h
      cases h
      exact ⟨_,_,rfl,Or.inl rfl⟩
    | ok pc =>
      simp only [hp,hv,invalidCode,bind,Except.bind,checkIsCounterUnused_eq] at h
      split_ifs at h
      · cases h
        exact ⟨_,_,rfl,Or.inr rfl⟩
      · cases h

theorem checkCode_error_ne {hmac : Hmac} {self : EpgManager} {s : List UInt8}
    {e : ProviderError} (h : checkCode hmac self s = .error e) :
    e ≠ tooManyAttemptsError ∧ e ≠ disabledError := by
  obtain ⟨code,message,rfl,rfl | rfl⟩ := checkCode_error h <;>
    simp [tooManyAttemptsError,disabledError]

theorem checkCode_recordAttempt (hmac : Hmac) (self : EpgManager) (now : UInt64)
    (s : List UInt8) : checkCode hmac (recordAttempt self now) s = checkCode hmac self s := rfl

theorem checkRateLimiting_limited (self : EpgManager) (now : UInt64)
    (h : rateLimitingNAttempts ≤ attemptsInLastPeriod self.rateLimiting now) :
    (checkRateLimiting self now).1 = .error tooManyAttemptsError := by
  rw [checkRateLimiting,if_pos h]

theorem checkRateLimiting_free (self : EpgManager) (now : UInt64)
    (h : attemptsInLastPeriod self.rateLimiting now < rateLimitingNAttempts) :
    checkRateLimiting self now = (.ok (),recordAttempt self now,[]) := by
  rw [checkRateLimiting,if_neg (Nat.not_le.mpr h)]

theorem acceptedCode_some {hmac : Hmac} {self : EpgManager} {clock : EpgClock}
    {s : List UInt8} {used : UsedCode} (h : acceptedCode hmac self clock s = some used) :
    self.enabled = true ∧ self.cancelled = false ∧
      attemptsInLastPeriod self.rateLimiting clock.time < rateLimitingNAttempts ∧
      checkCode hmac self s = .ok used := by
  unfold acceptedCode at h
  split_ifs at h with hc
  refine ⟨hc.1,hc.2.1,hc.2.2,?_⟩
  cases hh : checkCode hmac self s with
  | error e => simp [hh,Except.toOption] at h
  | ok u => simpa [hh,Except.toOption] using h

/-- An accepted attempt is recorded, and its code credited. -/
theorem addCode_accepted (hmac : Hmac) (self : EpgManager) (clock : EpgClock)
    (s : List UInt8) (used : UsedCode) (h : acceptedCode hmac self clock s = some used) :
    addCode hmac self clock s = (.ok (timeAdded used.period),
      (creditCode (recordAttempt self clock.time) clock used).2) := by
  obtain ⟨he,hn,hl,hk⟩ := acceptedCode_some h
  have hc : (recordAttempt self clock.time).cancelled = false := hn
  unfold addCode
  rw [checkEnabled,if_pos he]
  simp only [checkRateLimiting_free self clock.time hl,hc,checkCode_recordAttempt,hk,
    Bool.false_eq_true,if_false]
  rfl

/-- A refused attempt is an error, leaves the attempt in the history of an
enabled manager, and only tells the end of the rate limit when that is why it
is refused. -/
theorem addCode_refused_outcome (hmac : Hmac) (self : EpgManager) (clock : EpgClock)
    (s : List UInt8) (h : acceptedCode hmac self clock s = none) :
    ∃ e, addCode hmac self clock s =
      (.error e,if self.enabled then recordAttempt self clock.time else self,
        if self.enabled = true ∧
            rateLimitingNAttempts ≤ attemptsInLastPeriod self.rateLimiting clock.time then
          [.notify .rateLimitEndTime (published (recordAttempt self clock.time))]
        else []) := by
  unfold addCode
  by_cases he : self.enabled = true
  · rw [checkEnabled,if_pos he,if_pos he]
    by_cases hl : rateLimitingNAttempts ≤ attemptsInLastPeriod self.rateLimiting clock.time
    · have hlim : checkRateLimiting self clock.time = (.error tooManyAttemptsError,
          recordAttempt self clock.time,
          [.notify .rateLimitEndTime (published (recordAttempt self clock.time))]) := by
        rw [checkRateLimiting,if_pos hl,if_pos he]
      simp only [hlim]
      rw [if_pos ⟨he,hl⟩]
      exact ⟨_,rfl⟩
    · rw [if_neg (fun hh => hl hh.2)]
      rw [Nat.not_le] at hl
      have hc : (recordAttempt self clock.time).cancelled = self.cancelled := rfl
      simp only [checkRateLimiting_free self clock.time hl,checkCode_recordAttempt,hc]
      cases hn : self.cancelled with
      | true => exact ⟨_,rfl⟩
      | false =>
        cases hk : checkCode hmac self s with
        | error e => exact ⟨_,rfl⟩
        | ok used =>
          rw [acceptedCode,if_pos ⟨he,hn,hl⟩,hk] at h
          cases h
  · rw [checkEnabled,if_neg he,if_neg he,if_neg (fun hh => he hh.1)]
    exact ⟨_,rfl⟩

theorem addCode_refused (hmac : Hmac) (self : EpgManager) (clock : EpgClock)
    (s : List UInt8) (h : acceptedCode hmac self clock s = none) :
    (∃ e, (addCode hmac self clock s).1 = .error e) ∧
      (addCode hmac self clock s).2.1 =
        if self.enabled then recordAttempt self clock.time else self := by
  rcases addCode_refused_outcome hmac self clock s h with ⟨e,ho⟩
  rw [ho]
  exact ⟨⟨e,rfl⟩,rfl⟩

theorem addCode_refused_effects (hmac : Hmac) (self : EpgManager) (clock : EpgClock)
    (s : List UInt8) (h : acceptedCode hmac self clock s = none) :
    (addCode hmac self clock s).2.2 = [] ∨
      (addCode hmac self clock s).2.2 =
        [.notify .rateLimitEndTime (published (recordAttempt self clock.time))] := by
  rcases addCode_refused_outcome hmac self clock s h with ⟨e,ho⟩
  rw [ho]
  by_cases hl : self.enabled = true ∧
      rateLimitingNAttempts ≤ attemptsInLastPeriod self.rateLimiting clock.time
  · rw [if_pos hl]
    exact Or.inr rfl
  · rw [if_neg hl]
    exact Or.inl rfl

theorem addCode_ok_iff (hmac : Hmac) (self : EpgManager) (clock : EpgClock)
    (s : List UInt8) (t : ℕ) :
    (addCode hmac self clock s).1 = .ok t ↔
      ∃ used, acceptedCode hmac self clock s = some used ∧ t = timeAdded used.period := by
  cases h : acceptedCode hmac self clock s with
  | none =>
    obtain ⟨e,he⟩ := (addCode_refused hmac self clock s h).1
    simp [he]
  | some used =>
    rw [addCode_accepted hmac self clock s used h]
    constructor
    · rintro ⟨⟩
      exact ⟨used,rfl,rfl⟩
    · rintro ⟨u,⟨⟩,rfl⟩
      rfl

theorem addCode_limited_iff (hmac : Hmac) (self : EpgManager) (clock : EpgClock)
    (s : List UInt8) (he : self.enabled = true) :
    (addCode hmac self clock s).1 = .error tooManyAttemptsError ↔
      rateLimitingNAttempts ≤ attemptsInLastPeriod self.rateLimiting clock.time := by
  unfold addCode
  rw [checkEnabled,if_pos he]
  by_cases hl : rateLimitingNAttempts ≤ attemptsInLastPeriod self.rateLimiting clock.time
  · simp only [checkRateLimiting_limited self clock.time hl,hl]
  · rw [Nat.not_le] at hl
    simp only [checkRateLimiting_free self clock.time hl,checkCode_recordAttempt,
      iff_false,Nat.not_le.mpr hl]
    cases hn : (recordAttempt self clock.time).cancelled with
    | true => simp [cancelledError,tooManyAttemptsError]
    | false =>
      cases hk : checkCode hmac self s with
      | ok used => simp
      | error e =>
        have hne : e ≠ tooManyAttemptsError := (checkCode_error_ne hk).1
        simp [hne]

theorem addCode_not_disabled (hmac : Hmac) (self : EpgManager) (clock : EpgClock)
    (s : List UInt8) (he : self.enabled = true) :
    (addCode hmac self clock s).1 ≠ .error disabledError := by
  unfold addCode
  rw [checkEnabled,if_pos he]
  by_cases hl : rateLimitingNAttempts ≤ attemptsInLastPeriod self.rateLimiting clock.time
  · simp only [checkRateLimiting_limited self clock.time hl]
    simp [tooManyAttemptsError,disabledError]
  · rw [Nat.not_le] at hl
    simp only [checkRateLimiting_free self clock.time hl,checkCode_recordAttempt]
    cases hn : (recordAttempt self clock.time).cancelled with
    | true => simp [cancelledError,disabledError]
    | false =>
      cases hk : checkCode hmac self s with
      | ok used => simp
      | error e =>
        have hne : e ≠ disabledError := (checkCode_error_ne hk).2
        simp [hne]

/-- What crediting a used code does to the state, in one record update. -/
theorem creditCode_state (self : EpgManager) (clock : EpgClock) (used : UsedCode) :
    (creditCode self clock used).2.1 =
      { self with
        usedCodes := gArraySort (self.usedCodes.codes ++ [used])
        expiryTimeSecs := expiryAfter clock (baseSecs self clock.time) (spanSecs used.period)
        expiry := timerAfter clock (baseSecs self clock.time) (spanSecs used.period)
        rateLimiting := noAttempts
        pendingInternalSaveStateCalls := self.pendingInternalSaveStateCalls+1 } := by
  simp only [creditCode,extendExpiryTime,andThen_state,internalSave,clearRateLimiting]
  rw [setExpiryTime_state]
  simp [baseSecs]

theorem addCode_accepted_state (hmac : Hmac) (self : EpgManager) (clock : EpgClock)
    (s : List UInt8) (used : UsedCode) (h : acceptedCode hmac self clock s = some used) :
    (addCode hmac self clock s).2.1 =
      { self with
        usedCodes := gArraySort (self.usedCodes.codes ++ [used])
        expiryTimeSecs := expiryAfter clock (baseSecs self clock.time) (spanSecs used.period)
        expiry := timerAfter clock (baseSecs self clock.time) (spanSecs used.period)
        rateLimiting := noAttempts
        pendingInternalSaveStateCalls := self.pendingInternalSaveStateCalls+1 } := by
  rw [addCode_accepted hmac self clock s used h]
  exact creditCode_state (recordAttempt self clock.time) clock used

theorem addCode_settings (hmac : Hmac) (self : EpgManager) (clock : EpgClock)
    (s : List UInt8) :
    (addCode hmac self clock s).2.1.enabled = self.enabled ∧
      (addCode hmac self clock s).2.1.cancelled = self.cancelled ∧
      (addCode hmac self clock s).2.1.keyBytes = self.keyBytes := by
  cases h : acceptedCode hmac self clock s with
  | some used =>
    rw [addCode_accepted_state hmac self clock s used h]
    exact ⟨rfl,rfl,rfl⟩
  | none =>
    rw [(addCode_refused hmac self clock s h).2]
    split_ifs <;> exact ⟨rfl,rfl,rfl⟩

theorem refused_keeps (hmac : Hmac) (self : EpgManager) (clock : EpgClock) (s : List UInt8)
    (h : acceptedCode hmac self clock s = none) :
    (addCode hmac self clock s).2.1.usedCodes = self.usedCodes := by
  rw [(addCode_refused hmac self clock s h).2]
  split_ifs <;> rfl

theorem mem_addCode (hmac : Hmac) (self : EpgManager) (clock : EpgClock) (s : List UInt8)
    (c : UsedCode) :
    c ∈ (addCode hmac self clock s).2.1.usedCodes.codes ↔
      c ∈ self.usedCodes.codes ∨ acceptedCode hmac self clock s = some c := by
  cases hacc : acceptedCode hmac self clock s with
  | none =>
    rw [refused_keeps hmac self clock s hacc]
    simp
  | some used =>
    rw [addCode_accepted_state hmac self clock s used hacc,mem_gArraySort,List.mem_append,
      List.mem_singleton,Option.some.injEq,eq_comm]

theorem clearCode_ok (self : EpgManager) (clock : EpgClock) (he : self.enabled = true)
    (hn : self.cancelled = false) :
    clearCode self clock = (.ok (),andThen (andThen (zeroExpiryTime self) clearExpiryTimer)
      (fun m => internalSave m clock false)) := by
  unfold clearCode
  rw [checkEnabled,if_pos he]
  show (if self.cancelled = true then _ else _) = _
  rw [if_neg (by simp [hn])]

theorem clearCode_state (self : EpgManager) (clock : EpgClock) (he : self.enabled = true)
    (hn : self.cancelled = false) :
    (clearCode self clock).2.1 =
      { self with
        expiryTimeSecs := 0
        expiry := none
        pendingInternalSaveStateCalls := self.pendingInternalSaveStateCalls+1 } := by
  rw [clearCode_ok self clock he hn]
  simp only [andThen_state,clearExpiryTimer_state,internalSave,zeroExpiryTime]
  by_cases hz : self.expiryTimeSecs = 0
  · simp [hz]
  · simp [hz]

theorem clearCode_refused (self : EpgManager) (clock : EpgClock)
    (h : self.enabled = false ∨ self.cancelled = true) :
    (∃ e, (clearCode self clock).1 = .error e) ∧ (clearCode self clock).2 = (self,[]) := by
  unfold clearCode checkEnabled
  cases he : self.enabled with
  | false => exact ⟨⟨_,rfl⟩,rfl⟩
  | true =>
    have hn : self.cancelled = true := by simpa [he] using h
    simp [hn]

theorem clearCode_cases (self : EpgManager) (clock : EpgClock) :
    (self.enabled = true ∧ self.cancelled = false) ∨ (clearCode self clock).2 = (self,[]) := by
  cases he : self.enabled with
  | false => exact Or.inr (clearCode_refused self clock (Or.inl he)).2
  | true =>
    cases hn : self.cancelled with
    | false => exact Or.inl ⟨rfl,rfl⟩
    | true => exact Or.inr (clearCode_refused self clock (Or.inr hn)).2

theorem clearCode_enabled (self : EpgManager) (clock : EpgClock) :
    (clearCode self clock).2.1.enabled = self.enabled := by
  rcases clearCode_cases self clock with ⟨he,hn⟩ | h
  · rw [clearCode_state self clock he hn]
  · rw [h]

def spanAfterJump (self : EpgManager) (clock : EpgClock) (delta : UInt64) : UInt64 :=
  if delta > self.expiryTimeSecs-clock.time then 0
  else self.expiryTimeSecs-clock.time-delta

theorem spanAfterJump_toNat (self : EpgManager) (clock : EpgClock) (delta : UInt64)
    (h : clock.time < self.expiryTimeSecs) :
    (spanAfterJump self clock delta).toNat = remaining self clock.time-delta.toNat := by
  have hc : (self.expiryTimeSecs-clock.time).toNat = remaining self clock.time :=
    UInt64.toNat_sub_of_le _ _ (UInt64.le_of_lt h)
  unfold spanAfterJump
  split_ifs with hd
  · have := UInt64.lt_iff_toNat_lt.mp hd
    rw [UInt64.toNat_zero]
    omega
  · rw [UInt64.toNat_sub_of_le _ _ (UInt64.not_lt.mp hd),hc]

theorem consumeJump_eq (self : EpgManager) (clock : EpgClock) (delta : UInt64) :
    consumeJump self clock delta = if clock.time < self.expiryTimeSecs then
      setExpiryTime self clock false false clock.time (spanAfterJump self clock delta)
    else (self,[]) := by
  unfold consumeJump spanAfterJump
  split_ifs <;> rfl

/-- The wall clock changes the expiry time only by a forward jump while
credit is left, and then sets it anew from the current second. -/
theorem wallclockTimeChanged_state (self : EpgManager) (clock : EpgClock) (delta : Int64) :
    (wallclockTimeChanged self clock delta).1 =
      if delta = 0 then self
      else if 0 < delta ∧ clock.time < self.expiryTimeSecs then
        { self with
          expiryTimeSecs := expiryAfter clock clock.time
            (spanAfterJump self clock delta.toUInt64)
          expiry := timerAfter clock clock.time (spanAfterJump self clock delta.toUInt64)
          pendingInternalSaveStateCalls := self.pendingInternalSaveStateCalls+1 }
      else
        { self with
          pendingInternalSaveStateCalls := self.pendingInternalSaveStateCalls+1 } := by
  unfold wallclockTimeChanged
  by_cases hz : delta = 0
  · simp [hz]
  · rw [if_neg hz,if_neg hz,andThen_state]
    by_cases hp : 0 < delta
    · rw [if_pos hp,consumeJump_eq]
      by_cases ht : clock.time < self.expiryTimeSecs
      · rw [if_pos ht,if_pos ⟨hp,ht⟩,internalSave,setExpiryTime_state]
        simp
      · rw [if_neg ht,if_neg (fun h => ht h.2)]
        rfl
    · rw [if_neg hp,if_neg (fun h => hp h.1)]
      rfl

theorem wallclockTimeChanged_enabled (self : EpgManager) (clock : EpgClock) (delta : Int64) :
    (wallclockTimeChanged self clock delta).1.enabled = self.enabled := by
  rw [wallclockTimeChanged_state]
  split_ifs <;> rfl

end EosPayg.ManagerCode
