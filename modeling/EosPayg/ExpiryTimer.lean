import EosPayg.ManagerCode
import EosPayg.ManagerFiles
import EosPayg.PeriodicTimer

/-!
# The manager on the real clock: is the expiry seen in time?

Time is counted in nanoseconds since boot; the boot clock of the manager reads
whole seconds of it. The source attached for an expiry time is a periodic
timer whose interval is the span handed to the clock, clamped once more to
what fits into milliseconds. Whether some expiration falls into the second
after the expiry time depends on the span and on the time left before.
-/

set_option autoImplicit false

namespace EosPayg.ExpiryTimer
open EosPayg.WordArithmetic EosPayg.PaygCodes EosPayg.ManagerState EosPayg.ManagerCode
  EosPayg.ManagerFiles EosPayg.PeriodicTimer EosPayg.GuardedRun

def nsecPerSec : ℕ := 1000000000

def msecPerSec : ℕ := 1000

/-- The boot time is a signed number of microseconds. -/
def boottimeLimit : ℕ := 2^63*1000

def intervalClamped (interval : ℕ) : ℕ := min interval (gMaxUint/msecPerSec)

/-- The manager with its source, the moment its expiry time was last set, and
whether the `expired` signal has been emitted since. -/
structure System where
  manager : EpgManager
  now : ℕ
  wallclock : UInt64
  timer : Option Timer
  setAt : Option ℕ
  emitted : Bool
  deriving DecidableEq

def clockOf (s : System) : EpgClock := ⟨UInt64.ofNat (s.now/nsecPerSec), s.wallclock, true⟩

def rearm (now : ℕ) (timer : Option Timer) : Effect → Option Timer
  | .sourceAttach interval => some (arm now (intervalClamped interval.toNat*nsecPerSec))
  | .sourceDestroy => none
  | _ => timer

def Effect.setsExpiry : Effect → Bool
  | .sourceAttach _ => true
  | .notify .expiryTime _ => true
  | _ => false

def Effect.isExpired : Effect → Bool
  | .expired _ => true
  | _ => false

def serve (s : System) (out : Outcome) : System where
  manager := out.1
  now := s.now
  wallclock := s.wallclock
  timer := out.2.foldl (rearm s.now) s.timer
  setAt := if out.2.any Effect.setsExpiry then some s.now else s.setAt
  emitted :=
    if out.2.any Effect.setsExpiry then out.2.any Effect.isExpired
    else s.emitted || out.2.any Effect.isExpired

inductive Operation where
  | fileLoad (file : StateFile) (result : LoadResult)
  | addCode (codeStr : List UInt8)
  | wallclockTimeChanged (delta : Int64)
  | clearCode
  | timePasses (now : ℕ) (wallclock : UInt64)
  | timerDispatch
  deriving DecidableEq

def dispatch (s : System) (tm : Timer) : System where
  manager := s.manager
  now := s.now
  wallclock := s.wallclock
  timer := if (checkExpiredCb s.manager (clockOf s)).1 then some (read tm s.now) else none
  setAt := s.setAt
  emitted := s.emitted || (checkExpiredCb s.manager (clockOf s)).2.any Effect.isExpired

/-- The manager stays enabled, and every source can be created. -/
def step (hmac : Hmac) (s : System) : Operation → Option System
  | .fileLoad file result =>
    if (fileLoadCb s.manager (clockOf s) false file result).1.enabled then
      some (serve s (fileLoadCb s.manager (clockOf s) false file result))
    else none
  | .addCode codeStr => some (serve s (addCode hmac s.manager (clockOf s) codeStr).2)
  | .wallclockTimeChanged delta =>
    some (serve s (wallclockTimeChanged s.manager (clockOf s) delta))
  | .clearCode => some (serve s (clearCode s.manager (clockOf s)).2)
  | .timePasses now wallclock =>
    if s.now ≤ now ∧ now < boottimeLimit then
      some { s with now := now, wallclock := wallclock }
    else none
  | .timerDispatch =>
    match s.timer with
    | none => none
    | some tm =>
      if ready tm s.now then some (dispatch s tm) else none

def started (manager : EpgManager) (now : ℕ) (wallclock : UInt64) : System :=
  ⟨manager, now, wallclock, none, none, false⟩

def idle (s : System) : Bool := !s.timer.any (fun tm => ready tm s.now)

/-- The main loop is idle a second past the expiry time and past the moment it
was set, and nothing has been said about it. -/
def Unenforced (s : System) : Prop :=
  idle s = true ∧ s.manager.expiryTimeSecs ≠ maxWord ∧
    (s.manager.expiryTimeSecs.toNat+1)*nsecPerSec ≤ s.now ∧
    s.setAt.any (fun c => c+nsecPerSec ≤ s.now) = true ∧ s.emitted = false

instance (s : System) : Decidable (Unenforced s) :=
  inferInstanceAs (Decidable (_ ∧ _ ∧ _ ∧ _ ∧ _))

def deducedSpan (self : EpgManager) (clock : EpgClock) (file : StateFile) : Option UInt64 :=
  match self.lastSaveTimeSecs, self.lastSaveExpirySecs with
  | some timeSecs, some expirySecs =>
    if file = .clockTime ∨ file = .expirySeconds then
      some (creditOnLoad timeSecs expirySecs clock.wallclockTime)
    else none
  | _, _ => none

def fileSpan (clock : EpgClock) (file : StateFile) (bytes : List UInt8) : Option UInt64 :=
  match file with
  | .expirySeconds => if bytes.length = 0 then some 0 else none
  | .expiryTime =>
    if bytes.length = 0 then some 0
    else some (if wordOfBytes bytes > clock.wallclockTime then
      wordOfBytes bytes-clock.wallclockTime else 0)
  | _ => none

def loadedBytes : LoadResult → Option (Option (List UInt8))
  | .contents data => some (some data)
  | .failed error => if error = .notFound then some none else none

def loadSpan (self : EpgManager) (clock : EpgClock) (file : StateFile) (result : LoadResult) :
    Option UInt64 :=
  match loadedBytes result with
  | none => none
  | some data =>
    if (loadFile self clock file data).1 then
      (deducedSpan (loadFile self clock file data).2.1 clock file).or
        (fileSpan clock file (data.getD []))
    else none

def setting (hmac : Hmac) (s : System) : Operation → Option (UInt64 × UInt64)
  | .fileLoad file result =>
    (loadSpan s.manager (clockOf s) file result).map (fun span => ((clockOf s).time,span))
  | .addCode codeStr =>
    (acceptedCode hmac s.manager (clockOf s) codeStr).map (fun used =>
      (baseSecs s.manager (clockOf s).time,spanSecs used.period))
  | .wallclockTimeChanged delta =>
    if 0 < delta ∧ (clockOf s).time < s.manager.expiryTimeSecs then
      some ((clockOf s).time,spanAfterJump s.manager (clockOf s) delta.toUInt64)
    else none
  | _ => none

/-- Counted from now, some multiple of the clamped span falls into the second
after the expiry time, or after now if that is later; or there is no expiry. -/
def SpanLands (now base span : ℕ) : Prop :=
  maxWord.toNat ≤ base+span ∨
    (0 < intervalClamped span ∧ ∃ k, 1 ≤ k ∧
      (base+span)*nsecPerSec ≤ now+k*(intervalClamped span*nsecPerSec) ∧
      now+k*(intervalClamped span*nsecPerSec) ≤ max ((base+span)*nsecPerSec) now+nsecPerSec)

/-- Every expiry time is set so that its timer sees it in time, and no code is
cleared before its credit is. -/
def SetsInTime (hmac : Hmac) (s : System) (op : Operation) : Prop :=
  (∀ base span, setting hmac s op = some (base,span) →
    SpanLands s.now base.toNat span.toNat) ∧
  (op = .clearCode → s.manager.cancelled = true ∨ s.manager.expiryTimeSecs = 0)

def timerFree : Effect → Bool
  | .sourceAttach _ => false
  | .sourceDestroy => false
  | _ => true

def calm (e : Effect) : Bool := timerFree e && !Effect.setsExpiry e

def Kept (self : EpgManager) (out : Outcome) : Prop :=
  out.1.expiryTimeSecs = self.expiryTimeSecs ∧ out.2.all calm = true

def SetFrom (base span : UInt64) (out : Outcome) : Prop :=
  out.1.expiryTimeSecs = saturatingAdd base span ∧
    (saturatingAdd base span ≠ maxWord → ∃ before after, out.2 = before ++
      .sourceAttach (expirySpanClamped (saturatingAdd base span) base)::after ∧
      after.all timerFree = true)

theorem rearm_free (now : ℕ) (effects : List Effect) (timer : Option Timer)
    (h : effects.all timerFree = true) : effects.foldl (rearm now) timer = timer := by
  induction effects generalizing timer with
  | nil => rfl
  | cons e es ih =>
    obtain ⟨he,hes⟩ := Bool.and_eq_true_iff.mp h
    have hr : rearm now timer e = timer := by
      cases e <;> first | rfl | cases he
    show es.foldl (rearm now) (rearm now timer e) = timer
    rw [hr]
    exact ih timer hes

theorem calm_free (effects : List Effect) (h : effects.all calm = true) :
    effects.all timerFree = true ∧ effects.any Effect.setsExpiry = false := by
  induction effects with
  | nil => exact ⟨rfl,rfl⟩
  | cons e es ih =>
    obtain ⟨he,hes⟩ := Bool.and_eq_true_iff.mp h
    obtain ⟨hf,hs⟩ := Bool.and_eq_true_iff.mp he
    rw [List.all_cons,List.any_cons,(ih hes).1,(ih hes).2,hf]
    simpa using hs

theorem kept_nil (self : EpgManager) : Kept self (self,[]) := ⟨rfl,rfl⟩

theorem internalSave_kept (self : EpgManager) (clock : EpgClock) (task : Bool) :
    Kept self (internalSave self clock task) := by
  cases task <;> exact ⟨rfl,rfl⟩

theorem kept_trans {self : EpgManager} {first : Outcome} {next : EpgManager → Outcome}
    (h : Kept self first) (hn : Kept first.1 (next first.1)) : Kept self (andThen first next) := by
  constructor
  · exact hn.1.trans h.1
  · rw [andThen_effects,List.all_append,h.2,hn.2]
    rfl

theorem setFrom_kept {base span : UInt64} {first : Outcome} {next : EpgManager → Outcome}
    (h : SetFrom base span first) (hn : Kept first.1 (next first.1)) :
    SetFrom base span (andThen first next) := by
  constructor
  · exact hn.1.trans h.1
  · intro hm
    obtain ⟨before,after,he,ha⟩ := h.2 hm
    have hall : (after ++ (next first.1).2).all timerFree = true := by
      rw [List.all_append,ha,(calm_free _ hn.2).1]
      rfl
    exact ⟨before,after ++ (next first.1).2,by rw [andThen_effects,he,List.append_assoc]; rfl,hall⟩

theorem setFrom_last {base span : UInt64} {first : Outcome} {next : EpgManager → Outcome}
    (hn : SetFrom base span (next first.1)) : SetFrom base span (andThen first next) := by
  constructor
  · exact hn.1
  · intro hm
    obtain ⟨before,after,he,ha⟩ := hn.2 hm
    exact ⟨first.2 ++ before,after,by rw [andThen_effects,he,List.append_assoc],ha⟩

theorem announceExpiryTime_free (self : EpgManager) (clock : EpgClock) (task save : Bool)
    (old : UInt64) : (announceExpiryTime clock task save old self).2.all timerFree = true := by
  unfold announceExpiryTime internalSave
  split_ifs <;> rfl

theorem setExpiryTime_setFrom (self : EpgManager) (clock : EpgClock) (task save : Bool)
    (base span : UInt64) (hk : clock.sourceNewSeconds = true) :
    SetFrom base span (setExpiryTime self clock task save base span) := by
  constructor
  · rw [setExpiryTime_state]
    exact expiryAfter_of_source clock base span hk
  · intro hm
    let m0 := clearExpiryTimer { self with expiryTimeSecs := saturatingAdd base span }
    have hx : m0.1.expiryTimeSecs = saturatingAdd base span := by simp [m0]
    have harm : (armExpiryTimer clock base m0.1).2 =
        [.sourceAttach (expirySpanClamped (saturatingAdd base span) base)] := by
      unfold armExpiryTimer
      rw [hx,if_pos hm,if_pos hk]
    have hall := announceExpiryTime_free (armExpiryTimer clock base m0.1).1 clock task save
      self.expiryTimeSecs
    refine ⟨m0.2,_,?_,hall⟩
    show (m0.2 ++ (armExpiryTimer clock base m0.1).2) ++ _ = _
    rw [harm,List.append_assoc]
    rfl

theorem addCode_kept (hmac : Hmac) (self : EpgManager) (clock : EpgClock)
    (codeStr : List UInt8) (h : acceptedCode hmac self clock codeStr = none) :
    Kept self (addCode hmac self clock codeStr).2 := by
  constructor
  · rw [(addCode_refused hmac self clock codeStr h).2]
    split_ifs <;> rfl
  · rcases addCode_refused_effects hmac self clock codeStr h with he | he <;> rw [he] <;> rfl

theorem clearRateLimiting_kept (self : EpgManager) : Kept self (clearRateLimiting self) := by
  constructor
  · rfl
  · unfold clearRateLimiting
    split_ifs <;> rfl

theorem addCode_setFrom (hmac : Hmac) (self : EpgManager) (clock : EpgClock)
    (codeStr : List UInt8) (used : UsedCode) (hk : clock.sourceNewSeconds = true)
    (h : acceptedCode hmac self clock codeStr = some used) :
    SetFrom (baseSecs self clock.time) (spanSecs used.period)
      (addCode hmac self clock codeStr).2 := by
  rw [addCode_accepted hmac self clock codeStr used h]
  apply setFrom_kept _ (internalSave_kept _ _ _)
  exact setFrom_kept (setExpiryTime_setFrom _ clock _ _ _ _ hk) (clearRateLimiting_kept _)

theorem wallclockTimeChanged_kept (self : EpgManager) (clock : EpgClock) (delta : Int64)
    (h : ¬(0 < delta ∧ clock.time < self.expiryTimeSecs)) :
    Kept self (wallclockTimeChanged self clock delta) := by
  unfold wallclockTimeChanged
  by_cases hz : delta = 0
  · rw [if_pos hz]
    exact kept_nil self
  · rw [if_neg hz]
    apply kept_trans _ (internalSave_kept _ _ _)
    by_cases hp : 0 < delta
    · rw [if_pos hp,consumeJump_eq,if_neg (fun ht => h ⟨hp,ht⟩)]
      exact kept_nil self
    · rw [if_neg hp]
      exact kept_nil self

theorem wallclockTimeChanged_setFrom (self : EpgManager) (clock : EpgClock) (delta : Int64)
    (hk : clock.sourceNewSeconds = true) (h : 0 < delta ∧ clock.time < self.expiryTimeSecs) :
    SetFrom clock.time (spanAfterJump self clock delta.toUInt64)
      (wallclockTimeChanged self clock delta) := by
  have hz : delta ≠ 0 := by
    intro hh
    rw [hh] at h
    exact absurd h.1 (by decide)
  unfold wallclockTimeChanged
  rw [if_neg hz,if_pos h.1,consumeJump_eq,if_pos h.2]
  exact setFrom_kept (setExpiryTime_setFrom _ clock _ _ _ _ hk) (internalSave_kept _ _ _)

theorem loadFile_kept (self : EpgManager) (clock : EpgClock) (file : StateFile)
    (data : Option (List UInt8))
    (h : (loadFile self clock file data).1 = false ∨ fileSpan clock file (data.getD []) = none) :
    Kept self (loadFile self clock file data).2 := by
  cases file with
  | clockTime =>
    simp only [loadFile,loadWallclockTime]
    split_ifs <;> exact ⟨rfl,rfl⟩
  | expirySeconds =>
    simp only [loadFile,loadExpirySeconds,fileSpan] at h ⊢
    split_ifs at h ⊢ with h0 h8
    · simp at h
    · exact ⟨rfl,rfl⟩
    · exact ⟨rfl,rfl⟩
  | expiryTime =>
    simp only [loadFile,loadExpiryTime,fileSpan] at h ⊢
    split_ifs at h ⊢ with h0 h8 hw
    · simp at h
    · exact ⟨rfl,rfl⟩
    · simp at h
    · simp at h
  | usedCodes =>
    simp only [loadFile,loadUsedCodes]
    split <;> exact ⟨rfl,rfl⟩
  | key =>
    cases data <;> exact ⟨rfl,rfl⟩
  | accountId =>
    cases data <;> exact ⟨rfl,rfl⟩

theorem loadFile_setFrom (self : EpgManager) (clock : EpgClock) (file : StateFile)
    (data : Option (List UInt8)) (span : UInt64) (hk : clock.sourceNewSeconds = true)
    (h : (loadFile self clock file data).1 = true)
    (hs : fileSpan clock file (data.getD []) = some span) :
    SetFrom clock.time span (loadFile self clock file data).2 := by
  cases file with
  | expirySeconds =>
    simp only [loadFile,loadExpirySeconds,fileSpan] at h hs ⊢
    split_ifs at h hs ⊢ with h0
    cases hs
    exact setExpiryTime_setFrom _ _ _ _ _ _ hk
  | expiryTime =>
    simp only [loadFile,loadExpiryTime,fileSpan] at h hs ⊢
    by_cases h0 : (data.getD []).length = 0
    · rw [if_pos h0] at hs ⊢
      cases hs
      exact setExpiryTime_setFrom _ _ _ _ _ _ hk
    · rw [if_neg h0] at h hs ⊢
      by_cases h8 : (data.getD []).length ≠ 8
      · rw [if_pos h8] at h
        cases h
      · rw [if_neg h8]
        cases hs
        exact setFrom_kept (setExpiryTime_setFrom _ _ _ _ _ _ hk) ⟨rfl,rfl⟩
  | clockTime => cases hs
  | usedCodes => cases hs
  | key => cases hs
  | accountId => cases hs

theorem deduceExpiryTime_span (self : EpgManager) (clock : EpgClock) (file : StateFile) :
    deduceExpiryTime self clock file = match deducedSpan self clock file with
      | some span => setExpiryTime self clock true true clock.time span
      | none => (self,[]) := by
  unfold deduceExpiryTime deducedSpan
  cases self.lastSaveTimeSecs with
  | none => rfl
  | some t =>
    cases self.lastSaveExpirySecs with
    | none => rfl
    | some x =>
      simp only
      split_ifs <;> rfl

theorem fileLoadCb_bytes (self : EpgManager) (clock : EpgClock) (file : StateFile)
    (result : LoadResult) :
    (∃ e, loadedBytes result = none ∧
        fileLoadCb self clock false file result = (self,[.taskReturnError e])) ∨
      ∃ data, loadedBytes result = some data ∧
        fileLoadCb self clock false file result = updateFromFile self clock file data := by
  cases result with
  | contents data => exact Or.inr ⟨some data,rfl,rfl⟩
  | failed error =>
    by_cases he : error = .notFound
    · right
      exact ⟨none,by rw [loadedBytes,if_pos he],by simp [fileLoadCb,he]⟩
    · left
      exact ⟨error,by rw [loadedBytes,if_neg he],by simp [fileLoadCb,he]⟩

theorem fileLoadCb_kept (self : EpgManager) (clock : EpgClock) (file : StateFile)
    (result : LoadResult) (h : loadSpan self clock file result = none) :
    Kept self (fileLoadCb self clock false file result) := by
  rcases fileLoadCb_bytes self clock file result with ⟨e,-,he⟩ | ⟨data,hb,he⟩
  · rw [he]
    exact ⟨rfl,rfl⟩
  · rw [he]
    unfold updateFromFile
    simp only [loadSpan,hb] at h
    by_cases hl : (loadFile self clock file data).1 = true
    · rw [if_pos hl] at h
      obtain ⟨hd,hf⟩ := Option.or_eq_none_iff.mp h
      simp only [if_pos hl]
      apply kept_trans _ ⟨rfl,rfl⟩
      apply kept_trans (loadFile_kept self clock file data (Or.inr hf))
      rw [deduceExpiryTime_span,hd]
      exact kept_nil _
    · simp only [if_neg hl]
      exact loadFile_kept self clock file data (Or.inl (by simpa using hl))

theorem fileLoadCb_setFrom (self : EpgManager) (clock : EpgClock) (file : StateFile)
    (result : LoadResult) (span : UInt64) (hk : clock.sourceNewSeconds = true)
    (h : loadSpan self clock file result = some span) :
    SetFrom clock.time span (fileLoadCb self clock false file result) := by
  rcases fileLoadCb_bytes self clock file result with ⟨e,hb,he⟩ | ⟨data,hb,he⟩
  · simp [loadSpan,hb] at h
  · rw [he]
    unfold updateFromFile
    simp only [loadSpan,hb] at h
    by_cases hl : (loadFile self clock file data).1 = true
    · rw [if_pos hl] at h
      simp only [if_pos hl]
      apply setFrom_kept _ ⟨rfl,rfl⟩
      cases hd : deducedSpan (loadFile self clock file data).2.1 clock file with
      | some d =>
        have hs : d = span := by simpa [hd] using h
        apply setFrom_last
        rw [deduceExpiryTime_span,hd,hs]
        exact setExpiryTime_setFrom _ _ _ _ _ _ hk
      | none =>
        have hs : fileSpan clock file (data.getD []) = some span := by simpa [hd] using h
        apply setFrom_kept (loadFile_setFrom self clock file data span hk hl hs)
        rw [deduceExpiryTime_span,hd]
        exact kept_nil _
    · rw [if_neg hl] at h
      cases h

/-- While nothing has been said about an expiry time that was set, its timer
has an unread expiration in the second after it. -/
def Watched (s : System) : Prop :=
  ∀ c, s.setAt = some c → s.emitted = false → s.manager.expiryTimeSecs ≠ maxWord →
    0 < s.manager.expiryTimeSecs.toNat ∧ ∃ tm t, s.timer = some tm ∧ Pending tm t ∧
      s.manager.expiryTimeSecs.toNat*nsecPerSec ≤ t ∧
      t ≤ max (s.manager.expiryTimeSecs.toNat*nsecPerSec) c+nsecPerSec

structure Invariant (s : System) : Prop where
  enabled : s.manager.enabled = true
  bounded : s.now < boottimeLimit
  watched : Watched s

theorem serve_kept (s : System) (out : Outcome) (h : Kept s.manager out)
    (hw : Watched s) : Watched (serve s out) := by
  obtain ⟨hf,hs⟩ := calm_free _ h.2
  intro c hc hn hm
  simp only [serve,hs,Bool.false_eq_true,if_false,Bool.or_eq_false_iff] at hc hn hm ⊢
  rw [h.1] at hm ⊢
  rw [rearm_free _ _ _ hf]
  exact hw c hc hn.1 hm

theorem expirySpanClamped_toNat (base span : UInt64)
    (h : base.toNat+span.toNat < maxWord.toNat) :
    (expirySpanClamped (saturatingAdd base span) base).toNat = min span.toNat gMaxUint := by
  have hd : (saturatingAdd base span-base).toNat = span.toNat := by
    have := maxWord_toNat
    rw [saturatingAdd_sub]
    omega
  have hg : gMaxUint = 4294967295 := rfl
  unfold expirySpanClamped
  rw [hd,UInt32.toNat_ofNat']
  omega

theorem interval_eq (span : ℕ) : intervalClamped (min span gMaxUint) = intervalClamped span := by
  have hg : gMaxUint = 4294967295 := rfl
  have hm : gMaxUint/msecPerSec = 4294967 := rfl
  unfold intervalClamped
  omega

theorem serve_setFrom (s : System) (out : Outcome) (base span : UInt64)
    (h : SetFrom base span out) (hl : SpanLands s.now base.toNat span.toNat) :
    Watched (serve s out) := by
  intro c hc hn hm
  have hx : (serve s out).manager.expiryTimeSecs = saturatingAdd base span := h.1
  rw [hx] at hm ⊢
  obtain ⟨before,after,he,ha⟩ := h.2 hm
  have hsat := saturatingAdd_toNat base span
  have hlt : base.toNat+span.toNat < maxWord.toNat := by
    rw [word_ne_iff,hsat] at hm
    have := maxWord_toNat
    omega
  have hsets : out.2.any Effect.setsExpiry = true := by simp [he,Effect.setsExpiry]
  have hset : some s.now = some c := by simpa [serve,hsets] using hc
  rcases hl with hmax | ⟨hi,k,hk,hlo,hhi⟩
  · omega
  · have htimer : (serve s out).timer =
        some (arm s.now (intervalClamped span.toNat*nsecPerSec)) := by
      show out.2.foldl (rearm s.now) s.timer = _
      rw [he,List.foldl_append,List.foldl_cons,rearm_free _ _ _ ha]
      show some (arm s.now (intervalClamped _*nsecPerSec)) = _
      rw [expirySpanClamped_toNat base span hlt,interval_eq]
    have hn : nsecPerSec = 1000000000 := rfl
    have hadd : (saturatingAdd base span).toNat = base.toNat+span.toNat := by
      have := maxWord_toNat
      omega
    have hpos : 0 < span.toNat := by
      unfold intervalClamped at hi
      omega
    rw [hadd,← Option.some.inj hset]
    exact ⟨by omega,_,_,htimer,pending_arm s.now _ k (Nat.mul_pos hi (by omega)) hk,hlo,hhi⟩

theorem clockOf_time (s : System) (h : s.now < boottimeLimit) :
    (clockOf s).time.toNat = s.now/nsecPerSec := by
  have hb : boottimeLimit = 9223372036854775808000 := rfl
  have hn : nsecPerSec = 1000000000 := rfl
  show (UInt64.ofNat (s.now/nsecPerSec)).toNat = _
  rw [UInt64.toNat_ofNat',hn]
  omega

theorem dispatch_watched (s : System) (tm : Timer) (h : Invariant s) (ht : s.timer = some tm) :
    Watched (dispatch s tm) := by
  have hnum : nsecPerSec = 1000000000 := rfl
  have htime := clockOf_time s h.bounded
  intro c hc hn hm
  obtain ⟨hne,hsaid⟩ := Bool.or_eq_false_iff.mp hn
  obtain ⟨hpos,tm',t,htm,hpend,hlo,hhi⟩ := h.watched c hc hne hm
  rw [ht,Option.some.injEq] at htm
  subst htm
  have hcheck : ¬ s.manager.expiryTimeSecs ≤ (clockOf s).time := by
    intro hle
    unfold checkExpiredCb at hsaid
    rw [if_neg (by simp [h.enabled]),if_pos hle] at hsaid
    cases hsaid
  have hgo : (checkExpiredCb s.manager (clockOf s)).1 = true := by
    unfold checkExpiredCb
    rw [if_neg (by simp [h.enabled]),if_neg hcheck]
  have hlater : s.now < t := by
    by_contra hle
    apply hcheck
    rw [UInt64.le_iff_toNat_le,htime]
    apply (Nat.le_div_iff_mul_le (by omega)).mpr
    omega
  have htimer : (dispatch s tm).timer = some (read tm s.now) := if_pos hgo
  exact ⟨hpos,read tm s.now,t,htimer,pending_read hpend hlater,hlo,hhi⟩

theorem clearCode_watched (s : System) (h : Invariant s)
    (hc : s.manager.cancelled = true ∨ s.manager.expiryTimeSecs = 0) :
    Watched (serve s (clearCode s.manager (clockOf s)).2) := by
  cases hn : s.manager.cancelled with
  | true =>
    apply serve_kept s _ _ h.watched
    rw [(clearCode_refused s.manager (clockOf s) (Or.inr hn)).2]
    exact kept_nil _
  | false =>
    have hz : s.manager.expiryTimeSecs = 0 := by simpa [hn] using hc
    have hsets : (clearCode s.manager (clockOf s)).2.2.any Effect.setsExpiry = false := by
      rw [clearCode_ok s.manager (clockOf s) h.enabled hn]
      unfold zeroExpiryTime clearExpiryTimer internalSave
      rw [if_neg (by simp [hz])]
      cases he : s.manager.expiry <;> simp [he,Effect.setsExpiry]
    intro c hset hsaid hm
    simp only [serve,hsets,Bool.false_eq_true,if_false,Bool.or_eq_false_iff] at hset hsaid
    have hw := (h.watched c hset hsaid.1 (by rw [hz]; decide)).1
    rw [hz] at hw
    exact absurd hw (by decide)

theorem step_invariant (hmac : Hmac) (s s' : System) (op : Operation) (h : Invariant s)
    (hp : SetsInTime hmac s op) (hs : step hmac s op = some s') : Invariant s' := by
  cases op with
  | fileLoad file result =>
    simp only [step] at hs
    split_ifs at hs with he
    cases hs
    refine ⟨he,h.bounded,?_⟩
    cases hspan : loadSpan s.manager (clockOf s) file result with
    | none => exact serve_kept s _ (fileLoadCb_kept _ _ _ _ hspan) h.watched
    | some span =>
      apply serve_setFrom s _ _ _ (fileLoadCb_setFrom _ _ _ _ _ rfl hspan)
      exact hp.1 _ _ (by simp [setting,hspan])
  | addCode codeStr =>
    cases hs
    refine ⟨(addCode_settings hmac _ _ _).1.trans h.enabled,h.bounded,?_⟩
    cases hk : acceptedCode hmac s.manager (clockOf s) codeStr with
    | none => exact serve_kept s _ (addCode_kept hmac _ _ _ hk) h.watched
    | some used =>
      apply serve_setFrom s _ _ _ (addCode_setFrom hmac _ _ _ _ rfl hk)
      exact hp.1 _ _ (by simp [setting,hk])
  | wallclockTimeChanged delta =>
    cases hs
    refine ⟨(wallclockTimeChanged_enabled _ _ _).trans h.enabled,h.bounded,?_⟩
    by_cases hd : 0 < delta ∧ (clockOf s).time < s.manager.expiryTimeSecs
    · apply serve_setFrom s _ _ _ (wallclockTimeChanged_setFrom _ _ _ rfl hd)
      exact hp.1 _ _ (if_pos hd)
    · exact serve_kept s _ (wallclockTimeChanged_kept _ _ _ hd) h.watched
  | clearCode =>
    cases hs
    exact ⟨(clearCode_enabled _ _).trans h.enabled,h.bounded,clearCode_watched s h (hp.2 rfl)⟩
  | timePasses now wallclock =>
    simp only [step] at hs
    split_ifs at hs with ht
    cases hs
    exact ⟨h.enabled,ht.2,h.watched⟩
  | timerDispatch =>
    cases ht : s.timer with
    | none => simp [step,ht] at hs
    | some tm =>
      have hd : (if ready tm s.now = true then some (dispatch s tm) else none) = some s' := by
        simpa [step,ht] using hs
      by_cases hr : ready tm s.now = true
      · rw [if_pos hr] at hd
        cases hd
        exact ⟨h.enabled,h.bounded,dispatch_watched s tm h ht⟩
      · rw [if_neg hr] at hd
        cases hd

/-- In every run whose operations set the expiry time in time, and clear no
code before its credit is gone, expiry is always enforced. -/
theorem expiry_enforced (hmac : Hmac) (manager : EpgManager) (now : ℕ) (wallclock : UInt64)
    (ops : List Operation) (s : System) (he : manager.enabled = true)
    (hb : now < boottimeLimit)
    (hp : Along (step hmac) (SetsInTime hmac) ops (started manager now wallclock))
    (hr : run (step hmac) ops (started manager now wallclock) = some s) : ¬ Unenforced s := by
  have hi : Invariant (started manager now wallclock) :=
    ⟨he,hb,fun c hc => absurd hc (by simp [started])⟩
  have h := run_invariant_along (fun t op t' => step_invariant hmac t t' op) hi hp hr
  rintro ⟨hidle,hm,hlate,hset,hn⟩
  obtain ⟨c,hc,hset⟩ := (Option.any_eq_true _ _).mp hset
  obtain ⟨-,tm,t,ht,hpend,-,hhi⟩ := h.watched c hc hn hm
  have hpast : c+nsecPerSec ≤ s.now := of_decide_eq_true hset
  rw [Nat.add_mul,Nat.one_mul] at hlate
  have hready := ready_of_pending hpend (show t ≤ s.now by omega)
  simp [idle,ht,hready] at hidle

def creditRunsOut : List Operation :=
  [.fileLoad .expirySeconds (.contents (wordBytes 10)), .timePasses 110000000000 5010,
    .timerDispatch, .timePasses 112000000000 5012]

def halfLoaded : EpgManager := { freshManager with lastSaveTimeSecs := some 5000 }

theorem expiry_enforced_example :
    ∃ s, run (step zeroHmac) creditRunsOut (started halfLoaded 100000000000 5000) = some s ∧
      ¬ Unenforced s := by
  have hset : setting zeroHmac (started halfLoaded 100000000000 5000)
      (.fileLoad .expirySeconds (.contents (wordBytes 10))) = some (100,10) := by decide +kernel
  have hlands : SpanLands 100000000000 100 10 :=
    Or.inr ⟨by decide,1,by decide,by decide,by decide⟩
  have hp : Along (step zeroHmac) (SetsInTime zeroHmac) creditRunsOut
      (started halfLoaded 100000000000 5000) := by
    refine ⟨⟨?_,nofun⟩,fun _ _ => ⟨⟨nofun,nofun⟩,fun _ _ => ⟨⟨nofun,nofun⟩,
      fun _ _ => ⟨⟨nofun,nofun⟩,fun _ _ => trivial⟩⟩⟩⟩
    intro base span h
    rw [hset] at h
    cases h
    exact hlands
  have h : (run (step zeroHmac) creditRunsOut
      (started halfLoaded 100000000000 5000)).isSome = true := by decide +kernel
  obtain ⟨s,hs⟩ := Option.isSome_iff_exists.mp h
  exact ⟨s,hs,expiry_enforced zeroHmac halfLoaded 100000000000 5000 creditRunsOut s rfl
    (by decide) hp hs⟩

def creditExtended : List Operation :=
  [.fileLoad .key (.contents (List.replicate 64 0)),
    .fileLoad .clockTime (.contents (wordBytes 5000)),
    .fileLoad .expirySeconds (.contents (wordBytes 10)), .timePasses 103000000000 5003,
    .addCode fiveSeconds, .timePasses 108000000000 5008, .timerDispatch,
    .timePasses 113000000000 5013, .timerDispatch, .timePasses 116500000000 5016]

/-- The timer then checks at the seconds 108, 113 and 118, but the expiry time
is 115. -/
theorem extended_unenforced :
    ¬ ∀ (ops : List Operation) (s : System),
      run (step zeroHmac) ops (started (epgManagerInit true) 100000000000 5000) = some s →
        ¬ Unenforced s := by
  intro h
  have hs : (run (step zeroHmac) creditExtended
      (started (epgManagerInit true) 100000000000 5000)).any
        (fun s => decide (Unenforced s)) = true := by decide +kernel
  obtain ⟨s,hr,hu⟩ := (Option.any_eq_true _ _).mp hs
  exact h creditExtended s hr (of_decide_eq_true hu)

end EosPayg.ExpiryTimer
